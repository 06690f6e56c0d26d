/-
  Declarations/Proofs/Record/View.lean
  ====================================
  **A tree of records as a function of the place.**

  A root holds all records below it, so replacing one of them changes every
  record around it as well.  What changes there is content only: a container
  shows of a child no more than the child's `Record.outline`.

  A reading `f` of records that depends on the children through their outlines
  alone is `Record.Shallow`.  `Record.view f` takes it at every place of a root.
  There a replacement is seen at one place,

      (root.replace place r').view f = update (root.view f) place (f r'),

  if the children stay (`view_replace_edited`), and at one place more if a child
  is put where none was (`view_replace_put`).
-/
import Declarations.Record.Declaration
import Mathlib.Logic.Function.Basic

namespace Declarations

/-! ## 1. What a container shows of a child -/

namespace Entry

/-- The name under which an entry declares a type: that of a class or
    interface, unless it is empty. -/
def typeName? : Entry → Option String
  | .class c => if c.name.isEmpty then none else some c.name
  | .interface i => if i.name.isEmpty then none else some i.name
  | _ => none

def handle? : Entry → Option TypeHandle
  | .class c => c.handle
  | .interface i => i.handle
  | _ => none

end Entry

/-- The kind of a record and, if it is an entry, the type that it declares. -/
structure Record.Outline where
  kind : Kind
  typeName? : Option String
  handle? : Option TypeHandle

def Record.outline : Record → Record.Outline
  | .entry e => ⟨e.kind, e.typeName?, e.handle?⟩
  | r => ⟨r.kind, none, none⟩

/-- Whether a slot is for records of a kind. -/
def Slot.isFor : Slot → Kind → Bool
  | .module _, k => k = .module
  | .entry _, k => k = .class ∨ k = .interface ∨ k = .variable ∨ k = .function
  | .constructor, k => k = .constructor
  | .method _, k => k = .method
  | .property _, k => k = .property
  | .parameter _, k => k = .parameter

theorem Slot.accepts_eq_isFor (slot : Slot) (r : Record) : slot.accepts r = slot.isFor r.kind := by
  rcases r with _ | _ | e | _ | _ | _ | _
  case entry => cases e <;> cases slot <;> rfl
  all_goals cases slot <;> rfl

/-- What is found at a place after a change at one place. -/
theorem Place.update_eq_some_iff {α : Type} {f : Place → Option α} {place q : Place} {x y : α} :
    Function.update f place (some x) q = some y ↔
      (q = place ∧ y = x) ∨ (q ≠ place ∧ f q = some y) := by
  by_cases hplace : q = place
  · simp [hplace, eq_comm]
  · simp [hplace]

namespace Record

variable {α : Type} {f : Record → α} {root r r' child child' owner : Record}
variable {slot other : Slot} {place q : Place}

theorem kind_outline (r : Record) : r.outline.kind = r.kind := by
  cases r <;> rfl

theorem kind_eq_of_outline_eq (h : r'.outline = r.outline) : r'.kind = r.kind := by
  rw [← kind_outline, h, kind_outline]

/-! ## 2. Slots that are taken -/

theorem hasSlot_of_child? (h : r.child? slot = some child) : r.HasSlot slot := by
  rcases r with _ | m | e | _ | _ | _ | _
  case entry =>
    cases e <;> cases slot <;> simp [child?, HasSlot] at h ⊢ <;>
      (obtain ⟨_, hget, -⟩ := h; exact Nat.le_of_lt (List.getElem?_eq_some_iff.mp hget).1)
  case module =>
    cases slot <;> simp [child?, HasSlot] at h ⊢
    obtain ⟨_, hget, -⟩ := h
    exact Nat.le_of_lt (List.getElem?_eq_some_iff.mp hget).1
  all_goals cases slot <;> simp [child?, HasSlot] at h ⊢

theorem accepts_of_child? (h : r.child? slot = some child) : slot.accepts child := by
  rcases r with _ | _ | e | _ | _ | _ | _
  case entry =>
    cases e <;> cases slot <;> simp [child?] at h <;> obtain ⟨_, -, rfl⟩ := h <;> rfl
  all_goals cases slot <;> simp [child?] at h <;> obtain ⟨_, -, rfl⟩ := h <;> rfl

theorem accepts_of_kind_eq (h : r.child? slot = some child) (hkind : child'.kind = child.kind) :
    slot.accepts child' := by
  rw [Slot.accepts_eq_isFor, hkind, ← Slot.accepts_eq_isFor]
  exact accepts_of_child? h

@[simp] theorem outline_put (r : Record) (slot : Slot) (child : Record) :
    (r.put slot child).outline = r.outline := by
  unfold put
  split <;> rfl

@[simp] theorem kind_put (r : Record) (slot : Slot) (child : Record) :
    (r.put slot child).kind = r.kind :=
  kind_eq_of_outline_eq (outline_put r slot child)

@[simp] theorem id_put (r : Record) (slot : Slot) (child : Record) :
    (r.put slot child).id = r.id := by
  unfold put
  split <;> rfl

theorem outline_replace (hget : root.get? place = some r) (hout : r'.outline = r.outline) :
    (root.replace place r').outline = root.outline := by
  cases place with
  | nil =>
    obtain rfl : root = r := Option.some.inj hget
    exact hout
  | cons slot rest =>
    obtain ⟨child, hchild, -⟩ := Option.bind_eq_some_iff.mp hget
    simp [replace, hchild]

/-! ## 3. Shallow readings -/

/-- A reading that depends on the children through their outlines alone. -/
def Shallow (f : Record → α) : Prop :=
  ∀ ⦃r slot child child'⦄, r.child? slot = some child → child'.outline = child.outline →
    f (r.put slot child') = f r

/-- A reading at every place of a root. -/
def view (f : Record → α) (root : Record) (place : Place) : Option α := (root.get? place).map f

@[simp] theorem view_nil (f : Record → α) (r : Record) : r.view f [] = some (f r) := rfl

theorem view_cons (f : Record → α) (r : Record) (slot : Slot) (rest : Place) :
    r.view f (slot :: rest) = (r.child? slot).bind fun child => child.view f rest := by
  rw [view, get?_cons]
  cases r.child? slot <;> rfl

theorem view_eq_some_iff {x : α} :
    root.view f place = some x ↔ ∃ r, root.get? place = some r ∧ f r = x :=
  Option.map_eq_some_iff

theorem view_eq_none_iff : root.view f place = none ↔ root.get? place = none :=
  Option.map_eq_none_iff

theorem update_view_self (f : Record → α) (h : root.get? place = some r) :
    Function.update (root.view f) place (some (f r)) = root.view f :=
  Function.update_eq_self_iff.mpr (view_eq_some_iff.mpr ⟨r, h, rfl⟩).symm

theorem get?_singleton (r : Record) (slot : Slot) : r.get? [slot] = r.child? slot := by
  rw [get?_cons]
  cases r.child? slot <;> rfl

theorem get?_concat (h : root.get? place = some owner) (slot : Slot) :
    root.get? (place ++ [slot]) = owner.child? slot := by
  rw [get?_append, h, Option.bind_some, get?_singleton]

theorem exists_get?_of_append (h : root.get? (place ++ q) = some r) :
    ∃ above, root.get? place = some above := by
  rw [get?_append] at h
  obtain ⟨above, habove, -⟩ := Option.bind_eq_some_iff.mp h
  exact ⟨above, habove⟩

theorem isFor_of_get?_concat (h : root.get? (place ++ [slot]) = some r) : slot.isFor r.kind := by
  obtain ⟨owner, howner⟩ := exists_get?_of_append h
  rw [get?_concat howner] at h
  rw [← Slot.accepts_eq_isFor]
  exact accepts_of_child? h

theorem eq_nil_of_kind_eq_program (h : root.get? place = some r) (hkind : r.kind = .program) :
    place = [] := by
  rcases place.eq_nil_or_concat with rfl | ⟨above, slot, rfl⟩
  · rfl
  · rw [List.concat_eq_append] at h
    have hfor := isFor_of_get?_concat h
    rw [hkind] at hfor
    cases slot <;> simp [Slot.isFor] at hfor

/-- Modules, and nothing else, are in programs. -/
theorem kind_eq_program_iff (h : owner.child? slot = some child) :
    owner.kind = .program ↔ child.kind = .module := by
  have hfor := accepts_of_child? h
  rw [Slot.accepts_eq_isFor] at hfor
  constructor
  · intro hkind
    cases owner with
    | program p =>
      cases slot with
      | module path => exact of_decide_eq_true hfor
      | _ => cases h
    | entry e => cases e <;> cases hkind
    | _ => cases hkind
  · intro hkind
    rw [hkind] at hfor
    cases slot with
    | module path =>
      rcases owner with _ | _ | e | _ | _ | _ | _
      case program => rfl
      case entry => cases e <;> cases h
      all_goals cases h
    | _ => simp [Slot.isFor] at hfor

theorem place_of_kind_eq_module (h : root.get? place = some r) (hkind : r.kind = .module) :
    place = [] ∨ ∃ path, place = [.module path] := by
  rcases place.eq_nil_or_concat with rfl | ⟨above, slot, rfl⟩
  · exact Or.inl rfl
  · rw [List.concat_eq_append] at h ⊢
    have hfor := isFor_of_get?_concat h
    rw [hkind] at hfor
    obtain ⟨path, rfl⟩ : ∃ path, slot = .module path := by
      cases slot <;> simp [Slot.isFor] at hfor ⊢
    obtain ⟨owner, howner⟩ := exists_get?_of_append h
    rw [get?_concat howner] at h
    have hprogram := (kind_eq_program_iff h).mpr hkind
    exact Or.inr ⟨path, by rw [eq_nil_of_kind_eq_program howner hprogram, List.nil_append]⟩

/-! ## 4. One replacement in a view -/

/-- After a replacement by a record of the same outline, the places below it are
    those of the new record, and no other place shows a difference. -/
theorem view_replace (hf : Shallow f) (hget : root.get? place = some r)
    (hout : r'.outline = r.outline) (q : Place) :
    (root.replace place r').view f q =
      if place <+: q then r'.view f (q.drop place.length) else root.view f q := by
  induction place generalizing root q with
  | nil => simp [replace]
  | cons slot rest ih =>
    obtain ⟨child, hchild, hrest⟩ := Option.bind_eq_some_iff.mp hget
    have hchild' := outline_replace hrest hout
    have hput : (root.replace (slot :: rest) r') = root.put slot (child.replace rest r') := by
      simp [replace, hchild]
    rw [hput]
    cases q with
    | nil => simp [hf hchild hchild']
    | cons other q =>
      have haccepts := accepts_of_kind_eq hchild (kind_eq_of_outline_eq hchild')
      rw [view_cons, view_cons, child?_put (hasSlot_of_child? hchild) haccepts]
      by_cases hslot : slot = other
      · subst hslot
        simp [hchild, ih hrest]
      · simp [hslot]

theorem get?_replace (hget : root.get? place = some r) (hout : r'.outline = r.outline) :
    (root.replace place r').get? place = some r' := by
  induction place generalizing root with
  | nil => rfl
  | cons slot rest ih =>
    obtain ⟨child, hchild, hrest⟩ := Option.bind_eq_some_iff.mp hget
    have haccepts := accepts_of_kind_eq hchild (kind_eq_of_outline_eq (outline_replace hrest hout))
    rw [replace, hchild, get?_cons, child?_put (hasSlot_of_child? hchild) haccepts, if_pos rfl]
    exact ih hrest

/-- A replacement that keeps the children is seen at its own place only. -/
theorem view_replace_edited (hf : Shallow f) (hget : root.get? place = some r)
    (hout : r'.outline = r.outline) (hchildren : r'.child? = r.child?) :
    (root.replace place r').view f = Function.update (root.view f) place (some (f r')) := by
  funext q
  rw [view_replace hf hget hout, Function.update_apply]
  by_cases hprefix : place <+: q
  · obtain ⟨rest, rfl⟩ := hprefix
    cases rest with
    | nil => simp
    | cons slot rest =>
      have hbelow : r'.view f (slot :: rest) = r.view f (slot :: rest) := by
        rw [view_cons, view_cons, hchildren]
      rw [if_pos (List.prefix_append _ _), List.drop_left, hbelow, if_neg (by simp), view, view,
        get?_append, hget, Option.bind_some]
  · rw [if_neg hprefix, if_neg fun heq : q = place => hprefix (heq ▸ List.prefix_rfl)]

/-- A record without children, put into an empty slot of the record at a place,
    is seen there and in the reading of its container. -/
theorem view_replace_put (hf : Shallow f) (hget : root.get? place = some owner)
    (hhas : owner.HasSlot slot) (hempty : owner.child? slot = none)
    (haccepts : slot.accepts child) (hbare : ∀ s, child.child? s = none) :
    (root.replace place (owner.put slot child)).view f =
      Function.update (Function.update (root.view f) place (some (f (owner.put slot child))))
        (place ++ [slot]) (some (f child)) := by
  funext q
  rw [view_replace hf hget (outline_put owner slot child), Function.update_apply,
    Function.update_apply]
  by_cases hprefix : place <+: q
  · obtain ⟨rest, rfl⟩ := hprefix
    have hold : root.view f (place ++ rest) = owner.view f rest := by
      rw [view, get?_append, hget, Option.bind_some, view]
    rw [if_pos (List.prefix_append _ _), List.drop_left, hold]
    rcases rest with _ | ⟨other, rest⟩
    · simp
    rw [view_cons, view_cons, child?_put hhas haccepts]
    by_cases hslot : slot = other
    · subst hslot
      rcases rest with _ | ⟨next, rest⟩
      · simp
      · simp [view_cons, hbare, hempty]
    · simp [hslot, Ne.symm hslot]
  · have hne : ∀ rest, q ≠ place ++ rest :=
      fun rest heq => hprefix (heq ▸ List.prefix_append _ _)
    rw [if_neg hprefix, if_neg (hne [slot]), if_neg (by simpa using hne [])]

theorem eq_module_of_get? {p : Program} {path : String} {m : Module}
    (hmodule : m = p.modules[path]?.getD (.atPath path))
    (h : (Record.program p).get? [.module path] = some r) : r = .module m := by
  rw [get?_singleton] at h
  obtain ⟨known, hknown, rfl⟩ := Option.map_eq_some_iff.mp h
  rw [hmodule, hknown, Option.getD_some]

theorem get?_module_of_isAssigned {p : Program} {path : String} {m : Module}
    (hmodule : m = p.modules[path]?.getD (.atPath path)) (hassigned : m.id.isAssigned) :
    (Record.program p).get? [.module path] = some (.module m) := by
  rw [get?_singleton]
  cases hknown : p.modules[path]? with
  | none =>
    rw [hmodule, hknown] at hassigned
    simp [Module.atPath, EntityId.isAssigned] at hassigned
  | some known =>
    rw [hmodule, hknown]
    exact congrArg (Option.map module) hknown

/-- Giving an identifier to a module of a program, which is made first if it is
    not there, is seen at the module and in the reading of the program. -/
theorem view_insertModule (hf : Shallow f) (p : Program) (path : String) (m : Module)
    (hmodule : m = p.modules[path]?.getD (.atPath path)) (id : EntityId) :
    (Record.program { p with modules := p.modules.insert path { m with id } }).view f =
      Function.update
        (Function.update ((Record.program p).view f) []
          (some (f (.program { p with modules := p.modules.insert path { m with id } }))))
        [.module path] (some (f (.module { m with id }))) := by
  cases hold : p.modules[path]? with
  | some known =>
    obtain rfl : m = known := by rw [hmodule, hold, Option.getD_some]
    have hchild : (Record.program p).child? (.module path) = some (.module m) := by
      simp [child?, hold]
    have hget : (Record.program p).get? [.module path] = some (.module m) := by
      rw [get?_singleton, hchild]
    have hreplace : (Record.program p).replace [.module path] (.module { m with id }) =
        .program { p with modules := p.modules.insert path { m with id } } := by
      simp only [replace, hchild, put]
    have houtline : (Record.module { m with id }).outline = (Record.module m).outline := rfl
    have hprogram : f (.program { p with modules := p.modules.insert path { m with id } }) =
        f (.program p) := hf hchild houtline
    have hview := view_replace_edited hf hget houtline
      (funext fun slot => by cases slot <;> rfl)
    rw [hreplace] at hview
    rw [hview, hprogram, update_view_self f (get?_nil (.program p))]
  | none =>
    obtain rfl : m = .atPath path := by rw [hmodule, hold, Option.getD_none]
    have hhas : (Record.program p).HasSlot (.module path) := trivial
    have hempty : (Record.program p).child? (.module path) = none := by simp [child?, hold]
    have hbare : ∀ slot, (Record.module { Module.atPath path with id }).child? slot = none :=
      fun slot => by cases slot <;> rfl
    exact view_replace_put hf (get?_nil (.program p)) hhas hempty rfl hbare

/-! ## 5. The records around a place -/

/-- The records around a place, the innermost first. -/
def enclosing : Record → Place → List Record
  | _, [] => []
  | r, slot :: rest =>
    (match r.child? slot with
      | some child => child.enclosing rest
      | none => []) ++ [r]

@[simp] theorem enclosing_nil (r : Record) : r.enclosing [] = [] := rfl

theorem enclosing_concat (h : root.get? place = some r) (slot : Slot) :
    root.enclosing (place ++ [slot]) = r :: root.enclosing place := by
  induction place generalizing root with
  | nil =>
    obtain rfl : root = r := Option.some.inj h
    simp only [List.nil_append, enclosing]
    cases root.child? slot <;> rfl
  | cons first rest ih =>
    obtain ⟨child, hchild, hrest⟩ := Option.bind_eq_some_iff.mp h
    simp only [List.cons_append, enclosing, hchild, ih hrest]

theorem mem_enclosing (h : r ∈ root.enclosing place) :
    ∃ q slot, q ++ [slot] <+: place ∧ root.get? q = some r := by
  induction place generalizing root with
  | nil => simp at h
  | cons first rest ih =>
    simp only [enclosing, List.mem_append, List.mem_singleton] at h
    rcases h with h | rfl
    · cases hchild : root.child? first with
      | none => simp [hchild] at h
      | some child =>
        rw [hchild] at h
        obtain ⟨q, slot, hprefix, hget⟩ := ih h
        exact ⟨first :: q, slot, List.cons_prefix_cons.mpr ⟨rfl, hprefix⟩, by
          rw [get?_cons, hchild, Option.bind_some, hget]⟩
    · exact ⟨[], first, by simp, rfl⟩

end Record

end Declarations
