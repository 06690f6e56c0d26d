/-
  Declarations/Proofs/Record/Naming.lean
  ======================================
  **What a record by itself declares a name as.**

  A class, interface, function or method declares its type parameters, each
  under the name that its handle is shown with, and of several with one name the
  last counts.  A module declares its classes and interfaces under their own
  names, and again the last counts.  No other record declares a type.

  `Record.label` is all of this as one shallow reading.  A declaration changes
  it in one way: a module to which a class or interface is added declares one
  name anew (`declared?_put`).  New type parameters go before the old ones
  (`declared?_of_withTypeParameters?`).
-/
import Declarations.Session
import Declarations.Proofs.Record.Declaring

namespace Declarations

/-! ## 1. The names that a record declares -/

/-- The handle of the latest class or interface declared under a name. -/
def Module.nominal? (m : Module) (name : String) : Option TypeHandle :=
  (m.entries.reverse.find? fun e => e.typeName? = some name).bind Entry.handle?

/-- The entries of a module matter for its names by their outlines alone. -/
theorem Module.nominal?_congr {m m' : Module}
    (h : m'.entries.map (Record.outline ∘ .entry) = m.entries.map (Record.outline ∘ .entry)) :
    m'.nominal? = m.nominal? := by
  have hread : ∀ (m : Module) (name : String), m.nominal? name =
      ((m.entries.map (Record.outline ∘ .entry)).reverse.find? (·.typeName? = some name)).bind
        (·.handle?) := by
    intro m name
    rw [nominal?, ← List.map_reverse, List.find?_map, Option.bind_map]
    rfl
  funext name
  rw [hread, hread, h]

theorem Module.nominal?_push (m : Module) (e : Entry) (name : String) :
    ({ m with entries := m.entries ++ [e] } : Module).nominal? name =
      if e.typeName? = some name then e.handle? else m.nominal? name := by
  rw [nominal?, nominal?, List.reverse_concat, List.find?_cons]
  by_cases hname : e.typeName? = some name <;> simp [hname]

namespace Record

variable {r r' child child' : Record} {slot : Slot} {d : Declaration} {name : String}

/-- What a record declares a name as. -/
def declared? (name : String) : Record → Option TypeHandle
  | .module m => m.nominal? name
  | r => (r.typeParameters?.join.getD []).reverse.find? (·.display = name)

/-- What a record is to a reader of names. -/
structure Label where
  kind : Kind
  names : String → Option TypeHandle

def label (r : Record) : Label := ⟨r.kind, fun name => r.declared? name⟩

theorem declared?_of_kind_ne_module (h : r.kind ≠ .module) :
    r.declared? name =
      (r.typeParameters?.join.getD []).reverse.find? (·.display = name) := by
  cases r with
  | module => exact absurd rfl h
  | _ => rfl

theorem declared?_eq_none (hmodule : r.kind ≠ .module) (hscope : r.kind.opensScope = false) :
    r.declared? name = none := by
  rw [declared?_of_kind_ne_module hmodule]
  rcases r with _ | _ | e | _ | _ | _ | _
  case entry => cases e <;> first | rfl | cases hscope
  case method => cases hscope
  all_goals rfl

/-! ## 2. Labels are shallow -/

theorem typeParameters?_put (r : Record) (slot : Slot) (child : Record) :
    (r.put slot child).typeParameters? = r.typeParameters? := by
  unfold put
  split <;> rfl

theorem map_fillAt {α β : Type} {f : α → β} {xs : List α} {position : Nat} {x y : α}
    (hx : xs[position]? = some x) (hy : f y = f x) :
    (fillAt xs position y).map f = xs.map f := by
  have hle : position ≤ xs.length := Nat.le_of_lt (List.getElem?_eq_some_iff.mp hx).1
  apply List.ext_getElem?
  intro i
  rw [List.getElem?_map, List.getElem?_map, getElem?_fillAt y hle]
  split
  next heq => rw [← heq, hx, Option.map_some, Option.map_some, hy]
  next => rfl

theorem label_eq (hkind : r'.kind = r.kind) (hmodule : r.kind ≠ .module)
    (htypes : r'.typeParameters? = r.typeParameters?) : r'.label = r.label := by
  rw [label, label, hkind]
  congr 1
  funext name
  rw [declared?_of_kind_ne_module hmodule, declared?_of_kind_ne_module (hkind ▸ hmodule), htypes]

theorem exists_eq_module (h : r.kind = .module) : ∃ m, r = .module m := by
  rcases r with _ | m | e | _ | _ | _ | _
  case module => exact ⟨m, rfl⟩
  case entry => cases e <;> cases h
  all_goals cases h

theorem exists_eq_program (h : r.kind = .program) : ∃ p, r = .program p := by
  rcases r with p | _ | e | _ | _ | _ | _
  case program => exact ⟨p, rfl⟩
  case entry => cases e <;> cases h
  all_goals cases h

theorem shallow_label : Shallow label := by
  intro r slot child child' hchild hout
  rcases Decidable.em (r.kind = .module) with hkind | hkind
  · obtain ⟨m, rfl⟩ := exists_eq_module hkind
    cases slot with
    | entry i =>
      obtain ⟨e, he, rfl⟩ := Option.map_eq_some_iff.mp hchild
      obtain ⟨e', rfl⟩ : ∃ e', child' = .entry e' := by
        have haccepts := accepts_of_kind_eq hchild (kind_eq_of_outline_eq hout)
        cases child' <;> simp [Slot.accepts] at haccepts ⊢
      have hentries : (fillAt m.entries i e').map (outline ∘ .entry) =
          m.entries.map (outline ∘ .entry) := map_fillAt he hout
      have hnominal : ({ m with entries := fillAt m.entries i e' } : Module).nominal? =
          m.nominal? := Module.nominal?_congr hentries
      exact congrArg (Label.mk .module) hnominal
    | _ => cases hchild
  · exact label_eq (kind_put r slot child') hkind (typeParameters?_put r slot child')

theorem label_eq_of_edit (hout : r'.outline = r.outline) (hchildren : r'.child? = r.child?)
    (htypes : r'.typeParameters? = r.typeParameters?) : r'.label = r.label := by
  have hkind := kind_eq_of_outline_eq hout
  rcases Decidable.em (r.kind = .module) with hmodule | hmodule
  · obtain ⟨m, rfl⟩ := exists_eq_module hmodule
    obtain ⟨m', rfl⟩ := exists_eq_module (hkind.trans hmodule)
    have hentries : m'.entries.map (outline ∘ .entry) = m.entries.map (outline ∘ .entry) := by
      apply List.ext_getElem?
      intro i
      have hchild : m'.entries[i]?.map entry = m.entries[i]?.map entry :=
        congrFun hchildren (.entry i)
      rw [List.getElem?_map, List.getElem?_map, ← Option.map_map, ← Option.map_map, hchild]
    exact congrArg (Label.mk .module) (Module.nominal?_congr hentries)
  · exact label_eq hkind hmodule htypes

theorem view_label_insertModule (p : Program) (path : String) (m : Module)
    (hmodule : m = p.modules[path]?.getD (.atPath path)) (id : EntityId) :
    (Record.program { p with modules := p.modules.insert path { m with id } }).view label =
      Function.update ((Record.program p).view label) [.module path]
        (some (Record.module m).label) := by
  have hprogram : (Record.program { p with modules := p.modules.insert path { m with id } }).label =
      (Record.program p).label := rfl
  rw [view_insertModule shallow_label p path m hmodule id, hprogram,
    update_view_self label (get?_nil (.program p))]
  rfl

/-! ## 3. Declarations and type parameters -/

theorem label_withId_bare (d : Declaration) (handle : Option TypeHandle) (id : EntityId) :
    ((d.bare handle).withId id).label = ⟨d.kind, fun _ => none⟩ := by
  cases d <;> rfl

theorem kind_eq_module_of_typeName? (hslot : r.slotFor? d = some slot)
    (hname : d.typeName? = some name) : r.kind = .module := by
  rcases r with _ | _ | e | _ | _ | _ | _
  case module => rfl
  case entry => cases e <;> cases d <;> simp [slotFor?, Declaration.typeName?] at hslot hname
  all_goals cases d <;> simp [slotFor?, Declaration.typeName?] at hslot hname

/-- With a child, a record declares what it declared and the type of the child. -/
theorem declared?_put (hslot : r.slotFor? d = some slot) (handle : Option TypeHandle)
    (id : EntityId) (name : String) :
    (r.put slot ((d.bare handle).withId id)).declared? name =
      if d.typeName? = some name then handle else r.declared? name := by
  rcases Decidable.em (r.kind = .module) with hkind | hkind
  · obtain ⟨m, rfl⟩ := exists_eq_module hkind
    have hpush : ∀ e : Entry, slot = .entry m.entries.length →
        ((Record.module m).put slot (.entry e)).declared? name =
          if e.typeName? = some name then e.handle? else m.nominal? name := by
      rintro e rfl
      rw [put, fillAt_length]
      exact Module.nominal?_push m e name
    cases d <;> simp [slotFor?] at hslot <;> subst hslot <;> exact hpush _ rfl
  · have hname : d.typeName? ≠ some name :=
      fun hname => hkind (kind_eq_module_of_typeName? hslot hname)
    rw [if_neg hname, declared?_of_kind_ne_module hkind,
      declared?_of_kind_ne_module (by rwa [kind_put]), typeParameters?_put]

/-- The records that can have type parameters are those that open a scope. -/
theorem isSome_typeParameters? (r : Record) : r.typeParameters?.isSome = r.kind.opensScope := by
  rcases r with _ | _ | e | _ | _ | _ | _
  case entry => cases e <;> rfl
  all_goals rfl

theorem opensScope_of_typeParameters? {old : Option (List TypeHandle)}
    (h : r.typeParameters? = some old) : r.kind.opensScope := by
  rw [← isSome_typeParameters?, h]
  rfl

theorem getD_appendTo {α : Type} (old : Option (List α)) (new : List α) :
    (appendTo old new).getD [] = old.getD [] ++ new := by
  cases new <;> simp [appendTo]

/-- New type parameters come before the old ones, the last of them first. -/
theorem declared?_of_withTypeParameters? {old : Option (List TypeHandle)}
    {handles : List TypeHandle} (hold : r.typeParameters? = some old)
    (hnew : r.withTypeParameters? (appendTo old handles) = some r') (name : String) :
    r'.declared? name =
      (handles.reverse.find? (·.display = name)).or (r.declared? name) := by
  have hkind : r.kind ≠ .module := by
    rintro hkind
    obtain ⟨m, rfl⟩ := exists_eq_module hkind
    cases hold
  obtain ⟨houtline, -, -, htypes⟩ := withTypeParameters?_keeps hnew
  rw [declared?_of_kind_ne_module hkind,
    declared?_of_kind_ne_module (by rwa [kind_eq_of_outline_eq houtline]), htypes, hold]
  rw [Option.join_some, Option.join_some, getD_appendTo, List.reverse_append, List.find?_append]

end Record

end Declarations
