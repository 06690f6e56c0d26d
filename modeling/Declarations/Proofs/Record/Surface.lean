/-
  Declarations/Proofs/Record/Surface.lean
  =======================================
  **A record by itself.**

  The surface of a record is the record without its identifier and with every child
  reduced to what its container shows of it.  It is a record again, and whatever
  steps ask of a record and do to it, they can ask of the surface and do to it:
  looking for a slot, filling one, a revision, new type parameters.

  The surfaces and identifiers at all places of a root say all there is to say of it
  (`eq_of_view_surface_eq`).
-/
import Declarations.Proofs.Record.References

namespace Declarations

/-! ## 1. Sparse tables and lists -/

namespace Parameters

/-- Change every parameter. -/
def map (change : Parameter → Parameter) (ps : Parameters) : Parameters :=
  ⟨ps.byIndex.map fun _ => change⟩

@[simp] theorem get?_map (change : Parameter → Parameter) (ps : Parameters) (index : Nat) :
    (ps.map change).get? index = (ps.get? index).map change :=
  Std.ExtTreeMap.getElem?_map

theorem map_insert (change : Parameter → Parameter) (ps : Parameters) (index : Nat)
    (parameter : Parameter) :
    (ps.insert index parameter).map change = (ps.map change).insert index (change parameter) := by
  ext1 other
  simp only [get?_map, get?_insert]
  split <;> rfl

theorem insert_self {ps : Parameters} {index : Nat} {parameter : Parameter}
    (h : ps.get? index = some parameter) : ps.insert index parameter = ps := by
  ext1 other
  rw [get?_insert]
  split
  next heq => rw [← heq, h]
  next => rfl

end Parameters

theorem fillAt_self {α : Type} {xs : List α} {position : Nat} {x : α} (h : xs[position]? = some x) :
    fillAt xs position x = xs := by
  have hle : position ≤ xs.length := Nat.le_of_lt (List.getElem?_eq_some_iff.mp h).1
  apply List.ext_getElem?
  intro i
  rw [getElem?_fillAt x hle]
  split
  next heq => rw [← heq, h]
  next => rfl

theorem map_fillAt_map {α β : Type} (f : α → β) (xs : List α) (position : Nat) (x : α) :
    (fillAt xs position x).map f = fillAt (xs.map f) position (f x) := by
  simp [fillAt, List.map_take, List.map_drop]

theorem insert_self_of_getElem? {β : Type} {t : Std.ExtTreeMap String β} {key : String} {x : β}
    (h : t[key]? = some x) : t.insert key x = t := by
  apply Std.ExtTreeMap.ext_getElem?
  intro other
  rw [Std.ExtTreeMap.getElem?_insert]
  split
  next heq => rw [← Std.LawfulEqCmp.eq_of_compare heq, h]
  next => rfl

theorem map_insert_map {β γ : Type} (f : β → γ) (t : Std.ExtTreeMap String β) (key : String) (x : β) :
    (t.insert key x).map (fun _ => f) = (t.map fun _ => f).insert key (f x) := by
  apply Std.ExtTreeMap.ext_getElem?
  intro other
  simp only [Std.ExtTreeMap.getElem?_map, Std.ExtTreeMap.getElem?_insert]
  split <;> rfl

/-! ## 2. Surfaces -/

/-- An entry reduced to its outline. -/
def Entry.blank (e : Entry) : Entry :=
  match e with
  | .class _ => .class { name := e.typeName?.getD "", handle := e.handle? }
  | .interface _ => .interface { name := e.typeName?.getD "", handle := e.handle? }
  | .variable _ => .variable {}
  | .function _ => .function {}

namespace Record

variable {a b r r' child child' : Record} {slot : Slot} {d : Declaration} {place : Place}

/-- A record reduced to its outline. -/
def blank : Record → Record
  | .program _ => .program {}
  | .module _ => .module {}
  | .entry e => .entry e.blank
  | .constructor _ => .constructor {}
  | .method _ => .method {}
  | .property _ => .property {}
  | .parameter _ => .parameter {}

/-- The record without identifier and with all children reduced to their outlines. -/
def surface : Record → Record
  | .program p => .program { modules := p.modules.map fun _ _ => {} }
  | .module m => .module { m with id := .unassigned, entries := m.entries.map Entry.blank }
  | .class c => .class { c with
      id := .unassigned
      properties := c.properties.map fun _ => {}
      methods := c.methods.map fun _ => {}
      constructor := c.constructor.map fun _ => {} }
  | .interface i => .interface { i with
      id := .unassigned
      properties := i.properties.map fun _ => {}
      methods := i.methods.map fun _ => {} }
  | .variable v => .variable { v with id := .unassigned }
  | .function f => .function { f with
      id := .unassigned
      parameters := f.parameters.map fun _ => {} }
  | .constructor k => .constructor { parameters := k.parameters.map fun _ => {} }
  | .method m => .method { m with
      id := .unassigned
      parameters := m.parameters.map fun _ => {} }
  | .property p => .property { p with id := .unassigned }
  | .parameter p => .parameter { p with id := .unassigned }

theorem blank_congr (h : r'.outline = r.outline) : r'.blank = r.blank := by
  have hkind := kind_eq_of_outline_eq h
  rcases r with _ | _ | e | _ | _ | _ | _ <;> rcases r' with _ | _ | e' | _ | _ | _ | _
  case entry.entry =>
    obtain ⟨-, hname, hhandle⟩ := Outline.mk.inj h
    cases e <;> cases e'
    case class.class => simp only [blank, Entry.blank, hname, hhandle]
    case interface.interface => simp only [blank, Entry.blank, hname, hhandle]
    case variable.variable => rfl
    case function.function => rfl
    all_goals cases hkind
  all_goals
    first
    | rfl
    | cases hkind
    | cases e <;> cases hkind
    | cases e' <;> cases hkind

@[simp] theorem outline_withId (id : EntityId) (r : Record) : (r.withId id).outline = r.outline := by
  rcases r with _ | _ | e | _ | _ | _ | _
  case entry => cases e <;> rfl
  all_goals rfl

theorem blank_withId (id : EntityId) (r : Record) : (r.withId id).blank = r.blank :=
  blank_congr (outline_withId id r)

/-! ### Children -/

theorem put_self (h : r.child? slot = some child) : r.put slot child = r := by
  rcases r with _ | _ | e | _ | _ | _ | _
  case entry =>
    cases e <;> cases slot <;> simp [child?] at h <;> obtain ⟨x, hx, rfl⟩ := h <;>
      simp [put, fillAt_self, Parameters.insert_self, hx]
    rw [← hx]
  all_goals
    cases slot <;> simp [child?] at h <;> obtain ⟨x, hx, rfl⟩ := h <;>
      simp [put, fillAt_self, Parameters.insert_self, insert_self_of_getElem?, hx]

theorem child?_surface (r : Record) (slot : Slot) :
    r.surface.child? slot = (r.child? slot).map blank := by
  rcases r with _ | _ | e | _ | _ | _ | _
  case entry =>
    cases e <;> cases slot <;>
      simp only [child?, surface, List.getElem?_map, Parameters.get?_map, Option.map_map,
        Option.map_none] <;> rfl
  all_goals
    cases slot <;>
      simp only [child?, surface, Std.ExtTreeMap.getElem?_map, List.getElem?_map,
        Parameters.get?_map, Option.map_map, Option.map_none] <;> rfl

theorem surface_put (r : Record) (slot : Slot) (child : Record) :
    (r.put slot child).surface = r.surface.put slot child.blank := by
  rcases r with _ | _ | e | _ | _ | _ | _
  case entry =>
    cases e <;> cases slot <;> cases child <;>
      simp [put, surface, map_fillAt_map, Parameters.map_insert, blank]
  all_goals
    cases slot <;> cases child <;>
      simp [put, surface, map_fillAt_map, Parameters.map_insert, map_insert_map, blank]

theorem shallow_surface : Shallow surface := by
  intro r slot child child' hchild houtline
  rw [surface_put, blank_congr houtline]
  exact put_self (by rw [child?_surface, hchild, Option.map_some])

/-! ### What steps ask -/

theorem outline_blank (r : Record) : r.blank.outline = r.outline := by
  rcases r with _ | _ | e | _ | _ | _ | _
  case entry =>
    cases e with
    | «class» c =>
      by_cases hname : c.name.isEmpty <;>
        simp [outline, blank, Entry.blank, Entry.kind, Entry.typeName?, Entry.handle?, hname]
    | interface i =>
      by_cases hname : i.name.isEmpty <;>
        simp [outline, blank, Entry.blank, Entry.kind, Entry.typeName?, Entry.handle?, hname]
    | _ => rfl
  all_goals rfl

@[simp] theorem outline_surface (r : Record) : r.surface.outline = r.outline := by
  rcases r with _ | _ | e | _ | _ | _ | _
  case entry => cases e <;> rfl
  all_goals rfl

@[simp] theorem kind_surface (r : Record) : r.surface.kind = r.kind :=
  kind_eq_of_outline_eq (outline_surface r)

@[simp] theorem slotFor?_surface (r : Record) (d : Declaration) :
    r.surface.slotFor? d = r.slotFor? d := by
  rcases r with _ | _ | e | _ | _ | _ | _
  case entry => cases e <;> cases d <;> simp [surface, slotFor?]
  all_goals cases d <;> simp [surface, slotFor?]

@[simp] theorem read?_surface (r : Record) (a : Attribute) : r.surface.read? a = r.read? a := by
  rcases r with _ | _ | e | _ | _ | _ | _
  case entry => cases e <;> cases a <;> rfl
  all_goals cases a <;> rfl

@[simp] theorem typeParameters?_surface (r : Record) :
    r.surface.typeParameters? = r.typeParameters? := by
  rcases r with _ | _ | e | _ | _ | _ | _
  case entry => cases e <;> rfl
  all_goals rfl

@[simp] theorem declared?_surface (r : Record) (name : String) :
    r.surface.declared? name = r.declared? name := by
  rcases Decidable.em (r.kind = .module) with hkind | hkind
  · obtain ⟨m, rfl⟩ := exists_eq_module hkind
    have hentries : (m.entries.map Entry.blank).map (outline ∘ .entry) =
        m.entries.map (outline ∘ .entry) := by
      rw [List.map_map]
      exact List.map_congr_left fun e _ => outline_blank (.entry e)
    exact congrFun (Module.nominal?_congr hentries) name
  · rw [declared?_of_kind_ne_module hkind, declared?_of_kind_ne_module (by rwa [kind_surface]),
      typeParameters?_surface]

/-! ### What steps do -/

theorem surface_withId_bare (d : Declaration) (handle : Option TypeHandle) (id : EntityId) :
    ((d.bare handle).withId id).surface = d.bare handle := by
  cases d <;> rfl

theorem write?_surface (r : Record) (a : Attribute) (x : Option a.Value) :
    (r.write? a x).map surface = r.surface.write? a x := by
  rcases r with _ | _ | e | _ | _ | _ | _
  case entry => cases e <;> cases a <;> rfl
  all_goals cases a <;> rfl

theorem revise?_surface (r : Record) (lookup : String → Option TypeHandle) (step : Step) :
    (r.revise? lookup step).map surface = r.surface.revise? lookup step := by
  cases step with
  | set a value =>
    rw [revise?, revise?]
    cases value.filter a.isPresent with
    | none => rfl
    | some value => exact write?_surface r a _
  | _ =>
    rcases r with _ | _ | e | _ | _ | _ | _
    case entry => cases e <;> rfl
    all_goals rfl

theorem withTypeParameters?_surface (r : Record) (handles : Option (List TypeHandle)) :
    (r.withTypeParameters? handles).map surface = r.surface.withTypeParameters? handles := by
  rcases r with _ | _ | e | _ | _ | _ | _
  case entry => cases e <;> rfl
  all_goals rfl

/-! ## 3. Surfaces say it all -/

theorem eq_of_surface_eq (hsurface : a.surface = b.surface) (hid : a.id = b.id)
    (hchildren : ∀ slot, a.child? slot = b.child? slot) : a = b := by
  have hlist : ∀ {α : Type} {f : α → Record} {xs ys : List α}, Function.Injective f →
      (∀ i, xs[i]?.map f = ys[i]?.map f) → xs = ys :=
    fun hf h => List.ext_getElem? fun i => Option.map_injective hf (h i)
  have hparameters : ∀ {ps qs : Parameters},
      (∀ i, (ps.get? i).map parameter = (qs.get? i).map parameter) → ps = qs :=
    fun h => Parameters.ext fun i => Option.map_injective (fun _ _ => parameter.inj) (h i)
  have hkind : a.kind = b.kind := by rw [← kind_surface, hsurface, kind_surface]
  rcases a with p | m | e | k | m | p | p <;> rcases b with p' | m' | e' | k' | m' | p' | p'
  case program.program =>
    have hmodules : p.modules = p'.modules := Std.ExtTreeMap.ext_getElem? fun path =>
      Option.map_injective (fun _ _ => module.inj) (hchildren (.module path))
    cases p; cases p'
    simp_all [id]
  case module.module =>
    have hentries := hlist (fun _ _ => entry.inj) fun i => hchildren (.entry i)
    cases m; cases m'
    simp_all [surface, id]
  case constructor.constructor =>
    have hps := hparameters fun i => hchildren (.parameter i)
    cases k; cases k'
    simp_all [id]
  case method.method =>
    have hps := hparameters fun i => hchildren (.parameter i)
    cases m; cases m'
    simp_all [surface, id]
  case property.property =>
    cases p; cases p'
    simp_all [surface, id]
  case parameter.parameter =>
    cases p; cases p'
    simp_all [surface, id]
  case entry.entry =>
    cases e <;> cases e'
    case class.class c c' =>
      have hproperties := hlist (fun _ _ => property.inj) fun i => hchildren (.property i)
      have hmethods := hlist (fun _ _ => method.inj) fun i => hchildren (.method i)
      have hconstructor : c.constructor = c'.constructor :=
        Option.map_injective (fun _ _ => constructor.inj) (hchildren .constructor)
      cases c; cases c'
      simp_all [surface, id, Entry.id]
    case interface.interface i i' =>
      have hproperties := hlist (fun _ _ => property.inj) fun i => hchildren (.property i)
      have hmethods := hlist (fun _ _ => method.inj) fun i => hchildren (.method i)
      cases i; cases i'
      simp_all [surface, id, Entry.id]
    case variable.variable v v' =>
      cases v; cases v'
      simp_all [surface, id, Entry.id]
    case function.function f f' =>
      have hps := hparameters fun i => hchildren (.parameter i)
      cases f; cases f'
      simp_all [surface, id, Entry.id]
    all_goals cases hkind
  all_goals
    first
    | cases hkind
    | cases e <;> cases hkind
    | cases e' <;> cases hkind

/-- How many records can stand below one another in a record. -/
def height : Record → Nat
  | .program _ => 4
  | .module _ => 3
  | .entry _ => 2
  | .constructor _ | .method _ => 1
  | .property _ | .parameter _ => 0

theorem height_lt_of_child? (h : r.child? slot = some child) : child.height < r.height := by
  rcases r with _ | _ | e | _ | _ | _ | _
  case entry =>
    cases e <;> cases slot <;> simp [child?] at h <;> obtain ⟨_, -, rfl⟩ := h <;> simp [height]
  all_goals cases slot <;> simp [child?] at h <;> obtain ⟨_, -, rfl⟩ := h <;> simp [height]

/-- **Two roots with the same surfaces and identifiers at all places are the same.** -/
theorem eq_of_view_surface_eq (hsurface : ∀ place, a.view surface place = b.view surface place)
    (hid : ∀ place, a.view id place = b.view id place) : a = b := by
  induction hheight : a.height using Nat.strongRecOn generalizing a b with
  | _ height ih =>
    subst hheight
    apply eq_of_surface_eq (Option.some.inj (hsurface [])) (Option.some.inj (hid []))
    intro slot
    have hbelow : ∀ {α : Type} {f : Record → α}, (∀ place, a.view f place = b.view f place) →
        ∀ rest, ((a.child? slot).bind fun child => child.view f rest) =
          (b.child? slot).bind fun child => child.view f rest := by
      intro α f hview rest
      rw [← view_cons, ← view_cons, hview]
    cases ha : a.child? slot with
    | none =>
      have hnone := hbelow hsurface []
      rw [ha, Option.bind_none] at hnone
      cases hb : b.child? slot with
      | none => rfl
      | some child' => rw [hb] at hnone; cases hnone
    | some child =>
      cases hb : b.child? slot with
      | none =>
        have hnone := hbelow hsurface []
        rw [ha, hb] at hnone
        cases hnone
      | some child' =>
        have hsurfaces := hbelow hsurface
        have hids := hbelow hid
        rw [ha, hb] at hsurfaces hids
        rw [ih child.height (height_lt_of_child? ha) hsurfaces hids rfl]

end Record

end Declarations
