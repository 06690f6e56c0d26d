/-
  Declarations/Proofs/Record/Handles.lean
  =======================================
  **The handles in a record.**

  A record holds handles by itself, that of the type that it declares, those of its type
  parameters and those in its references (`Record.ownHandles`), and so does every record
  in it.  The list of all of them follows the nesting of the records (`Record.handles`),
  and they are the ones found at the places of the record
  (`mem_handles_iff_exists_place`).
-/
import Declarations.Proofs.Record.References
import Declarations.Proofs.Record.Surface

namespace Declarations

/-! ## 1. Inventories -/

def Parameter.handles (p : Parameter) : List TypeHandle :=
  p.type.toList.flatMap TypeReference.handles

def Parameters.handles (ps : Parameters) : List TypeHandle :=
  ps.byIndex.toList.flatMap fun slot => slot.2.handles

def Property.handles (p : Property) : List TypeHandle :=
  p.type.toList.flatMap TypeReference.handles

def Method.handles (m : Method) : List TypeHandle :=
  m.typeParameters.getD [] ++ m.returnType.toList.flatMap TypeReference.handles ++
    m.parameters.handles

def Constructor.handles (k : Constructor) : List TypeHandle := k.parameters.handles

def Variable.handles (v : Variable) : List TypeHandle :=
  v.type.toList.flatMap TypeReference.handles

def Function.handles (f : Function) : List TypeHandle :=
  f.typeParameters.getD [] ++ f.returnType.toList.flatMap TypeReference.handles ++
    f.parameters.handles

def Class.handles (c : Class) : List TypeHandle :=
  c.handle.toList ++ c.typeParameters.getD [] ++
    c.superclass.toList.flatMap TypeReference.handles ++
    (c.implemented.getD []).flatMap TypeReference.handles ++
    c.properties.flatMap Property.handles ++ c.methods.flatMap Method.handles ++
    c.constructor.toList.flatMap Constructor.handles

def Interface.handles (i : Interface) : List TypeHandle :=
  i.handle.toList ++ i.typeParameters.getD [] ++
    (i.extended.getD []).flatMap TypeReference.handles ++
    i.properties.flatMap Property.handles ++ i.methods.flatMap Method.handles

def Entry.handles : Entry → List TypeHandle
  | .class c => c.handles
  | .interface i => i.handles
  | .variable v => v.handles
  | .function f => f.handles

def Module.handles (m : Module) : List TypeHandle := m.entries.flatMap Entry.handles

def Program.handles (p : Program) : List TypeHandle :=
  p.modules.toList.flatMap fun known => known.2.handles

namespace Record

/-- All handles in a record and in the records in it. -/
def handles : Record → List TypeHandle
  | .program p => p.handles
  | .module m => m.handles
  | .entry e => e.handles
  | .constructor k => k.handles
  | .method m => m.handles
  | .property p => p.handles
  | .parameter p => p.handles

/-- The handles that a record holds by itself. -/
def ownHandles (r : Record) : List TypeHandle :=
  r.outline.handle?.toList ++ r.typeParameters?.join.getD [] ++
    r.references.flatMap TypeReference.handles

variable {r r' root child : Record} {slot : Slot} {h : TypeHandle} {place : Place}

/-! ## 2. In slots -/

theorem ownHandles_put (r : Record) (slot : Slot) (child : Record) :
    (r.put slot child).ownHandles = r.ownHandles := by
  rw [ownHandles, ownHandles, outline_put, typeParameters?_put, references_put]

theorem shallow_ownHandles : Shallow ownHandles := fun _ _ _ _ _ _ => ownHandles_put _ _ _

/-- A slot is of one of six sorts. -/
theorem exists_slot_iff {p : Slot → Prop} : (∃ slot, p slot) ↔ (∃ path, p (.module path)) ∨
    (∃ i, p (.entry i)) ∨ p .constructor ∨ (∃ i, p (.method i)) ∨ (∃ i, p (.property i)) ∨
    ∃ i, p (.parameter i) := by
  constructor
  · rintro ⟨slot, hslot⟩
    cases slot with
    | module path => exact Or.inl ⟨path, hslot⟩
    | entry i => exact Or.inr (Or.inl ⟨i, hslot⟩)
    | constructor => exact Or.inr (Or.inr (Or.inl hslot))
    | method i => exact Or.inr (Or.inr (Or.inr (Or.inl ⟨i, hslot⟩)))
    | property i => exact Or.inr (Or.inr (Or.inr (Or.inr (Or.inl ⟨i, hslot⟩))))
    | parameter i => exact Or.inr (Or.inr (Or.inr (Or.inr (Or.inr ⟨i, hslot⟩))))
  · rintro (⟨_, hslot⟩ | ⟨_, hslot⟩ | hslot | ⟨_, hslot⟩ | ⟨_, hslot⟩ | ⟨_, hslot⟩) <;>
      exact ⟨_, hslot⟩

theorem exists_getElem?_iff {α : Type} {xs : List α} {p : α → Prop} :
    (∃ (i : Nat) (x : α), xs[i]? = some x ∧ p x) ↔ ∃ x ∈ xs, p x := by
  simp only [List.mem_iff_getElem?]
  exact ⟨fun ⟨i, x, hi, hx⟩ => ⟨x, ⟨i, hi⟩, hx⟩, fun ⟨x, ⟨i, hi⟩, hx⟩ => ⟨i, x, hi, hx⟩⟩

theorem mem_handles_parameters {ps : Parameters} :
    h ∈ ps.handles ↔ ∃ i p, ps.get? i = some p ∧ h ∈ p.handles := by
  rw [Parameters.handles, List.mem_flatMap]
  simp only [Prod.exists, Std.ExtTreeMap.mem_toList_iff_getElem?_eq_some]
  rfl

theorem mem_handles_program {p : Program} :
    h ∈ p.handles ↔ ∃ (path : String) (m : Module), p.modules[path]? = some m ∧ h ∈ m.handles := by
  rw [Program.handles, List.mem_flatMap]
  simp only [Prod.exists, Std.ExtTreeMap.mem_toList_iff_getElem?_eq_some]

/-- A handle in a record is one that it holds by itself, or one in a child. -/
theorem mem_handles_iff : h ∈ r.handles ↔
    h ∈ r.ownHandles ∨ ∃ slot child, r.child? slot = some child ∧ h ∈ child.handles := by
  rw [exists_slot_iff]
  rcases r with _ | _ | e | _ | _ | _ | _
  case entry =>
    cases e <;>
      simp [handles, Entry.handles, Class.handles, Interface.handles, Variable.handles,
        Function.handles, ownHandles, outline, Entry.handle?, typeParameters?, references, child?,
        mem_handles_parameters, exists_getElem?_iff] <;>
      grind
  case method =>
    simp [handles, Method.handles, ownHandles, outline, typeParameters?, references, child?,
      mem_handles_parameters, or_assoc]
  all_goals
    simp [handles, mem_handles_program, Module.handles, Constructor.handles, Property.handles,
      Parameter.handles, mem_handles_parameters, ownHandles, outline, typeParameters?, references,
      child?, exists_getElem?_iff]

/-! ## 3. At places -/

/-- **The handles in a record are those that the records at its places hold by
    themselves.** -/
theorem mem_handles_iff_exists_place : h ∈ root.handles ↔
    ∃ place r, root.get? place = some r ∧ h ∈ r.ownHandles := by
  constructor
  · intro hmem
    induction hheight : root.height using Nat.strongRecOn generalizing root with
    | _ height ih =>
      subst hheight
      rcases mem_handles_iff.mp hmem with hown | ⟨slot, child, hchild, hmem⟩
      · exact ⟨[], root, get?_nil root, hown⟩
      · obtain ⟨place, r, hget, hown⟩ := ih _ (height_lt_of_child? hchild) hmem rfl
        exact ⟨slot :: place, r, by rw [get?_cons, hchild, Option.bind_some, hget], hown⟩
  · rintro ⟨place, r, hget, hown⟩
    induction place generalizing root with
    | nil =>
      obtain rfl := Option.some.inj hget
      exact mem_handles_iff.mpr (Or.inl hown)
    | cons slot rest ih =>
      obtain ⟨child, hchild, hrest⟩ := Option.bind_eq_some_iff.mp hget
      exact mem_handles_iff.mpr (Or.inr ⟨slot, child, hchild, ih hrest⟩)

theorem mem_handles_of_get? (hget : root.get? place = some r) (hmem : h ∈ r.ownHandles) :
    h ∈ root.handles :=
  mem_handles_iff_exists_place.mpr ⟨place, r, hget, hmem⟩

/-- A handle in a record after a change at one place was there before, or is held there. -/
theorem mem_handles_of_update {root' : Record} {list : List TypeHandle}
    (hview : root'.view ownHandles = Function.update (root.view ownHandles) place (some list))
    (hmem : h ∈ root'.handles) : h ∈ root.handles ∨ h ∈ list := by
  obtain ⟨q, r, hget, hown⟩ := mem_handles_iff_exists_place.mp hmem
  have hq : root'.view ownHandles q = some r.ownHandles := view_eq_some_iff.mpr ⟨r, hget, rfl⟩
  rw [hview] at hq
  rcases Place.update_eq_some_iff.mp hq with ⟨-, rfl⟩ | ⟨-, hq⟩
  · exact Or.inr hown
  · obtain ⟨x, hx, heq⟩ := view_eq_some_iff.mp hq
    exact Or.inl (mem_handles_of_get? hx (heq ▸ hown))

end Record

end Declarations
