/-
  Declarations/Proofs/Record/Declaring.lean
  =========================================
  **What a declaration finds in the record that takes it.**

  A record takes a declaration in a slot for records of the declared kind, if it
  takes it at all.  Such a slot is empty or new, but for those of a constructor
  and of a parameter, which are opened again instead.  What is put there has no
  children yet.
-/
import Declarations.Record.Declaration
import Declarations.Proofs.Record.View

namespace Declarations

namespace Record

variable {owner child : Record} {slot : Slot} {d : Declaration}

theorem hasSlot_of_slotFor? (h : owner.slotFor? d = some slot) : owner.HasSlot slot := by
  rcases owner with _ | _ | e | _ | _ | _ | _
  case entry => cases e <;> cases d <;> simp [slotFor?] at h <;> subst h <;> simp [HasSlot]
  all_goals cases d <;> simp [slotFor?] at h <;> subst h <;> simp [HasSlot]

theorem isFor_of_slotFor? (h : owner.slotFor? d = some slot) : slot.isFor d.kind := by
  rcases owner with _ | _ | e | _ | _ | _ | _
  case entry => cases e <;> cases d <;> simp [slotFor?] at h <;> subst h <;> rfl
  all_goals cases d <;> simp [slotFor?] at h <;> subst h <;> rfl

theorem accepts_of_slotFor? (h : owner.slotFor? d = some slot) (hkind : child.kind = d.kind) :
    slot.accepts child := by
  rw [Slot.accepts_eq_isFor, hkind]
  exact isFor_of_slotFor? h

/-- Only the slots of a constructor and of a parameter can be taken. -/
theorem kind_of_slotFor?_of_child? (h : owner.slotFor? d = some slot)
    (hchild : owner.child? slot = some child) :
    child.kind = d.kind ∧ (d.kind = .constructor ∨ d.kind = .parameter) := by
  have haccepts := accepts_of_child? hchild
  rw [Slot.accepts_eq_isFor] at haccepts
  rcases owner with _ | _ | e | _ | _ | _ | _
  case entry =>
    cases e <;> cases d <;> simp [slotFor?] at h <;> subst h <;>
      simp_all [child?, Slot.isFor, Declaration.kind]
  all_goals
    cases d <;> simp [slotFor?] at h <;> subst h <;>
      simp_all [child?, Slot.isFor, Declaration.kind]

/-- A taken slot is for a record that declares no type and opens no scope. -/
theorem opens_nothing_of_child? (h : owner.slotFor? d = some slot)
    (hchild : owner.child? slot = some child) :
    d.typeName? = none ∧ d.kind.opensScope = false := by
  obtain ⟨-, hkind⟩ := kind_of_slotFor?_of_child? h hchild
  cases d <;> simp [Declaration.kind] at hkind <;> exact ⟨rfl, rfl⟩

theorem kind_ne_of_slotFor?_of_child? (h : owner.slotFor? d = some slot)
    (hchild : owner.child? slot = some child) : owner.kind ≠ .program ∧ owner.kind ≠ .module := by
  rcases owner with p | m | e | k | m | p | p
  case program => simp [slotFor?] at h
  case module => cases d <;> simp [slotFor?] at h <;> subst h <;> simp [child?] at hchild
  case entry => cases e <;> exact ⟨by simp [kind, Entry.kind], by simp [kind, Entry.kind]⟩
  all_goals exact ⟨by simp [kind], by simp [kind]⟩

/-- No module is declared: it is opened. -/
theorem concat_ne_module_of_slotFor? (h : owner.slotFor? d = some slot) (place : Place)
    (path : String) : place ++ [slot] ≠ [.module path] := by
  intro hplace
  obtain ⟨-, rfl⟩ : place = [] ∧ slot = .module path := by
    simpa [List.append_eq_singleton_iff] using hplace
  have hkind : d.kind = .module := of_decide_eq_true (isFor_of_slotFor? h)
  cases d <;> cases hkind

theorem child?_withId_bare (d : Declaration) (handle : Option TypeHandle) (id : EntityId)
    (slot : Slot) : ((d.bare handle).withId id).child? slot = none := by
  cases d <;> cases slot <;>
    simp [Declaration.bare, withId, child?, Class.named, Interface.named, Function.named,
      Method.named]

/-- What is declared in a record of a root is then found there. -/
theorem get?_declared {root : Record} {place : Place} (howner : root.get? place = some owner)
    (hslot : owner.slotFor? d = some slot) (handle : Option TypeHandle) (id : EntityId) :
    (root.replace place (owner.put slot ((d.bare handle).withId id))).get? (place ++ [slot]) =
      some ((d.bare handle).withId id) := by
  rw [get?_concat (get?_replace howner (outline_put _ _ _)), child?_put (hasSlot_of_slotFor? hslot)
    (accepts_of_slotFor? hslot (by simp)), if_pos rfl]

theorem withTypeParameters?_keeps {r r' : Record} {handles : Option (List TypeHandle)}
    (h : r.withTypeParameters? handles = some r') : r'.outline = r.outline ∧ r'.id = r.id ∧
      r'.child? = r.child? ∧ r'.typeParameters? = some handles := by
  refine ⟨?_, ?_, ?_, typeParameters?_of_withTypeParameters? h⟩
  all_goals
    rcases r with _ | _ | e | _ | _ | _ | _
    case entry =>
      cases e <;> simp [withTypeParameters?] at h <;> subst h <;>
        first | rfl | exact funext fun slot => by cases slot <;> rfl
    all_goals
      simp [withTypeParameters?] at h <;> subst h <;>
        first | rfl | exact funext fun slot => by cases slot <;> rfl

end Record

/-- A declaration belongs to the record at hand, or to the class around a
    constructor. -/
theorem Declaration.ownerPlace_cases (d : Declaration) (place : Place) :
    d.ownerPlace place = place ∨ place = d.ownerPlace place ++ [.constructor] := by
  unfold ownerPlace
  split
  next hlast =>
    obtain ⟨front, rfl⟩ := List.getLast?_eq_some_iff.mp hlast
    exact Or.inr (by rw [List.dropLast_concat])
  next => exact Or.inl rfl

end Declarations
