/-
  Declarations/Proofs/Record/Attributes.lean
  ==========================================
  **Attributes and everything else of a record.**

  An attribute is written without regard to the others: writing back the old value gives
  the old record (`write?_restores`), and writes to two attributes can be exchanged
  (`write?_comm`).

  What a record is by its attributes, only `set` changes.  A reading that children, type
  parameters, imports, exports and lists of interfaces do not enter is `Record.Settled`:
  each single attribute is one, and a parameter is one as a whole.
-/
import Declarations.Proofs.Record.Declaring
import Declarations.Proofs.Session.Readings

namespace Declarations

open Session

namespace Record

variable {α : Type} {f : Record → α} {r r' : Record} {a b : Attribute}

/-! ## 1. Writing -/

theorem write?_self {old : Option a.Value} (h : r.read? a = some old) :
    r.write? a old = some r := by
  rcases r with _ | _ | e | _ | _ | _ | _
  case entry => cases e <;> cases a <;> simp [read?] at h <;> subst h <;> rfl
  all_goals cases a <;> simp [read?] at h <;> subst h <;> rfl

/-- A write changes nothing but the attribute: with the old value it is the old record. -/
theorem write?_restores {x old : Option a.Value} (hread : r.read? a = some old)
    (hwrite : r.write? a x = some r') : r'.write? a old = some r := by
  rw [write?_of_write? hwrite, write?_self hread]

theorem write?_comm (hne : a ≠ b) (r : Record) (x : Option a.Value) (y : Option b.Value) :
    (r.write? a x).bind (·.write? b y) = (r.write? b y).bind (·.write? a x) := by
  rcases r with _ | _ | e | _ | _ | _ | _
  case entry => cases e <;> cases a <;> cases b <;> first | rfl | exact absurd rfl hne
  all_goals cases a <;> cases b <;> first | rfl | exact absurd rfl hne

theorem exists_write? {old : Option a.Value} (h : r.read? a = some old) (x : Option a.Value) :
    ∃ r', r.write? a x = some r' := by
  rw [← Option.isSome_iff_exists, isSome_write?, h]
  rfl

/-! ## 2. Readings that only `set` changes -/

/-- A reading that children, type parameters and lists do not enter, nor the identifier of
    a module. -/
structure Settled (f : Record → α) : Prop where
  put (r : Record) (slot : Slot) (child : Record) : f (r.put slot child) = f r
  moduleId (m : Module) (id : EntityId) : f (.module { m with id }) = f (.module m)
  typeParameters {r r' : Record} {handles : Option (List TypeHandle)} :
    r.withTypeParameters? handles = some r' → f r' = f r
  revise {r r' : Record} {lookup : String → Option TypeHandle} {step : Step} : isEdit step →
    r.revise? lookup step = some r' → f r' = f r

theorem Settled.own (h : Settled f) : Own f := ⟨h.put, h.moduleId⟩

theorem settled_read? (a : Attribute) : Settled (·.read? a) := by
  constructor
  case put =>
    intro r slot child
    unfold Record.put
    split <;> cases a <;> rfl
  case moduleId => exact fun _ _ => by cases a <;> rfl
  case typeParameters =>
    intro r r' handles h
    rcases r with _ | _ | e | _ | _ | _ | _
    case entry => cases e <;> simp [withTypeParameters?] at h <;> subst h <;> cases a <;> rfl
    case method => simp [withTypeParameters?] at h; subst h; cases a <;> rfl
    all_goals simp [withTypeParameters?] at h
  case revise =>
    intro r r' lookup step hedit h
    unfold revise? at h
    split at h
    case h_3 => cases hedit
    case h_6 => cases h
    all_goals
      obtain rfl := Option.some.inj h
      cases a <;> rfl

/-- The record as a parameter, if it is one. -/
def asParameter? : Record → Option Parameter
  | .parameter p => some p
  | _ => none

theorem asParameter?_eq_some_iff {p : Parameter} : r.asParameter? = some p ↔ r = .parameter p := by
  cases r <;> simp [asParameter?]

theorem settled_asParameter? : Settled asParameter? := by
  constructor
  case put =>
    intro r slot child
    unfold Record.put
    split <;> rfl
  case moduleId => exact fun _ _ => rfl
  case typeParameters =>
    intro r r' handles h
    rcases r with _ | _ | e | _ | _ | _ | _
    case entry => cases e <;> simp [withTypeParameters?] at h <;> subst h <;> rfl
    case method => simp [withTypeParameters?] at h; subst h; rfl
    all_goals simp [withTypeParameters?] at h
  case revise =>
    intro r r' lookup step hedit h
    unfold revise? at h
    split at h
    case h_3 => cases hedit
    case h_6 => cases h
    all_goals
      obtain rfl := Option.some.inj h
      rfl

end Record

end Declarations
