/-
  Declarations/Handle.lean
  ========================
  **The identity of a declared type.**

  A handle stands for one declared type.  It carries the number it was minted
  with, which is its identity, and a display name, which is for diagnostics
  only: two types may share a display name.  So `==` on handles, and with it
  `==` on everything that holds a handle, compares the numbers and nothing else.
-/
import Declarations.Text.Quoted
import Std.Data.HashSet

namespace Declarations

/-- A declared type: its identity and the name that it is shown under. -/
structure TypeHandle where
  id : Nat
  display : String
deriving DecidableEq, Repr, Inhabited

namespace TypeHandle

instance : BEq TypeHandle := ⟨fun a b => a.id == b.id⟩

instance : Hashable TypeHandle := ⟨fun handle => hash handle.id⟩

instance : ToString TypeHandle := ⟨display⟩

/-- Identity is equality of the numbers. -/
theorem beq_iff_id_eq {a b : TypeHandle} : (a == b) = true ↔ a.id = b.id := by
  change (a.id == b.id) = true ↔ _
  exact beq_iff_eq

instance : EquivBEq TypeHandle where
  rfl := beq_iff_id_eq.2 rfl
  symm h := beq_iff_id_eq.2 (beq_iff_id_eq.1 h).symm
  trans h k := beq_iff_id_eq.2 ((beq_iff_id_eq.1 h).trans (beq_iff_id_eq.1 k))

instance : LawfulHashable TypeHandle where
  hash_eq a b h := by
    change hash a.id = hash b.id
    rw [beq_iff_id_eq.1 h]

/-- How messages show a handle: number and quoted display name. -/
def describe (handle : TypeHandle) : String :=
  "TypeHandle(#" ++ toString handle.id ++ " " ++ Text.quote handle.display ++ ")"

/-- How many types a list of handles stands for. -/
def countDistinct (handles : List TypeHandle) : Nat := (Std.HashSet.ofList handles).size

end TypeHandle

end Declarations
