/-
  Declarations/Record/Parameter.lean
  ==================================
  **Parameters and the sparse tables that hold them.**

  A callable has its parameters by position.  They may be declared in any order
  and with holes, and the positions may be very large, so the table keeps only
  what was declared; what a hole means is for the reader of the table to say.

  The views agree: `slots` lists the positions up to the highest one with
  `none` in the holes, `toList` drops the holes, and `hasGaps` tells whether
  there are any by comparing the highest position with the number declared,
  since without a hole the positions are `0, …, size - 1`.
-/
import Declarations.Lineage
import Declarations.Reference
import Std.Data.ExtTreeMap

namespace Declarations

/-- A parameter.  `index` is its position, and where the library itself made
    the parameter also its key in the table that holds it. -/
structure Parameter where
  id : EntityId := .unassigned
  index : Nat := 0
  name : Option String := none
  type : Option TypeReference := none
  isRest : Option Bool := none
  isOptional : Option Bool := none
deriving BEq, Repr, Inhabited

/-- A parameter of which only the position is known. -/
def Parameter.ofIndex (index : Nat) : Parameter := { index }

/-- Parameters by position. -/
structure Parameters where
  byIndex : Std.ExtTreeMap Nat Parameter := ∅
deriving BEq, Inhabited

namespace Parameters

instance : EmptyCollection Parameters := ⟨{}⟩

/-- The parameter at a position. -/
def get? (ps : Parameters) (index : Nat) : Option Parameter := ps.byIndex[index]?

/-- Put a parameter at a position, in place of any other. -/
def insert (ps : Parameters) (index : Nat) (parameter : Parameter) : Parameters :=
  ⟨ps.byIndex.insert index parameter⟩

/-- Change the parameter at a position, if there is one. -/
def modify (ps : Parameters) (index : Nat) (change : Parameter → Parameter) : Parameters :=
  match ps.get? index with
  | some parameter => ps.insert index (change parameter)
  | none => ps

/-- The parameter at a position.  In a hole, `create` is put there first. -/
def getOrInsert (ps : Parameters) (index : Nat) (create : Parameter) : Parameter × Parameters :=
  match ps.get? index with
  | some parameter => (parameter, ps)
  | none => (create, ps.insert index create)

/-- The declared parameters, by ascending position. -/
def toList (ps : Parameters) : List Parameter := ps.byIndex.values

/-- The number of declared parameters. -/
def size (ps : Parameters) : Nat := ps.byIndex.size

/-- Whether no parameter is declared. -/
def isEmpty (ps : Parameters) : Bool := ps.byIndex.isEmpty

/-- The highest declared position. -/
def highestIndex? (ps : Parameters) : Option Nat := ps.byIndex.maxKey?

/-- The number of slots: one more than the highest declared position. -/
def slotCount (ps : Parameters) : Nat := (ps.highestIndex?.map (· + 1)).getD 0

/-- The slots from position 0 on, `none` for a hole, at most `limit` of them. -/
def firstSlots (ps : Parameters) (limit : Nat) : List (Option Parameter) :=
  (List.range (min limit ps.slotCount)).map ps.get?

/-- Every slot from position 0 through the highest declared one. -/
def slots (ps : Parameters) : List (Option Parameter) := (List.range ps.slotCount).map ps.get?

/-- Whether a position below the highest one is a hole. -/
def hasGaps (ps : Parameters) : Bool := ps.highestIndex?.any fun highest => ps.size ≤ highest

/-! ### What one operation does to the view `get?` -/

@[simp]
theorem get?_empty (index : Nat) : (∅ : Parameters).get? index = none := by
  change (∅ : Std.ExtTreeMap Nat Parameter)[index]? = none
  simp

theorem get?_insert (ps : Parameters) (index other : Nat) (parameter : Parameter) :
    (ps.insert index parameter).get? other =
      if index = other then some parameter else ps.get? other := by
  simp [get?, insert, Std.ExtTreeMap.getElem?_insert]

theorem get?_modify (ps : Parameters) (index other : Nat) (change : Parameter → Parameter) :
    (ps.modify index change).get? other =
      if index = other then (ps.get? other).map change else ps.get? other := by
  unfold modify
  cases h : ps.get? index with
  | none =>
    by_cases same : index = other
    · subst same; simp [h]
    · simp [same]
  | some parameter =>
    by_cases same : index = other
    · subst same; simp [get?_insert, h]
    · simp [get?_insert, same]

theorem get?_getOrInsert (ps : Parameters) (index other : Nat) (create : Parameter) :
    (ps.getOrInsert index create).2.get? other =
      if index = other then some ((ps.get? other).getD create) else ps.get? other := by
  unfold getOrInsert
  cases h : ps.get? index with
  | none =>
    by_cases same : index = other
    · subst same; simp [get?_insert, h]
    · simp [get?_insert, same]
  | some parameter =>
    by_cases same : index = other
    · subst same; simp [h]
    · simp [same]

/-- A bounded reading of the slots is the beginning of the full one. -/
theorem firstSlots_eq_take (ps : Parameters) (limit : Nat) :
    ps.firstSlots limit = ps.slots.take limit := by
  simp [firstSlots, slots, ← List.map_take, List.take_range]

/-- Tables with the same parameters at the same positions are one table. -/
@[ext]
theorem ext {ps qs : Parameters} (h : ∀ index, ps.get? index = qs.get? index) : ps = qs := by
  cases ps; cases qs
  exact congrArg Parameters.mk (Std.ExtTreeMap.ext_getElem? h)

end Parameters

end Declarations
