/-
  Declarations/Proofs/Record/Parameters.lean
  ==========================================
  **The views of a sparse parameter table.**

  The declared positions of a table, in ascending order, are those of the positions up
  to the highest one that are declared (`Parameters.positions_eq_filter`).  All views
  are read off this one list:

  * the slots are all positions up to the highest, declared or not,
  * the list of parameters is what stands at the declared ones,
  * there is a hole exactly if the declared ones are fewer than all, and so if their
    number does not exceed the highest.

  Positions may be as large as a machine word can be, and then there is no word for the
  number of slots.  None is needed: the slots are counted off from 0 through the highest
  position, and the count stops there (`slots_eq_map_wordsThrough`).
-/
import Declarations.Record.Parameter
import Mathlib.Algebra.Group.Nat.Defs
import Mathlib.Data.List.Induction
import Mathlib.Data.List.Sort

namespace Declarations

namespace Parameters

variable {ps : Parameters} {index highest : Nat}

/-! ## 1. Declared positions -/

/-- The declared positions, in ascending order. -/
def positions (ps : Parameters) : List Nat := ps.byIndex.keys

theorem mem_byIndex : index ∈ ps.byIndex ↔ (ps.get? index).isSome :=
  Std.ExtTreeMap.mem_iff_isSome_getElem?

theorem mem_positions : index ∈ ps.positions ↔ (ps.get? index).isSome :=
  Std.ExtTreeMap.mem_keys.trans mem_byIndex

theorem pairwise_positions (ps : Parameters) : ps.positions.Pairwise (· < ·) :=
  Std.ExtTreeMap.ordered_keys.imp Nat.compare_eq_lt.mp

theorem length_positions (ps : Parameters) : ps.positions.length = ps.size :=
  Std.ExtTreeMap.length_keys

theorem toList_eq_map (ps : Parameters) : ps.toList = ps.byIndex.toList.map Prod.snd := by
  have hfold : ps.toList = ps.byIndex.foldr (fun _ parameter rest => parameter :: rest) [] := by
    obtain ⟨⟨⟨byIndex⟩⟩⟩ := ps
    rfl
  rw [hfold, Std.ExtTreeMap.foldr_eq_foldr_toList, List.map_eq_foldr]

theorem map_get?_positions (ps : Parameters) :
    ps.positions.map ps.get? = ps.toList.map some := by
  rw [positions, ← Std.ExtTreeMap.map_fst_toList_eq_keys, toList_eq_map, List.map_map, List.map_map]
  apply List.map_congr_left
  intro entry hmem
  exact Std.ExtTreeMap.mem_toList_iff_getElem?_eq_some.mp hmem

theorem highestIndex?_eq_some_iff : ps.highestIndex? = some highest ↔
    (ps.get? highest).isSome ∧ ∀ index, (ps.get? index).isSome → index ≤ highest := by
  rw [highestIndex?, Std.ExtTreeMap.maxKey?_eq_some_iff_mem_and_forall, mem_byIndex]
  simp only [mem_byIndex, Nat.isLE_compare]

theorem highestIndex?_eq_none_iff : ps.highestIndex? = none ↔ ps.positions = [] := by
  rw [highestIndex?, Std.ExtTreeMap.maxKey?_eq_none_iff, positions,
    Std.ExtTreeMap.keys_eq_nil_iff]

theorem slotCount_eq (h : ps.highestIndex? = some highest) : ps.slotCount = highest + 1 := by
  rw [slotCount, h]
  rfl

theorem lt_slotCount (h : (ps.get? index).isSome) : index < ps.slotCount := by
  cases hhighest : ps.highestIndex? with
  | none =>
    rw [highestIndex?_eq_none_iff] at hhighest
    rw [← mem_positions, hhighest] at h
    cases h
  | some highest =>
    rw [slotCount_eq hhighest]
    exact Nat.lt_succ_of_le ((highestIndex?_eq_some_iff.mp hhighest).2 index h)

theorem positions_eq_filter (ps : Parameters) :
    ps.positions = (List.range ps.slotCount).filter fun index => (ps.get? index).isSome := by
  apply (pairwise_positions ps).eq_of_mem_iff (List.pairwise_lt_range.filter _)
  intro index
  rw [mem_positions, List.mem_filter, List.mem_range]
  exact ⟨fun h => ⟨lt_slotCount h, h⟩, And.right⟩

/-! ## 2. Views -/

/-- All views of a table say the same. -/
structure ViewsAgree (ps : Parameters) : Prop where
  -- the highest position is the last that is declared
  highest {highest : Nat} : ps.highestIndex? = some highest ↔
    (ps.get? highest).isSome ∧ ∀ index, (ps.get? index).isSome → index ≤ highest
  -- there are slots up to the highest position
  slot (index : Nat) : (∃ slot, ps.slots[index]? = some slot) ↔
    ∃ highest, ps.highestIndex? = some highest ∧ index ≤ highest
  -- a slot shows what stands at its position
  slot_eq {index : Nat} {slot : Option Parameter} : ps.slots[index]? = some slot →
    slot = ps.get? index
  -- without the holes the slots are the list of parameters
  declared : ps.slots.reduceOption = ps.toList
  -- the list goes through the declared positions in strictly ascending order
  ascending : ∃ positions : List Nat, positions.Pairwise (· < ·) ∧
    (∀ index, index ∈ positions ↔ (ps.get? index).isSome) ∧
    ps.toList.map some = positions.map ps.get?
  -- and is as long as the table says
  length : ps.toList.length = ps.size
  -- there is a gap where a position below the highest is a hole
  gaps : ps.hasGaps ↔ ∃ highest index, ps.highestIndex? = some highest ∧ index < highest ∧
    ps.get? index = none
  -- an empty table has no parameters and no highest position
  isEmpty_iff : ps.isEmpty ↔ ps.size = 0
  size_eq_zero_iff : ps.size = 0 ↔ ps.highestIndex? = none

theorem exists_getElem?_slots_iff : (∃ slot, ps.slots[index]? = some slot) ↔
    ∃ highest, ps.highestIndex? = some highest ∧ index ≤ highest := by
  rw [← Option.isSome_iff_exists, isSome_getElem?, slots, List.length_map, List.length_range]
  cases hhighest : ps.highestIndex? with
  | none => simp [slotCount, hhighest]
  | some highest =>
    rw [slotCount_eq hhighest, Nat.lt_succ_iff]
    simp

theorem eq_of_getElem?_slots {slot : Option Parameter} (h : ps.slots[index]? = some slot) :
    slot = ps.get? index := by
  obtain ⟨hlt, rfl⟩ := List.getElem?_eq_some_iff.mp h
  simp [slots]

theorem reduceOption_slots (ps : Parameters) : ps.slots.reduceOption = ps.toList := by
  have hdeclared : ps.toList = (ps.positions.map ps.get?).filterMap id := by
    rw [map_get?_positions, List.filterMap_map]
    simp
  change ps.slots.filterMap id = ps.toList
  rw [hdeclared, positions_eq_filter, slots, List.filterMap_map, List.filterMap_map,
    List.filterMap_filter]
  apply List.filterMap_congr
  intro index _
  cases hget : ps.get? index <;> simp [hget]

/-- **A table has a hole below the highest position exactly if the highest position is not
    below the number of parameters**: fewer are declared than there are slots. -/
theorem hasGaps_iff : ps.hasGaps ↔ ∃ highest index, ps.highestIndex? = some highest ∧
    index < highest ∧ ps.get? index = none := by
  cases hhighest : ps.highestIndex? with
  | none => simp [hasGaps, hhighest]
  | some highest =>
    have hcount : ps.hasGaps ↔ ps.positions.length < (List.range ps.slotCount).length := by
      rw [length_positions, List.length_range, slotCount_eq hhighest, Nat.lt_succ_iff]
      simp [hasGaps, hhighest]
    have hlast : ps.get? highest ≠ none :=
      Option.isSome_iff_ne_none.mp (highestIndex?_eq_some_iff.mp hhighest).1
    rw [hcount, positions_eq_filter, List.length_filter_lt_length_iff_exists]
    simp only [List.mem_range, slotCount_eq hhighest, Nat.lt_succ_iff, Option.not_isSome_iff_eq_none]
    constructor
    · rintro ⟨index, hle, hhole⟩
      refine ⟨highest, index, rfl, Nat.lt_of_le_of_ne hle ?_, hhole⟩
      rintro rfl
      exact hlast hhole
    · rintro ⟨other, index, hother, hlt, hhole⟩
      obtain rfl := Option.some.inj hother
      exact ⟨index, Nat.le_of_lt hlt, hhole⟩

theorem viewsAgree (ps : Parameters) : ps.ViewsAgree := by
  constructor
  case highest => exact highestIndex?_eq_some_iff
  case slot => exact fun index => exists_getElem?_slots_iff
  case slot_eq => exact eq_of_getElem?_slots
  case declared => exact reduceOption_slots ps
  case ascending =>
    exact ⟨ps.positions, pairwise_positions ps, fun index => mem_positions,
      (map_get?_positions ps).symm⟩
  case length =>
    rw [← length_positions, ← List.length_map (f := some), ← map_get?_positions, List.length_map]
  case gaps => exact hasGaps_iff
  case isEmpty_iff =>
    rw [isEmpty, Std.ExtTreeMap.isEmpty_eq_size_beq_zero, beq_iff_eq]
    rfl
  case size_eq_zero_iff => rw [highestIndex?_eq_none_iff, ← length_positions, List.length_eq_zero_iff]

/-! ## 3. Positions that are words -/

variable {width : Nat} {first last : BitVec width}

/-- There is a word after each word that is below another. -/
theorem uaddOverflow_one (h : first < last) : first.uaddOverflow (.ofNat width 1) = false := by
  have hlt : first.toNat < last.toNat := h
  have hlast := last.isLt
  rw [BitVec.uaddOverflow, BitVec.toNat_ofNat, Nat.mod_eq_of_lt (by omega)]
  exact decide_eq_false (by omega)

theorem toNat_add_one (h : first < last) : (first + .ofNat width 1).toNat = first.toNat + 1 := by
  have hlt : first.toNat < last.toNat := h
  have hlast := last.isLt
  rw [BitVec.toNat_add_of_not_uaddOverflow (by simp [uaddOverflow_one h]), BitVec.toNat_ofNat,
    Nat.mod_eq_of_lt (by omega)]

/-- The words from one through another.  The count ends at the last word and does not go
    past it, so no word has to follow that one. -/
def wordsThrough (first last : BitVec width) : List (BitVec width) :=
  if first < last then first :: wordsThrough (first + .ofNat width 1) last
  else if first = last then [last]
  else []
termination_by last.toNat - first.toNat
decreasing_by
  next h =>
    have hlt : first.toNat < last.toNat := h
    rw [toNat_add_one h]
    omega

theorem map_toNat_wordsThrough (h : first ≤ last) :
    (wordsThrough first last).map BitVec.toNat =
      List.range' first.toNat (last.toNat + 1 - first.toNat) := by
  induction first using wordsThrough.induct last with
  | case1 first hlt ih =>
    have hnext := toNat_add_one hlt
    have hle : first + .ofNat width 1 ≤ last := by
      rw [BitVec.le_def, hnext]
      exact hlt
    have hlength : last.toNat + 1 - first.toNat = (last.toNat - first.toNat) + 1 := by
      have hle : first.toNat ≤ last.toNat := h
      omega
    rw [wordsThrough, if_pos hlt, List.map_cons, ih hle, hnext, hlength, List.range'_succ,
      Nat.add_sub_add_right]
  | case2 hlt =>
    rw [wordsThrough, if_neg hlt, if_pos rfl, Nat.add_sub_cancel_left]
    rfl
  | case3 first hlt hne => exact absurd (BitVec.le_antisymm h (BitVec.not_lt.mp hlt)) hne

/-- The slots, with the positions counted off in words. -/
def slotsByWord (ps : Parameters) (width : Nat) : List (Option Parameter) :=
  match ps.highestIndex? with
  | none => []
  | some highest =>
    (wordsThrough (.ofNat width 0) (.ofNat width highest)).map fun word => ps.get? word.toNat

/-- Whether there is a hole, with the highest position and the number of parameters
    compared as words. -/
def hasGapsByWord (ps : Parameters) (width : Nat) : Bool :=
  ps.highestIndex?.any fun highest => BitVec.ofNat width ps.size ≤ BitVec.ofNat width highest

theorem slots_eq_slotsByWord
    (hwords : ∀ index, (ps.get? index).isSome → index < 2 ^ width) :
    ps.slots = ps.slotsByWord width := by
  unfold slotsByWord
  split
  next hhighest => simp [slots, slotCount, hhighest]
  next highest hhighest =>
    have hlast : (BitVec.ofNat width highest).toNat = highest := by
      rw [BitVec.toNat_ofNat,
        Nat.mod_eq_of_lt (hwords highest (highestIndex?_eq_some_iff.mp hhighest).1)]
    have hzero : BitVec.ofNat width 0 ≤ BitVec.ofNat width highest := by
      rw [BitVec.le_def, BitVec.toNat_zero]
      exact Nat.zero_le _
    have hcount := map_toNat_wordsThrough hzero
    rw [hlast, BitVec.toNat_zero, Nat.sub_zero, ← List.range_eq_range'] at hcount
    rw [slots, slotCount_eq hhighest, ← hcount, List.map_map]
    rfl

theorem hasGaps_eq_hasGapsByWord
    (hwords : ∀ index, (ps.get? index).isSome → index < 2 ^ width) (hsize : ps.size < 2 ^ width) :
    ps.hasGaps = ps.hasGapsByWord width := by
  cases hhighest : ps.highestIndex? with
  | none => simp [hasGaps, hasGapsByWord, hhighest]
  | some highest =>
    have hlast := hwords highest (highestIndex?_eq_some_iff.mp hhighest).1
    simp [hasGaps, hasGapsByWord, hhighest, BitVec.le_def, Nat.mod_eq_of_lt hlast,
      Nat.mod_eq_of_lt hsize]

/-! ## 4. Tables that calls have made -/

/-- One use of a table whose positions are words. -/
inductive Call (width : Nat) where
  | getOrInsert (index : BitVec width) (create : Parameter)
  | modify (index : BitVec width) (change : Parameter → Parameter)

def call (ps : Parameters) : Call width → Parameters
  | .getOrInsert index create => (ps.getOrInsert index.toNat create).2
  | .modify index change => ps.modify index.toNat change

/-- The table that calls have made from nothing. -/
def ofCalls (calls : List (Call width)) : Parameters := calls.foldl call ∅

theorem lt_of_isSome_get?_call (hwords : ∀ index, (ps.get? index).isSome → index < 2 ^ width)
    (c : Call width) (h : ((ps.call c).get? index).isSome) : index < 2 ^ width := by
  cases c with
  | getOrInsert word create =>
    rw [call, get?_getOrInsert] at h
    split at h
    next heq => exact heq ▸ word.isLt
    next => exact hwords index h
  | modify word change =>
    rw [call, get?_modify] at h
    split at h
    next heq => exact heq ▸ word.isLt
    next => exact hwords index h

theorem lt_of_isSome_get?_ofCalls (calls : List (Call width)) :
    ∀ index, ((ofCalls calls).get? index).isSome → index < 2 ^ width := by
  induction calls using List.reverseRecOn with
  | nil => simp [ofCalls]
  | append_singleton calls c ih =>
    intro index h
    rw [ofCalls, List.foldl_concat] at h
    exact lt_of_isSome_get?_call ih c h

/-- **All views of a table agree, whatever calls have made it, and they need no number
    beyond the words that its positions are.**  Counting the slots off stops at the highest
    position, and no addition on the way overflows.  To tell whether there is a hole, the
    highest position and the number of parameters are compared as they are. -/
theorem views_of_calls (calls : List (Call width)) :
    (ofCalls calls).ViewsAgree ∧
    (ofCalls calls).slots = (ofCalls calls).slotsByWord width ∧
    (∀ highest word, (ofCalls calls).highestIndex? = some highest →
      word < BitVec.ofNat width highest → word.uaddOverflow (.ofNat width 1) = false) ∧
    ((ofCalls calls).size < 2 ^ width →
      (ofCalls calls).hasGaps = (ofCalls calls).hasGapsByWord width) := by
  have hwords := lt_of_isSome_get?_ofCalls calls
  refine ⟨viewsAgree _, slots_eq_slotsByWord hwords, ?_, hasGaps_eq_hasGapsByWord hwords⟩
  exact fun highest word _ hlt => uaddOverflow_one hlt

/-- Two parameters, one of them at the largest position of 64 bits. -/
theorem views_of_calls_largest :
    ∃ (calls : List (Call 64)), (ofCalls calls).highestIndex? = some (2 ^ 64 - 1) ∧
      (ofCalls calls).size = 2 ∧ (ofCalls calls).size < 2 ^ 64 ∧
      (ofCalls calls).hasGapsByWord 64 ∧ (ofCalls calls).hasGaps ∧
      (ofCalls calls).slots = (ofCalls calls).slotsByWord 64 := by
  obtain ⟨calls, hhighest, hsize⟩ : ∃ (calls : List (Call 64)),
      (ofCalls calls).highestIndex? = some (2 ^ 64 - 1) ∧ (ofCalls calls).size = 2 :=
    ⟨[.getOrInsert (.ofNat 64 (2 ^ 64 - 1)) (.ofIndex (2 ^ 64 - 1)),
      .getOrInsert (.ofNat 64 (2 ^ 40)) (.ofIndex (2 ^ 40))],
      highestIndex?_eq_some_iff.mpr ⟨rfl, fun index h =>
        Nat.le_sub_one_of_lt (lt_of_isSome_get?_ofCalls _ index h)⟩, rfl⟩
  obtain ⟨-, hslots, -, hsame⟩ := views_of_calls calls
  have hlt : (ofCalls calls).size < 2 ^ 64 := by
    rw [hsize]
    decide
  have hgaps : (ofCalls calls).hasGapsByWord 64 := by
    rw [hasGapsByWord, hhighest, hsize]
    decide
  exact ⟨calls, hhighest, hsize, hlt, hgaps, (hsame hlt).trans hgaps, hslots⟩

end Parameters

end Declarations
