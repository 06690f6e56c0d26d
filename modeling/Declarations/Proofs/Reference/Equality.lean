/-
  Declarations/Proofs/Reference/Equality.lean
  ===========================================
  **When two references are the same.**

  `==` walks through two references side by side and compares their handles by number.
  So it holds exactly if at every position there stand the same name or handles of one
  number, followed by as many arguments (`TypeReference.SameAt`).  Display names are
  left out, at whatever depth they stand.

  The marks that a reference feeds a hasher leave out the same.  They can be read back
  in one way only: each identifier is followed by the number of its arguments, so where
  the marks of one reference end is not in doubt (`marks_append_eq_iff`).  Hence two
  references are equal exactly if they have the same marks, which makes `==` an
  equivalence, and one that hashing respects.
-/
import Declarations.Proofs.Reference.Positions
import Mathlib.Tactic.MkIffOfInductiveProp

namespace Declarations

/-! ## 1. Identifiers -/

namespace TypeIdentifier

variable {i j : TypeIdentifier}

theorem beq_iff_mark_eq :
    (i == j) = true ↔ TypeReference.identifierMark i = TypeReference.identifierMark j := by
  cases i <;> cases j
  case name.name x y =>
    change (x == y) = true ↔ _
    simp [TypeReference.identifierMark]
  case handle.handle x y =>
    change (x == y) = true ↔ _
    simp [TypeReference.identifierMark, TypeHandle.beq_iff_id_eq]
  all_goals constructor <;> intro h <;> cases h

theorem beq_iff_name?_and_id_eq : (i == j) = true ↔
    i.name? = j.name? ∧ i.handle?.map TypeHandle.id = j.handle?.map TypeHandle.id := by
  rw [beq_iff_mark_eq]
  cases i <;> cases j <;> simp [TypeReference.identifierMark, name?, handle?]

end TypeIdentifier

namespace TypeReference

variable {a b x y : TypeReference} {index : Nat} {position : Position}

/-! ## 2. Equality of the parts -/

theorem beqAll_eq_beq (as bs : List TypeReference) : beqAll as bs = (as == bs) := by
  induction as generalizing bs with
  | nil => cases bs <;> rfl
  | cons a as ih =>
    cases bs with
    | nil => rfl
    | cons b bs =>
      rw [beqAll, ih, List.cons_beq_cons]
      rfl

/-- Two references are equal if their identifiers are and their arguments are, in order. -/
theorem mk_beq_mk (i j : TypeIdentifier) (as bs : Option (List TypeReference)) :
    ((⟨i, as⟩ : TypeReference) == ⟨j, bs⟩) = (i == j && as == bs) := by
  change (i == j && beqArguments as bs) = _
  congr 1
  cases as <;> cases bs
  case some.some as bs => exact beqAll_eq_beq as bs
  all_goals rfl

/-! ## 3. Marks -/

mutual

/-- The marks of a reference can be read back in one way only, up to display names. -/
theorem marks_append_eq_iff : (a b : TypeReference) → {rest rest' : List Mark} →
    (marks a ++ rest = marks b ++ rest' ↔ beq a b = true ∧ rest = rest')
  | ⟨i, as⟩, ⟨j, bs⟩, rest, rest' => by
    rw [marks, marks, List.cons_append, List.cons_append, List.cons.injEq,
      ← TypeIdentifier.beq_iff_mark_eq, marksOfArguments_append_eq_iff as bs, beq,
      Bool.and_eq_true, and_assoc]

theorem marksOfArguments_append_eq_iff : (as bs : Option (List TypeReference)) →
    {rest rest' : List Mark} →
    (marksOfArguments as ++ rest = marksOfArguments bs ++ rest' ↔
      beqArguments as bs = true ∧ rest = rest')
  | none, none, rest, rest' => by simp [marksOfArguments, beqArguments]
  | some as, some bs, rest, rest' => by
    rw [marksOfArguments, marksOfArguments, List.cons_append, List.cons_append, List.cons.injEq,
      Mark.applied.injEq, beqArguments]
    constructor
    · rintro ⟨hlength, hmarks⟩
      exact (marksOfAll_append_eq_iff as bs hlength).mp hmarks
    · rintro ⟨heq, hrest⟩
      have hlength := List.length_eq_of_beq (beqAll_eq_beq as bs ▸ heq)
      exact ⟨hlength, (marksOfAll_append_eq_iff as bs hlength).mpr ⟨heq, hrest⟩⟩
  | none, some bs, rest, rest' => by simp [marksOfArguments, beqArguments]
  | some as, none, rest, rest' => by simp [marksOfArguments, beqArguments]

-- without the lengths, the one list could end where the other goes on
theorem marksOfAll_append_eq_iff : (as bs : List TypeReference) → {rest rest' : List Mark} →
    as.length = bs.length →
    (marksOfAll as ++ rest = marksOfAll bs ++ rest' ↔ beqAll as bs = true ∧ rest = rest')
  | [], [], rest, rest', _ => by simp [marksOfAll, beqAll]
  | a :: as, b :: bs, rest, rest', hlength => by
    rw [marksOfAll, marksOfAll, List.append_assoc, List.append_assoc, marks_append_eq_iff a b,
      marksOfAll_append_eq_iff as bs (Nat.succ.inj hlength), beqAll, Bool.and_eq_true, and_assoc]

end

/-- Equality and hashing leave out the same. -/
theorem beq_iff_marks_eq : (a == b) = true ↔ a.marks = b.marks := by
  have h : a.marks ++ [] = b.marks ++ [] ↔ (a == b) = true ∧ ([] : List Mark) = [] :=
    marks_append_eq_iff a b
  rw [List.append_nil, List.append_nil, and_iff_left rfl] at h
  exact h.symm

instance : EquivBEq TypeReference where
  rfl := beq_iff_marks_eq.mpr rfl
  symm h := beq_iff_marks_eq.mpr (beq_iff_marks_eq.mp h).symm
  trans h h' := beq_iff_marks_eq.mpr ((beq_iff_marks_eq.mp h).trans (beq_iff_marks_eq.mp h'))

instance : LawfulHashable TypeReference where
  hash_eq a b h := by
    change hash a.marks = hash b.marks
    rw [beq_iff_marks_eq.mp h]

/-! ## 4. Positions -/

/-- The name at a position, if a name stands there. -/
def nameAt? (reference : TypeReference) (position : Position) : Option String :=
  (reference.identifierAt? position).bind TypeIdentifier.name?

/-- The number of the handle at a position, if a handle stands there. -/
def handleIdAt? (reference : TypeReference) (position : Position) : Option Nat :=
  ((reference.identifierAt? position).bind TypeIdentifier.handle?).map TypeHandle.id

/-- The same stands at a position of two references, or nothing in either. -/
@[mk_iff]
structure SameAt (a b : TypeReference) (position : Position) : Prop where
  arity : a.arityAt? position = b.arityAt? position
  name : a.nameAt? position = b.nameAt? position
  handleId : a.handleIdAt? position = b.handleIdAt? position

theorem sameAt_nil_iff :
    SameAt a b [] ↔ (a.identifier == b.identifier) = true ∧ a.arity = b.arity := by
  rw [TypeIdentifier.beq_iff_name?_and_id_eq]
  constructor
  · rintro ⟨harity, hname, hid⟩
    exact ⟨⟨hname, hid⟩, Option.some.inj harity⟩
  · rintro ⟨⟨hname, hid⟩, harity⟩
    exact ⟨congrArg some harity, hname, hid⟩

theorem sameAt_cons_iff (hx : a.argument? index = some x) (hy : b.argument? index = some y) :
    SameAt a b (index :: position) ↔ SameAt x y position := by
  simp only [sameAt_iff, nameAt?, handleIdAt?, arityAt?_cons hx, arityAt?_cons hy,
    identifierAt?_cons hx, identifierAt?_cons hy]

theorem sameAt_cons_of_none (hx : a.argument? index = none) (hy : b.argument? index = none) :
    SameAt a b (index :: position) := by
  constructor <;>
    simp only [nameAt?, handleIdAt?, arityAt?, identifierAt?, get?_cons, hx, hy, Option.bind_none]

/-- Equality compares the roots, and then argument with argument. -/
theorem beq_iff_roots : (a == b) = true ↔
    (a.identifier == b.identifier) = true ∧ a.arity = b.arity ∧
      ∀ index x y, a.argument? index = some x → b.argument? index = some y → (x == y) = true := by
  obtain ⟨i, as⟩ := a
  obtain ⟨j, bs⟩ := b
  rw [mk_beq_mk, Bool.and_eq_true]
  apply and_congr_right
  intro _
  cases as <;> cases bs
  case some.some as bs =>
    rw [Option.some_beq_some, List.beq_eq_decide]
    simp only [arity, argument?, Option.map_some, Option.bind_some, Option.some.injEq]
    split
    next hlength =>
      rw [decide_eq_true_iff]
      constructor
      · intro h
        refine ⟨hlength, fun index x y hx hy => ?_⟩
        obtain ⟨hindex, rfl⟩ := List.getElem?_eq_some_iff.mp hx
        obtain ⟨_, rfl⟩ := List.getElem?_eq_some_iff.mp hy
        exact h index hindex
      · rintro ⟨-, h⟩ index hindex
        exact h index _ _ (List.getElem?_eq_getElem hindex)
          (List.getElem?_eq_getElem (hlength ▸ hindex))
    next hlength => simp [hlength]
  all_goals simp [arity, argument?]

/-- What is equal is the same at every position. -/
theorem sameAt_of_beq (h : (a == b) = true) (position : Position) : SameAt a b position := by
  induction position generalizing a b with
  | nil =>
    obtain ⟨hidentifier, harity, -⟩ := beq_iff_roots.mp h
    exact sameAt_nil_iff.mpr ⟨hidentifier, harity⟩
  | cons index position ih =>
    obtain ⟨-, harity, harguments⟩ := beq_iff_roots.mp h
    -- by their arities, both have an argument there or neither has
    have hboth : (a.argument? index).isSome ↔ (b.argument? index).isSome := by
      rw [isSome_argument?_iff, isSome_argument?_iff, harity]
    cases hx : a.argument? index with
    | none =>
      have hy : b.argument? index = none := by simpa [hx] using hboth
      exact sameAt_cons_of_none hx hy
    | some x =>
      obtain ⟨y, hy⟩ := Option.isSome_iff_exists.mp (hboth.mp (by rw [hx]; rfl))
      exact (sameAt_cons_iff hx hy).mpr (ih (harguments index x y hx hy))

/-- What is the same at every position is equal. -/
theorem beq_of_sameAt (h : ∀ position, SameAt a b position) : (a == b) = true := by
  induction a using argument_induction generalizing b with
  | step a ih =>
    obtain ⟨hidentifier, harity⟩ := sameAt_nil_iff.mp (h [])
    refine beq_iff_roots.mpr ⟨hidentifier, harity, ?_⟩
    intro index x y hx hy
    exact ih index x hx fun position => (sameAt_cons_iff hx hy).mp (h (index :: position))

/-! ## 5. Identity -/

/-- **Equality of references is equality of what they stand for.**  Two references are
    equal exactly if at every position there stands the same name, or a handle of the
    same number, with as many arguments; the display names of handles do not matter.
    This is an equivalence, it is decided part by part, and what equal references feed a
    hasher is the same, so they have the same hash; no others feed it the same. -/
theorem equality_follows_identity (a b c : TypeReference) :
    ((a == b) = true ↔ ∀ position, SameAt a b position) ∧
    (a == a) = true ∧
    ((a == b) = true → (b == a) = true) ∧
    ((a == b) = true → (b == c) = true → (a == c) = true) ∧
    (∀ (i j : TypeIdentifier) (as bs : Option (List TypeReference)),
      ((⟨i, as⟩ : TypeReference) == ⟨j, bs⟩) = (i == j && as == bs)) ∧
    ((a == b) = true ↔ a.marks = b.marks) ∧
    ((a == b) = true → hash a = hash b) := by
  refine ⟨⟨sameAt_of_beq, beq_of_sameAt⟩, beq_self_eq_true a, BEq.symm, BEq.trans, mk_beq_mk,
    beq_iff_marks_eq, ?_⟩
  exact hash_eq

/-- `Map<#1, List<>>` three times, with a different display name for `#1` each time: the
    three are different values and equal references.  With `List` in the place of
    `List<>` they would not be. -/
theorem equality_follows_identity_map :
    ∃ a b c d : TypeReference,
      a = .applied (.name "Map") [.bare (.handle ⟨1, "K"⟩), .applied (.name "List") []] ∧
      b = .applied (.name "Map") [.bare (.handle ⟨1, "V"⟩), .applied (.name "List") []] ∧
      c = .applied (.name "Map") [.bare (.handle ⟨1, "T"⟩), .applied (.name "List") []] ∧
      d = .applied (.name "Map") [.bare (.handle ⟨1, "K"⟩), .bare (.name "List")] ∧
      a ≠ b ∧ (∀ position, SameAt a b position) ∧ (b == a) = true ∧ (a == c) = true ∧
      hash a = hash b ∧ ¬ SameAt a d [1] ∧ (a == d) = false := by
  refine ⟨_, _, _, _, rfl, rfl, rfl, rfl, ?_⟩
  obtain ⟨hpositions, -, hsymm, htrans, -, hmarks, hhash⟩ := equality_follows_identity
    (.applied (.name "Map") [.bare (.handle ⟨1, "K"⟩), .applied (.name "List") []])
    (.applied (.name "Map") [.bare (.handle ⟨1, "V"⟩), .applied (.name "List") []])
    (.applied (.name "Map") [.bare (.handle ⟨1, "T"⟩), .applied (.name "List") []])
  have hab := hmarks.mpr rfl
  refine ⟨?_, hpositions.mp hab, hsymm hab, htrans hab rfl, hhash hab, ?_, rfl⟩
  · simp [applied, bare]
  · rintro ⟨harity, -, -⟩
    cases harity

end TypeReference

end Declarations
