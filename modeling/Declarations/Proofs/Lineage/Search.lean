/-
  Declarations/Proofs/Lineage/Search.lean
  =======================================
  **Searches in any table, with cycles or without.**

  A search upwards (`Lineage.seek`) settles when it meets a wanted record or when
  the walk ends.  Above a cycle the walk does not end, and the search may settle
  all the same: it meets the wanted record before it comes round.  Until it
  settles it meets nothing twice (`nodup_of_seek`), and all that it leaves behind
  is registered, so it follows at most as many links as there are rows.

  Hence a search that settles, settles on what the bounded list
  `Lineage.ancestors` holds, in every table (`find?_ancestors_of_seek`), and a
  call of `link` that comes to an answer comes to that of `Lineage.link`.

  `Lineage.linkInPlace` is this call on a table that it may write to: it answers,
  and whatever it has written by then stays written, also where it refuses.
-/
import Declarations.Proofs.Lineage.Calls

namespace Declarations.Lineage

variable {t u : Lineage} {wanted : EntityId → Bool} {limit further : Nat}
variable {a id child parent : EntityId} {found found' : Option EntityId}

/-! ## 1. Searches that may go further -/

theorem seek_of_parent?_eq_none (h : t.parent? id = none) :
    t.seek wanted (limit + 1) id = some none := by
  rw [seek, h]

theorem seek_of_linked (h : t.Linked id parent) :
    t.seek wanted (limit + 1) id =
      if wanted parent then some (some parent) else t.seek wanted limit parent := by
  rw [seek, show t.parent? id = some parent from h]

/-- How a search that may follow one more link settles: at the end of the walk, on
    the parent, or above it. -/
theorem seek_cases (h : t.seek wanted (limit + 1) id = some found) :
    (t.parent? id = none ∧ found = none) ∨
      ∃ parent, t.Linked id parent ∧
        ((wanted parent = true ∧ found = some parent) ∨
          (wanted parent = false ∧ t.seek wanted limit parent = some found)) := by
  cases hparent : t.parent? id with
  | none =>
    rw [seek_of_parent?_eq_none hparent] at h
    exact Or.inl ⟨rfl, (Option.some.inj h).symm⟩
  | some parent =>
    rw [seek_of_linked hparent] at h
    refine Or.inr ⟨parent, hparent, ?_⟩
    cases hwanted : wanted parent with
    | true => exact Or.inl ⟨rfl, by simpa [hwanted, eq_comm] using h⟩
    | false => exact Or.inr ⟨rfl, by simpa [hwanted] using h⟩

theorem seek_mono (h : t.seek wanted limit id = some found) (hle : limit ≤ further) :
    t.seek wanted further id = some found := by
  induction limit generalizing further id with
  | zero => simp [seek] at h
  | succ limit ih =>
    obtain ⟨further, rfl⟩ : ∃ k, further = k + 1 := ⟨further - 1, by omega⟩
    rcases seek_cases h with ⟨hparent, rfl⟩ | ⟨parent, hparent, ⟨hwanted, rfl⟩ | ⟨hwanted, hrest⟩⟩
    · exact seek_of_parent?_eq_none hparent
    · rw [seek_of_linked hparent, if_pos hwanted]
    · rw [seek_of_linked hparent, if_neg (by simp [hwanted])]
      exact ih hrest (Nat.le_of_succ_le_succ hle)

theorem seek_unique (h : t.seek wanted limit id = some found)
    (h' : t.seek wanted further id = some found') : found = found' := by
  rcases Nat.le_total limit further with hle | hle
  · exact Option.some.inj ((seek_mono h hle).symm.trans h')
  · exact Option.some.inj (h.symm.trans (seek_mono h' hle))

/-- The bounded search finds what the walk of that length holds. -/
theorem seek_eq_some_some_iff :
    t.seek wanted limit id = some (some a) ↔
      (t.firstAncestors limit id).find? wanted = some a := by
  induction limit generalizing id with
  | zero => simp [seek, firstAncestors]
  | succ limit ih =>
    cases hparent : t.parent? id with
    | none =>
      simp [seek_of_parent?_eq_none hparent, firstAncestors_of_parent?_eq_none _ hparent]
    | some parent =>
      rw [seek_of_linked hparent, firstAncestors_succ limit hparent, List.find?_cons]
      cases hwanted : wanted parent with
      | true => simp
      | false => simpa using ih

/-! ## 2. How far a search goes -/

/-- A search that settles at its second link or later settles at the one before from
    the parent. -/
theorem exists_linked_of_seek (hnow : t.seek wanted (limit + 2) id = some found)
    (hbefore : t.seek wanted (limit + 1) id = none) :
    ∃ parent, t.Linked id parent ∧ t.seek wanted (limit + 1) parent = some found ∧
      t.seek wanted limit parent = none := by
  rcases seek_cases hnow with ⟨hparent, rfl⟩ | ⟨parent, hparent, ⟨hwanted, rfl⟩ | ⟨hwanted, hrest⟩⟩
  · simp [seek_of_parent?_eq_none hparent] at hbefore
  · simp [seek_of_linked hparent, hwanted] at hbefore
  · refine ⟨parent, hparent, hrest, ?_⟩
    simpa [seek_of_linked hparent, hwanted] using hbefore

/-- From each record on its way a search settles on the same. -/
theorem seek_of_mem (hnow : t.seek wanted (limit + 1) id = some found)
    (hbefore : t.seek wanted limit id = none) (h : a ∈ id :: t.firstAncestors limit id) :
    t.seek wanted (limit + 1) a = some found := by
  induction limit generalizing id with
  | zero =>
    obtain rfl : a = id := by simpa [firstAncestors] using h
    exact hnow
  | succ limit ih =>
    rcases List.mem_cons.mp h with rfl | h
    · exact hnow
    · obtain ⟨parent, hparent, hnow, hbefore⟩ := exists_linked_of_seek hnow hbefore
      rw [firstAncestors_succ limit hparent] at h
      exact seek_mono (ih hnow hbefore h) (Nat.le_succ _)

/-- A search that settles at its last link has met nothing twice, nor its start:
    from a record met again it would have settled before. -/
theorem nodup_of_seek (hnow : t.seek wanted (limit + 1) id = some found)
    (hbefore : t.seek wanted limit id = none) : (id :: t.firstAncestors limit id).Nodup := by
  induction limit generalizing id with
  | zero => simp [firstAncestors]
  | succ limit ih =>
    obtain ⟨parent, hparent, hnow', hbefore'⟩ := exists_linked_of_seek hnow hbefore
    rw [firstAncestors_succ limit hparent]
    apply List.nodup_cons.mpr
    refine ⟨?_, ih hnow' hbefore'⟩
    intro hmem
    have hsettled := seek_of_mem hnow' hbefore' hmem
    exact absurd (hsettled.symm.trans hbefore) (by simp)

theorem length_firstAncestors_of_seek (hnow : t.seek wanted (limit + 1) id = some found)
    (hbefore : t.seek wanted limit id = none) : (t.firstAncestors limit id).length = limit := by
  induction limit generalizing id with
  | zero => rfl
  | succ limit ih =>
    obtain ⟨parent, hparent, hnow, hbefore⟩ := exists_linked_of_seek hnow hbefore
    rw [firstAncestors_succ limit hparent, List.length_cons, ih hnow hbefore]

theorem isRegistered_of_seek (h : t.seek wanted limit id = some (some a)) :
    t.isRegistered id := by
  cases limit with
  | zero => simp [seek] at h
  | succ limit =>
    rcases seek_cases h with ⟨-, hfound⟩ | ⟨parent, hparent, -⟩
    · cases hfound
    · exact isRegistered_of_linked hparent

/-- A search that finds something does so within as many links as there are rows. -/
theorem seek_size (h : t.seek wanted limit id = some (some a)) :
    t.seek wanted t.size id = some (some a) := by
  induction limit with
  | zero => simp [seek] at h
  | succ limit ih =>
    cases hbefore : t.seek wanted limit id with
    | some found =>
      obtain rfl := seek_unique hbefore h
      exact ih hbefore
    | none =>
      have hlength : (id :: t.firstAncestors limit id).length ≤ t.size :=
        length_le_size_of_nodup (nodup_of_seek h hbefore) fun _ hmem =>
          isRegistered_of_seek (seek_of_mem h hbefore hmem)
      rw [List.length_cons, length_firstAncestors_of_seek h hbefore] at hlength
      exact seek_mono h hlength

theorem ends_of_seek (h : t.seek wanted limit id = some none) : t.Ends id := by
  induction limit generalizing id with
  | zero => simp [seek] at h
  | succ limit ih =>
    rcases seek_cases h with ⟨hparent, -⟩ | ⟨parent, hparent, ⟨-, hfound⟩ | ⟨-, hrest⟩⟩
    · exact ends_of_parent?_eq_none hparent
    · cases hfound
    · exact (ends_iff_of_linked hparent).mpr (ih hrest)

/-! ## 3. What a search settles on -/

/-- A search settles on what the list of ancestors holds, if it settles. -/
theorem find?_ancestors_of_seek (h : t.seek wanted limit id = some found) :
    (t.ancestors id).find? wanted = found := by
  cases found with
  | none => exact seek_unique (seek_of_ends (ends_of_seek h) wanted) h
  | some a => exact seek_eq_some_some_iff.mp (seek_size h)

/-- The nearest ancestor of a kind is what the search comes back with, also where
    there is a cycle further up. -/
theorem nearest_eq_some_iff {kind : Kind} :
    t.nearest id kind = some a ↔
      ∃ limit, t.seek (t.kind? · = some kind) limit id = some (some a) := by
  constructor
  · intro h
    exact ⟨t.size, seek_eq_some_some_iff.mpr h⟩
  · rintro ⟨limit, h⟩
    exact find?_ancestors_of_seek h

theorem isSome_iff_of_seek (h : t.seek (· = child) limit parent = some found) :
    found.isSome ↔ child ∈ t.ancestors parent := by
  rw [← find?_ancestors_of_seek h, List.find?_isSome]
  simp

/-- Linking settles when its search does. -/
theorem linkWithin_of_seek (h : t.seek (· = child) limit parent = some found) :
    t.linkWithin limit child parent = some (t.link child parent) := by
  have hmem := isSome_iff_of_seek h
  unfold linkWithin link
  split
  · rfl
  split
  · rfl
  by_cases hself : child = parent
  · simp [hself]
  rw [if_neg hself, h, Option.map_some]
  cases found with
  | some _ => exact congrArg some (if_pos (Or.inr (hmem.mp rfl))).symm
  | none =>
    have hnot : child ∉ t.ancestors parent := fun habove => absurd (hmem.mpr habove) (by simp)
    exact congrArg some (if_neg (not_or.mpr ⟨hself, hnot⟩)).symm

/-- Linking settles without a search, or its search settles. -/
theorem linkWithin_cases {outcome : Except LinkError Lineage}
    (h : t.linkWithin limit child parent = some outcome) :
    (∀ further, t.linkWithin further child parent = some (t.link child parent)) ∨
      ∃ found, t.seek (· = child) limit parent = some found := by
  cases hchild : t.isRegistered child with
  | false => exact Or.inl fun _ => by simp [linkWithin, link, hchild]
  | true =>
  cases hparent : t.isRegistered parent with
  | false => exact Or.inl fun _ => by simp [linkWithin, link, hchild, hparent]
  | true =>
  by_cases hself : child = parent
  · exact Or.inl fun _ => by simp [linkWithin, link, hparent, hself]
  · rw [linkWithin, hchild, hparent, if_neg hself] at h
    obtain ⟨found, hseek, -⟩ := Option.map_eq_some_iff.mp h
    exact Or.inr ⟨found, hseek⟩

/-- Linking settles on what `link` says, if it settles. -/
theorem linkWithin_eq_some {outcome : Except LinkError Lineage}
    (h : t.linkWithin limit child parent = some outcome) : t.link child parent = outcome := by
  rcases linkWithin_cases h with hany | ⟨found, hseek⟩
  · exact Option.some.inj ((hany limit).symm.trans h)
  · exact Option.some.inj ((linkWithin_of_seek hseek).symm.trans h)

theorem linkWithin_mono {outcome : Except LinkError Lineage}
    (h : t.linkWithin limit child parent = some outcome) (hle : limit ≤ further) :
    t.linkWithin further child parent = some outcome := by
  rw [← linkWithin_eq_some h]
  rcases linkWithin_cases h with hany | ⟨found, hseek⟩
  · exact hany further
  · exact linkWithin_of_seek (seek_mono hseek hle)

/-! ## 4. Linking as a call that writes -/

/-- The answer to a call of `link`. -/
def answer (t : Lineage) (child parent : EntityId) : Except LinkError Unit :=
  (t.link child parent).map fun _ => ()

/-- Linking on a table that the call may write to.  The search for `child` above
    `parent` follows at most `limit` links; while it is under way there is no
    answer. -/
def linkInPlace (limit : Nat) (child parent : EntityId) :
    StateT Lineage Option (Except LinkError Unit) := do
  let t ← get
  if !t.isRegistered child then
    return .error (.unknownEntity child)
  if !t.isRegistered parent then
    return .error (.unknownEntity parent)
  if child = parent then
    return .error (.cyclic child parent)
  let found ← t.seek (· = child) limit parent
  if found.isSome then
    return .error (.cyclic child parent)
  match t.parent? child with
  | some existing =>
    if existing = parent then
      return .ok ()
    else
      return .error (.alreadyAttached child existing)
  | none =>
    set (t.setParent child parent)
    return .ok ()

/-- The call answers as `linkWithin` does.  Granted, it leaves the table that
    `linkWithin` gives, and refused, the one that it found. -/
theorem run_linkInPlace (t : Lineage) (limit : Nat) (child parent : EntityId) :
    (linkInPlace limit child parent).run t = (t.linkWithin limit child parent).map fun
      | .ok linked => (.ok (), linked)
      | .error error => (.error error, t) := by
  unfold linkInPlace linkWithin
  cases hchild : t.isRegistered child
  · simp [hchild]
  cases hparent : t.isRegistered parent
  · simp [hchild, hparent]
  by_cases hself : child = parent
  · simp [hparent, hself]
  cases hseek : t.seek (· = child) limit parent with
  | none => simp [hchild, hparent, hself, hseek]
  | some found =>
    cases found with
    | some _ => simp [hchild, hparent, hself, hseek]
    | none =>
      cases hold : t.parent? child with
      | none => simp [hchild, hparent, hself, hseek, hold]
      | some existing =>
        by_cases hsame : existing = parent <;>
          simp [hchild, hparent, hself, hseek, hold, hsame]

theorem map_outcome (t : Lineage) (child parent : EntityId) :
    (match t.link child parent with
      | .ok linked => (.ok (), linked)
      | .error error => (.error error, t)) =
      (t.answer child parent, t.apply (.link child parent)) := by
  rw [answer, apply]
  cases t.link child parent <;> rfl

/-- A call that comes back answers as `link` does and leaves the table that `apply`
    gives. -/
theorem run_linkInPlace_eq_some {answered : Except LinkError Unit}
    (h : (linkInPlace limit child parent).run t = some (answered, u)) :
    answered = t.answer child parent ∧ u = t.apply (.link child parent) := by
  rw [run_linkInPlace] at h
  obtain ⟨outcome, hwithin, houtcome⟩ := Option.map_eq_some_iff.mp h
  obtain rfl := linkWithin_eq_some hwithin
  exact Prod.mk.inj (houtcome.symm.trans (map_outcome t child parent))

theorem run_linkInPlace_of_size_lt (h : t.Ends parent) (hlimit : t.size < limit)
    (child : EntityId) :
    (linkInPlace limit child parent).run t =
      some (t.answer child parent, t.apply (.link child parent)) := by
  rw [run_linkInPlace, linkWithin_mono (linkWithin_of_ends h child) hlimit, Option.map_some,
    map_outcome]

end Declarations.Lineage
