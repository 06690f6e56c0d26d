/-
  Declarations/Proofs/Lineage/Ancestors.lean
  ==========================================
  **Walks upwards: what they meet and when they end.**

  `Lineage.IsAncestor` is the transitive closure of the links, and a table is
  `Lineage.Acyclic` if no record is its own ancestor.  Walking up the links from
  a record either meets a cycle and never ends, or ends within as many steps as
  there are rows (`length_firstAncestors_le_size`): what such a walk meets is
  pairwise different, and all but the last of it is registered.  So where a walk
  ends, `Lineage.ancestors` is the whole of it (`mem_ancestors`).

  `Lineage.seek` and `Lineage.linkWithin` are the searches as they run, link by
  link and without a bound of their own: they answer `none` while they are under
  way.  Where the walk ends they settle, and what they settle on is what
  `Lineage.nearest` and `Lineage.link` say.
-/
import Declarations.Lineage
import Mathlib.Logic.Relation
import Mathlib.Data.Finset.Card
import Mathlib.Data.Finset.Range
import Mathlib.Data.List.Nodup

namespace Declarations.Lineage

open Relation

variable {t : Lineage} {a id parent : EntityId}

/-! ## 1. Ancestors as a relation -/

/-- `parent` is written down as the parent of `child`. -/
def Linked (t : Lineage) (child parent : EntityId) : Prop := t.parent? child = some parent

/-- `a` is an ancestor of `id`: one link or more lead from `id` up to `a`. -/
def IsAncestor (t : Lineage) (a id : EntityId) : Prop := TransGen t.Linked id a

/-- No record is its own ancestor. -/
def Acyclic (t : Lineage) : Prop := ∀ id, ¬ t.IsAncestor id id

/-- The walk upwards from `id` comes to an end: some limit is not reached. -/
def Ends (t : Lineage) (id : EntityId) : Prop :=
  ∃ limit, (t.firstAncestors limit id).length < limit

theorem isRegistered_of_linked (h : t.Linked id parent) : t.isRegistered id := by
  obtain ⟨row, hrow, -⟩ := Option.bind_eq_some_iff.mp h
  exact decide_eq_true (Array.getElem?_eq_some_iff.mp hrow).1

theorem isRegistered_of_kind? {kind : Kind} (h : t.kind? id = some kind) : t.isRegistered id := by
  obtain ⟨row, hrow, -⟩ := Option.map_eq_some_iff.mp h
  exact decide_eq_true (Array.getElem?_eq_some_iff.mp hrow).1

theorem exists_kind?_of_isRegistered (h : t.isRegistered id) : ∃ kind, t.kind? id = some kind :=
  ⟨_, congrArg (Option.map Row.kind) (Array.getElem?_eq_getElem (of_decide_eq_true h))⟩

theorem next_ne_of_isRegistered (h : t.isRegistered id) : id ≠ t.next := by
  rintro rfl
  simp [isRegistered, next] at h

theorem isAncestor_iff_of_linked (h : t.Linked id parent) :
    t.IsAncestor a id ↔ a = parent ∨ t.IsAncestor a parent := by
  constructor
  · intro hanc
    obtain ⟨next, hnext, hrest⟩ := TransGen.head'_iff.mp hanc
    obtain rfl : next = parent := Option.some.inj (hnext.symm.trans h)
    exact reflTransGen_iff_eq_or_transGen.mp hrest
  · rintro (rfl | hanc)
    · exact TransGen.single h
    · exact TransGen.head h hanc

theorem not_isAncestor_of_parent?_eq_none (h : t.parent? id = none) : ¬ t.IsAncestor a id := by
  intro hanc
  obtain ⟨next, hnext, -⟩ := TransGen.head'_iff.mp hanc
  exact absurd (hnext.symm.trans h) (by simp)

theorem IsAncestor.trans {b : EntityId} (hab : t.IsAncestor a b) (hb : t.IsAncestor b id) :
    t.IsAncestor a id :=
  TransGen.trans hb hab

/-! ## 2. Walks of a given length -/

theorem firstAncestors_succ (limit : Nat) (h : t.Linked id parent) :
    t.firstAncestors (limit + 1) id = parent :: t.firstAncestors limit parent := by
  rw [firstAncestors, show t.parent? id = some parent from h]

theorem firstAncestors_of_parent?_eq_none (limit : Nat) (h : t.parent? id = none) :
    t.firstAncestors limit id = [] := by
  cases limit with
  | zero => rfl
  | succ limit => rw [firstAncestors, h]

theorem isAncestor_of_mem_firstAncestors {limit : Nat} (h : a ∈ t.firstAncestors limit id) :
    t.IsAncestor a id := by
  induction limit generalizing id with
  | zero => simp [firstAncestors] at h
  | succ limit ih =>
    cases hparent : t.parent? id with
    | none => simp [firstAncestors_of_parent?_eq_none _ hparent] at h
    | some parent =>
      rw [firstAncestors_succ limit hparent] at h
      rw [isAncestor_iff_of_linked hparent]
      exact (List.mem_cons.mp h).imp_right ih

theorem exists_mem_firstAncestors (h : t.IsAncestor a id) :
    ∃ limit, a ∈ t.firstAncestors limit id := by
  induction h using TransGen.head_induction_on with
  | single hlink => exact ⟨1, by simp [firstAncestors_succ 0 hlink]⟩
  | head hlink _ ih =>
    obtain ⟨limit, hmem⟩ := ih
    exact ⟨limit + 1, by rw [firstAncestors_succ limit hlink]; exact List.mem_cons_of_mem _ hmem⟩

theorem firstAncestors_eq_take {limit further : Nat} (h : limit ≤ further) (id : EntityId) :
    t.firstAncestors limit id = (t.firstAncestors further id).take limit := by
  induction limit generalizing further id with
  | zero => simp [firstAncestors]
  | succ limit ih =>
    obtain ⟨further, rfl⟩ : ∃ k, further = k + 1 := ⟨further - 1, by omega⟩
    cases hparent : t.parent? id with
    | none => simp [firstAncestors_of_parent?_eq_none _ hparent]
    | some parent =>
      rw [firstAncestors_succ limit hparent, firstAncestors_succ further hparent,
        List.take_succ_cons, ih (Nat.le_of_succ_le_succ h)]

/-! ## 3. Where walks end -/

theorem ends_of_parent?_eq_none (h : t.parent? id = none) : t.Ends id :=
  ⟨1, by simp [firstAncestors_of_parent?_eq_none _ h]⟩

theorem ends_iff_of_linked (h : t.Linked id parent) : t.Ends id ↔ t.Ends parent := by
  constructor
  · rintro ⟨limit, hlt⟩
    cases limit with
    | zero => omega
    | succ limit =>
      rw [firstAncestors_succ limit h, List.length_cons] at hlt
      exact ⟨limit, by omega⟩
  · rintro ⟨limit, hlt⟩
    exact ⟨limit + 1, by rw [firstAncestors_succ limit h, List.length_cons]; omega⟩

theorem Ends.of_isAncestor (hends : t.Ends id) (h : t.IsAncestor a id) : t.Ends a := by
  induction h with
  | single hlink => exact (ends_iff_of_linked hlink).mp hends
  | tail _ hlink ih => exact (ends_iff_of_linked hlink).mp ih

/-- On a cycle every walk goes as far as it may. -/
theorem length_firstAncestors_of_isAncestor_self (hloop : t.IsAncestor id id) (limit : Nat) :
    (t.firstAncestors limit id).length = limit := by
  induction limit generalizing id with
  | zero => rfl
  | succ limit ih =>
    obtain ⟨parent, hlink, hrest⟩ := TransGen.head'_iff.mp hloop
    -- the parent lies on the same cycle
    have hparent : t.IsAncestor parent parent := TransGen.tail' hrest hlink
    rw [firstAncestors_succ limit hlink, List.length_cons, ih hparent]

theorem Ends.not_isAncestor_self (h : t.Ends id) : ¬ t.IsAncestor id id := by
  intro hloop
  obtain ⟨limit, hlt⟩ := h
  exact absurd (length_firstAncestors_of_isAncestor_self hloop limit) (by omega)

/-- Without a cycle above it, a walk meets nothing twice, nor its own start. -/
theorem nodup_firstAncestors (hfree : ∀ a, ReflTransGen t.Linked id a → ¬ t.IsAncestor a a)
    (limit : Nat) : (id :: t.firstAncestors limit id).Nodup := by
  induction limit generalizing id with
  | zero => simp [firstAncestors]
  | succ limit ih =>
    apply List.nodup_cons.mpr
    constructor
    · intro hmem
      exact hfree id ReflTransGen.refl (isAncestor_of_mem_firstAncestors hmem)
    · cases hparent : t.parent? id with
      | none => simp [firstAncestors_of_parent?_eq_none _ hparent]
      | some parent =>
        rw [firstAncestors_succ limit hparent]
        exact ih fun a ha => hfree a (ReflTransGen.head hparent ha)

/-- All that a walk leaves behind is registered; only where it stops may be not. -/
theorem isRegistered_of_mem_dropLast {limit : Nat}
    (h : a ∈ (id :: t.firstAncestors limit id).dropLast) : t.isRegistered a := by
  induction limit generalizing id with
  | zero => simp [firstAncestors] at h
  | succ limit ih =>
    cases hparent : t.parent? id with
    | none => simp [firstAncestors_of_parent?_eq_none _ hparent] at h
    | some parent =>
      rw [firstAncestors_succ limit hparent, List.dropLast_cons_cons] at h
      rcases List.mem_cons.mp h with rfl | h
      · exact isRegistered_of_linked hparent
      · exact ih h

theorem length_le_size_of_nodup {ids : List EntityId} (hnodup : ids.Nodup)
    (hreg : ∀ a ∈ ids, t.isRegistered a) : ids.length ≤ t.size := by
  have hinj : Function.Injective EntityId.raw := fun a b h => EntityId.ext h
  calc ids.length = (ids.map EntityId.raw).toFinset.card := by
        rw [List.toFinset_card_of_nodup (hnodup.map hinj), List.length_map]
    _ ≤ (Finset.range t.size).card := by
        apply Finset.card_le_card
        intro raw hraw
        obtain ⟨a, ha, rfl⟩ := List.mem_map.mp (List.mem_toFinset.mp hraw)
        exact Finset.mem_range.mpr (by simpa [isRegistered] using hreg a ha)
    _ = t.size := Finset.card_range t.size

/-- Without a cycle above `id`, its walk has at most as many steps as there are rows. -/
theorem length_firstAncestors_le_of_free
    (hfree : ∀ a, ReflTransGen t.Linked id a → ¬ t.IsAncestor a a) (limit : Nat) :
    (t.firstAncestors limit id).length ≤ t.size := by
  have hnodup := (nodup_firstAncestors hfree limit).sublist (List.dropLast_sublist _)
  have := length_le_size_of_nodup hnodup fun a ha => isRegistered_of_mem_dropLast ha
  simpa using this

/-- A walk ends exactly where there is no cycle above its start. -/
theorem ends_iff_free :
    t.Ends id ↔ ∀ a, ReflTransGen t.Linked id a → ¬ t.IsAncestor a a := by
  constructor
  · intro hends a ha
    rcases reflTransGen_iff_eq_or_transGen.mp ha with rfl | hanc
    · exact hends.not_isAncestor_self
    · exact (hends.of_isAncestor hanc).not_isAncestor_self
  · intro hfree
    exact ⟨t.size + 1, Nat.lt_succ_of_le (length_firstAncestors_le_of_free hfree _)⟩

/-- A table is acyclic exactly if all walks in it end. -/
theorem acyclic_iff_forall_ends : t.Acyclic ↔ ∀ id, t.Ends id := by
  constructor
  · intro h id
    exact ends_iff_free.mpr fun a _ => h a
  · intro h id
    exact (h id).not_isAncestor_self

theorem length_firstAncestors_le_size (h : t.Ends id) (limit : Nat) :
    (t.firstAncestors limit id).length ≤ t.size :=
  length_firstAncestors_le_of_free (ends_iff_free.mp h) limit

/-! ## 4. The list of all ancestors -/

theorem firstAncestors_eq_ancestors (h : t.Ends id) {limit : Nat} (hlimit : t.size ≤ limit) :
    t.firstAncestors limit id = t.ancestors id := by
  rw [ancestors, firstAncestors_eq_take hlimit]
  exact (List.take_of_length_le (length_firstAncestors_le_size h limit)).symm

theorem mem_ancestors (h : t.Ends id) : a ∈ t.ancestors id ↔ t.IsAncestor a id := by
  constructor
  · exact isAncestor_of_mem_firstAncestors
  · intro hanc
    obtain ⟨limit, hmem⟩ := exists_mem_firstAncestors hanc
    rw [firstAncestors_eq_take (Nat.le_add_right limit t.size)] at hmem
    rw [← firstAncestors_eq_ancestors h (Nat.le_add_left t.size limit)]
    exact List.mem_of_mem_take hmem

theorem ancestors_of_parent?_eq_none (h : t.parent? id = none) : t.ancestors id = [] :=
  firstAncestors_of_parent?_eq_none _ h

theorem ancestors_of_linked (hends : t.Ends id) (h : t.Linked id parent) :
    t.ancestors id = parent :: t.ancestors parent := by
  rw [← firstAncestors_eq_ancestors hends (Nat.le_succ t.size), firstAncestors_succ _ h]
  rfl

/-! ## 5. Searches that run until they settle -/

/-- Search upwards from `id` for a wanted ancestor, following at most `limit`
    links: `none` as long as the search is under way, then what it found. -/
def seek (t : Lineage) (wanted : EntityId → Bool) :
    (limit : Nat) → EntityId → Option (Option EntityId)
  | 0, _ => none
  | limit + 1, id =>
    match t.parent? id with
    | none => some none
    | some parent => if wanted parent then some (some parent) else t.seek wanted limit parent

/-- Linking as it runs: the search for `child` above `parent` follows at most
    `limit` links, and there is no answer while it is under way. -/
def linkWithin (t : Lineage) (limit : Nat) (child parent : EntityId) :
    Option (Except LinkError Lineage) :=
  if !t.isRegistered child then
    some (.error (.unknownEntity child))
  else if !t.isRegistered parent then
    some (.error (.unknownEntity parent))
  else if child = parent then
    some (.error (.cyclic child parent))
  else
    (t.seek (· = child) limit parent).map fun
      | some _ => .error (.cyclic child parent)
      | none =>
        match t.parent? child with
        | none => .ok (t.setParent child parent)
        | some existing =>
          if existing = parent then .ok t else .error (.alreadyAttached child existing)

/-- A search over a walk that stops short of the limit settles on the first
    wanted one that the walk meets. -/
theorem seek_eq_find? (wanted : EntityId → Bool) {limit : Nat}
    (hshort : (t.firstAncestors limit id).length < limit) :
    t.seek wanted limit id = some ((t.firstAncestors limit id).find? wanted) := by
  induction limit generalizing id with
  | zero => omega
  | succ limit ih =>
    cases hparent : t.parent? id with
    | none => simp [seek, firstAncestors_of_parent?_eq_none _ hparent, hparent]
    | some parent =>
      rw [firstAncestors_succ limit hparent] at hshort ⊢
      rw [seek, hparent, List.find?_cons]
      cases hwanted : wanted parent with
      | true => simp [hwanted]
      | false =>
        simp only [hwanted, Bool.false_eq_true, if_false]
        exact ih (by simpa using hshort)

theorem seek_of_ends (h : t.Ends id) (wanted : EntityId → Bool) :
    t.seek wanted (t.size + 1) id = some ((t.ancestors id).find? wanted) := by
  have hshort := Nat.lt_succ_of_le (length_firstAncestors_le_size h (t.size + 1))
  rw [seek_eq_find? wanted hshort, firstAncestors_eq_ancestors h (Nat.le_succ _)]

/-- Where the walk above `parent` ends, linking settles on what `link` says. -/
theorem linkWithin_of_ends (h : t.Ends parent) (child : EntityId) :
    t.linkWithin (t.size + 1) child parent = some (t.link child parent) := by
  unfold linkWithin link
  rw [seek_of_ends h]
  split
  · rfl
  split
  · rfl
  by_cases hself : child = parent
  · simp [hself]
  rw [if_neg hself, Option.map_some]
  by_cases hmem : child ∈ t.ancestors parent
  · obtain ⟨found, hfound⟩ : ∃ found, (t.ancestors parent).find? (· = child) = some found :=
      Option.isSome_iff_exists.mp (List.find?_isSome.mpr ⟨child, hmem, by simp⟩)
    rw [hfound, if_pos (Or.inr hmem)]
  · have hfound : (t.ancestors parent).find? (· = child) = none := by
      apply List.find?_eq_none.mpr
      intro a ha
      simp only [decide_eq_true_eq]
      rintro rfl
      exact hmem ha
    rw [hfound]
    exact congrArg some (if_neg (not_or.mpr ⟨hself, hmem⟩)).symm

end Declarations.Lineage
