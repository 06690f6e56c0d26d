/-
  Declarations/Proofs/Lineage/Linking.lean
  ========================================
  **What linking comes to.**

  A call of `link` on an acyclic table always comes back, and its answer is one of
  six, in this order (`Lineage.Decides`):

  1. the child has no row,
  2. the parent has no row,
  3. the link would close a cycle: the child is the parent, or above it,
  4. the child has this parent already, and nothing is to be done,
  5. the child has another parent,
  6. the child has none, and is given this one.

  Only the last writes to the table, and only to the row of the child.  Since no
  record of an acyclic table is its own ancestor, a link that is there already
  never looks like a cycle: the third case is about other links.
-/
import Declarations.Proofs.Lineage.Search

namespace Declarations.Lineage

open Relation

variable {t u : Lineage} {child parent : EntityId} {answered : Except LinkError Unit}
variable {limit : Nat}

/-! ## 1. One link more -/

/-- Tables with the same kinds and the same links are the same. -/
theorem eq_of_kind?_of_parent? (hkind : ∀ id, t.kind? id = u.kind? id)
    (hparent : ∀ id, t.parent? id = u.parent? id) : t = u := by
  obtain ⟨rows⟩ := t
  obtain ⟨rows'⟩ := u
  rw [mk.injEq]
  apply Array.ext_getElem?
  intro i
  have hkind := hkind ⟨i⟩
  have hparent := hparent ⟨i⟩
  simp only [kind?, parent?] at hkind hparent
  cases hrow : rows[i]? with
  | none =>
    rw [hrow, Option.map_none, eq_comm, Option.map_eq_none_iff] at hkind
    exact hkind.symm
  | some row =>
    rw [hrow, Option.map_some, eq_comm, Option.map_eq_some_iff] at hkind
    obtain ⟨row', hrow', hsame⟩ := hkind
    rw [hrow, hrow', Option.bind_some, Option.bind_some] at hparent
    rw [hrow']
    cases row
    cases row'
    simp_all

/-- `u` is `t`, except that the row of `child` names `parent`. -/
structure Redirects (t u : Lineage) (child parent : EntityId) : Prop where
  kind (id : EntityId) : u.kind? id = t.kind? id
  linked : u.Linked child parent
  other {id : EntityId} : id ≠ child → u.parent? id = t.parent? id

theorem redirects_setParent (hreg : t.isRegistered child) (parent : EntityId) :
    Redirects t (t.setParent child parent) child parent := by
  constructor
  case kind => exact kind?_setParent t child parent
  case linked =>
    obtain ⟨kind, hkind⟩ := exists_kind?_of_isRegistered hreg
    rw [Linked, parent?_setParent, if_pos rfl, hkind, Option.map_some]
  case other =>
    intro id hne
    rw [parent?_setParent, if_neg hne.symm]

theorem Redirects.eq_setParent (h : Redirects t u child parent) (hreg : t.isRegistered child) :
    u = t.setParent child parent := by
  have hnew := redirects_setParent hreg parent
  apply eq_of_kind?_of_parent?
  · intro id
    rw [h.kind, hnew.kind]
  · intro id
    by_cases hid : id = child
    · subst hid
      exact h.linked.trans hnew.linked.symm
    · rw [h.other hid, hnew.other hid]

theorem Redirects.size_eq (h : Redirects t u child parent) (hreg : t.isRegistered child) :
    u.size = t.size := by
  rw [h.eq_setParent hreg]
  simp [setParent, size]

/-! ## 2. The six outcomes -/

/-- A link that cannot be made: the child would be its own ancestor. -/
def Loops (t : Lineage) (child parent : EntityId) : Prop :=
  child = parent ∨ t.IsAncestor child parent

/-- What linking `child` under `parent` comes to: the answer, and the table after
    it.  The cases exclude each other, the earlier ones come first. -/
inductive Decides (t : Lineage) (child parent : EntityId) :
    Except LinkError Unit → Lineage → Prop where
  | unknownChild (hchild : ¬ t.isRegistered child) :
    Decides t child parent (.error (.unknownEntity child)) t
  | unknownParent (hchild : t.isRegistered child) (hparent : ¬ t.isRegistered parent) :
    Decides t child parent (.error (.unknownEntity parent)) t
  | cyclic (hchild : t.isRegistered child) (hparent : t.isRegistered parent)
    (hloop : t.Loops child parent) : Decides t child parent (.error (.cyclic child parent)) t
  | again (hchild : t.isRegistered child) (hparent : t.isRegistered parent)
    (hfree : ¬ t.Loops child parent) (hold : t.parent? child = some parent) :
    Decides t child parent (.ok ()) t
  | elsewhere {existing : EntityId} (hchild : t.isRegistered child)
    (hparent : t.isRegistered parent) (hfree : ¬ t.Loops child parent)
    (hold : t.parent? child = some existing) (hother : existing ≠ parent) :
    Decides t child parent (.error (.alreadyAttached child existing)) t
  | new {u : Lineage} (hchild : t.isRegistered child) (hparent : t.isRegistered parent)
    (hfree : ¬ t.Loops child parent) (hold : t.parent? child = none)
    (hafter : Redirects t u child parent) : Decides t child parent (.ok ()) u

theorem loops_iff (h : t.Ends parent) :
    t.Loops child parent ↔ child = parent ∨ child ∈ t.ancestors parent := by
  rw [Loops, mem_ancestors h]

/-- Some case applies, and it is what `link` says. -/
theorem decides_link (h : t.Ends parent) (child : EntityId) :
    t.Decides child parent (t.answer child parent) (t.apply (.link child parent)) := by
  cases hchild : t.isRegistered child with
  | false =>
    have hrefused : t.link child parent = .error (.unknownEntity child) := by simp [link, hchild]
    rw [answer, apply, hrefused]
    exact .unknownChild (by simp [hchild])
  | true =>
  cases hparent : t.isRegistered parent with
  | false =>
    have hrefused : t.link child parent = .error (.unknownEntity parent) := by
      simp [link, hchild, hparent]
    rw [answer, apply, hrefused]
    exact .unknownParent hchild (by simp [hparent])
  | true =>
  by_cases hloop : t.Loops child parent
  · have hrefused : t.link child parent = .error (.cyclic child parent) := by
      simp [link, hchild, hparent, (loops_iff h).mp hloop]
    rw [answer, apply, hrefused]
    exact .cyclic hchild hparent hloop
  · have hfree := mt (loops_iff h).mpr hloop
    cases hold : t.parent? child with
    | none =>
      have hgranted : t.link child parent = .ok (t.setParent child parent) := by
        simp [link, hchild, hparent, hfree, hold]
      rw [answer, apply, hgranted]
      exact .new hchild hparent hloop hold (redirects_setParent hchild parent)
    | some existing =>
      by_cases hsame : existing = parent
      · subst hsame
        have hgranted : t.link child existing = .ok t := by
          simp [link, hchild, hparent, hfree, hold]
        rw [answer, apply, hgranted]
        exact .again hchild hparent hloop hold
      · have hrefused : t.link child parent = .error (.alreadyAttached child existing) := by
          simp [link, hchild, hparent, hfree, hold, hsame]
        rw [answer, apply, hrefused]
        exact .elsewhere hchild hparent hloop hold hsame

/-- No more than one case applies. -/
theorem Decides.unique {answered' : Except LinkError Unit} {u' : Lineage}
    (h : t.Decides child parent answered u) (h' : t.Decides child parent answered' u') :
    answered = answered' ∧ u = u' := by
  cases h with
  | new hchild _ _ _ hafter =>
    cases h' with
    | new _ _ _ _ hafter' =>
      rw [hafter.eq_setParent hchild, hafter'.eq_setParent hchild]
      exact ⟨rfl, rfl⟩
    | _ => simp_all
  | _ => cases h' <;> simp_all

theorem run_linkInPlace_iff (h : t.Acyclic) (hlimit : t.size < limit) :
    (linkInPlace limit child parent).run t = some (answered, u) ↔
      t.Decides child parent answered u := by
  have hends : t.Ends parent := acyclic_iff_forall_ends.mp h parent
  have hlink := decides_link hends child
  rw [run_linkInPlace_of_size_lt hends hlimit]
  constructor
  · intro heq
    obtain ⟨rfl, rfl⟩ := Prod.mk.inj (Option.some.inj heq)
    exact hlink
  · intro hdecides
    obtain ⟨rfl, rfl⟩ := hlink.unique hdecides
    rfl

/-! ## 3. What an answer says of the table -/

theorem Decides.eq_of_error {error : LinkError}
    (h : t.Decides child parent (.error error) u) : u = t := by
  cases h <;> rfl

theorem Decides.size_eq (h : t.Decides child parent answered u) : u.size = t.size := by
  cases h with
  | new hchild _ _ _ hafter => exact hafter.size_eq hchild
  | _ => rfl

/-- A call that is granted changes no kind, and no link but that of the child. -/
theorem Decides.frame_of_ok (h : t.Decides child parent (.ok ()) u) :
    (∀ id, u.kind? id = t.kind? id) ∧ ∀ id, id ≠ child → u.parent? id = t.parent? id := by
  cases h with
  | again => exact ⟨fun _ => rfl, fun _ _ => rfl⟩
  | new _ _ _ _ hafter => exact ⟨hafter.kind, fun _ hne => hafter.other hne⟩

theorem Decides.linked_of_ok (h : t.Decides child parent (.ok ()) u) :
    u.Linked child parent ∧ u.isRegistered parent := by
  have hsize := h.size_eq
  cases h with
  | again _ hparent _ hold => exact ⟨hold, hparent⟩
  | new _ hparent _ _ hafter => exact ⟨hafter.linked, by rwa [isRegistered, hsize]⟩

theorem Decides.acyclic (ht : t.Acyclic) (h : t.Decides child parent answered u) :
    u.Acyclic := by
  have hends : t.Ends parent := acyclic_iff_forall_ends.mp ht parent
  rw [(h.unique (decides_link hends child)).2]
  exact ht.apply_link child parent

theorem Acyclic.not_loops (h : t.Acyclic) (hlinked : t.Linked child parent) :
    ¬ t.Loops child parent := by
  rintro (rfl | habove)
  · exact h _ (TransGen.single hlinked)
  · exact h _ (TransGen.head hlinked habove)

theorem Acyclic.not_loops_of_not_mem (h : t.Acyclic) (hne : child ≠ parent)
    (hnot : child ∉ t.ancestors parent) : ¬ t.Loops child parent := by
  rw [loops_iff (acyclic_iff_forall_ends.mp h parent)]
  exact not_or.mpr ⟨hne, hnot⟩

/-- What was granted once is granted again, and the second call changes nothing. -/
theorem Decides.repeat (ht : t.Acyclic) (h : t.Decides child parent (.ok ()) u) :
    u.Decides child parent (.ok ()) u := by
  obtain ⟨hlinked, hparent⟩ := h.linked_of_ok
  exact .again (isRegistered_of_linked hlinked) hparent ((h.acyclic ht).not_loops hlinked) hlinked

/-! ## 4. The whole call -/

/-- **Linking, case by case.**  On an acyclic table a call of `link` comes back as
    soon as its search may follow more links than there are rows, and its answer
    and the table after it are those of the six cases.  Refused, it has changed
    nothing; granted, at most the link of the child, and granted it is again when it
    is repeated, with no effect.  A link that is there is never taken for a cycle. -/
theorem link_decides (h : t.Acyclic) (child parent : EntityId) {limit : Nat}
    (hlimit : t.size < limit) :
    (linkInPlace limit child parent).run t =
      some (t.answer child parent, t.apply (.link child parent)) ∧
    (∀ answered u, (linkInPlace limit child parent).run t = some (answered, u) ↔
      t.Decides child parent answered u) ∧
    (∀ error u, (linkInPlace limit child parent).run t = some (.error error, u) → u = t) ∧
    (∀ u, (linkInPlace limit child parent).run t = some (.ok (), u) →
      (∀ id, u.kind? id = t.kind? id) ∧ (∀ id, id ≠ child → u.parent? id = t.parent? id) ∧
        (linkInPlace limit child parent).run u = some (.ok (), u)) ∧
    (t.Linked child parent → ∀ u,
      (linkInPlace limit child parent).run t ≠ some (.error (.cyclic child parent), u)) := by
  have hends : t.Ends parent := acyclic_iff_forall_ends.mp h parent
  have hrun : ∀ answered u, (linkInPlace limit child parent).run t = some (answered, u) ↔
      t.Decides child parent answered u := fun _ _ => run_linkInPlace_iff h hlimit
  refine ⟨run_linkInPlace_of_size_lt hends hlimit child, hrun, ?_, ?_, ?_⟩
  · intro error u herror
    exact ((hrun _ u).mp herror).eq_of_error
  · intro u hok
    have hdecides := (hrun _ u).mp hok
    obtain ⟨hkind, hother⟩ := hdecides.frame_of_ok
    refine ⟨hkind, hother, ?_⟩
    exact (run_linkInPlace_iff (hdecides.acyclic h) (hdecides.size_eq ▸ hlimit)).mpr
      (hdecides.repeat h)
  · intro hlinked u herror
    cases (hrun _ u).mp herror with
    | cyclic _ _ hloop => exact h.not_loops hlinked hloop

/-- A class in a module in a program, a variable below an identifier without a row,
    and a second module: all six cases on one table. -/
theorem link_decides_six_ways :
    ∃ t : Lineage, t = (∅ : Lineage).replay [.alloc .program, .attach .module ⟨0⟩,
        .attach .class ⟨1⟩, .attach .variable ⟨9⟩, .alloc .module] ∧ t.Acyclic ∧
      (linkInPlace 6 ⟨7⟩ ⟨0⟩).run t = some (.error (.unknownEntity ⟨7⟩), t) ∧
      (linkInPlace 6 ⟨3⟩ ⟨9⟩).run t = some (.error (.unknownEntity ⟨9⟩), t) ∧
      (linkInPlace 6 ⟨0⟩ ⟨2⟩).run t = some (.error (.cyclic ⟨0⟩ ⟨2⟩), t) ∧
      (linkInPlace 6 ⟨2⟩ ⟨1⟩).run t = some (.ok (), t) ∧
      (linkInPlace 6 ⟨3⟩ ⟨0⟩).run t = some (.error (.alreadyAttached ⟨3⟩ ⟨9⟩), t) ∧
      (linkInPlace 6 ⟨4⟩ ⟨0⟩).run t = some (.ok (), t.setParent ⟨4⟩ ⟨0⟩) := by
  refine ⟨_, rfl, ?_⟩
  have h : ((∅ : Lineage).replay [.alloc .program, .attach .module ⟨0⟩, .attach .class ⟨1⟩,
      .attach .variable ⟨9⟩, .alloc .module]).Acyclic :=
    ((((acyclic_empty.alloc .program).attach .module (by decide) (by decide)).attach .class
      (by decide) (by decide)).attach .variable (by decide) (by decide)).alloc .module
  have hsize : 5 < 6 := by decide
  have hrun := fun child parent => (link_decides h child parent hsize).2.1
  refine ⟨h, ?_, ?_, ?_, ?_, ?_, ?_⟩
  · exact (hrun _ _ _ _).mpr (.unknownChild (by decide))
  · exact (hrun _ _ _ _).mpr (.unknownParent (by decide) (by decide))
  · exact (hrun _ _ _ _).mpr
      (.cyclic (by decide) (by decide) (Or.inr (TransGen.tail (TransGen.single rfl) rfl)))
  · exact (hrun _ _ _ _).mpr (.again (by decide) (by decide) (h.not_loops rfl) rfl)
  · exact (hrun _ _ _ _).mpr
      (.elsewhere (by decide) (by decide) (h.not_loops_of_not_mem (by decide) (by decide)) rfl
        (by decide))
  · exact (hrun _ _ _ _).mpr
      (.new (by decide) (by decide) (h.not_loops_of_not_mem (by decide) (by decide)) rfl
        (redirects_setParent (by decide) _))

end Declarations.Lineage
