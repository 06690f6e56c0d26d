/-
  Declarations/Proofs/Lineage/Acyclicity.lean
  ===========================================
  **Acyclic tables: what keeps them so, and how far walks go in them.**

  From an acyclic table, whatever its links, `alloc` and `link` lead to an acyclic
  one.  A call of `attach` does so exactly if the new identifier is neither the
  parent that it names nor an ancestor of it.  A registered parent alone is not
  enough for that: it can stand below a link that dangles, and the new row may be
  the one that the link dangles to.

  No link dangles in a table whose calls of `attach` have all named registered
  parents (`NoDangling`).  There the new identifier is nobody's ancestor, so such
  runs stay acyclic.

  In an acyclic table every walk ends, meets nothing twice nor its own start,
  leaves registered records only, and has at most one step for each row
  (`FiniteWalk`).
-/
import Declarations.Proofs.Lineage.Calls

namespace Declarations.Lineage

open Relation

variable {t : Lineage} {a id : EntityId} {call : Call} {calls : List Call}

/-! ## 1. Tables without dangling links -/

/-- Every parent that is written down has a row. -/
def NoDangling (t : Lineage) : Prop :=
  ∀ child parent, t.Linked child parent → t.isRegistered parent

/-- Each call of `attach` in a run from `t` names a parent that has a row by then. -/
def AttachesToRegistered (t : Lineage) (calls : List Call) : Prop :=
  ∀ earlier kind parent later, calls = earlier ++ .attach kind parent :: later →
    (t.replay earlier).isRegistered parent

theorem noDangling_empty : (∅ : Lineage).NoDangling := by
  intro child parent hlink
  exact absurd hlink (by simp [Linked, parent?, EmptyCollection.emptyCollection, empty])

theorem NoDangling.isRegistered (h : t.NoDangling) (hanc : t.IsAncestor a id) :
    t.isRegistered a := by
  obtain ⟨child, -, hlink⟩ := TransGen.tail'_iff.mp hanc
  exact h child a hlink

theorem not_isRegistered_next (t : Lineage) : ¬ t.isRegistered t.next :=
  fun h => next_ne_of_isRegistered h rfl

theorem NoDangling.not_closesCycle (h : t.NoDangling)
    (hcall : ∀ kind parent, call = .attach kind parent → t.isRegistered parent) :
    ¬ t.ClosesCycle call := by
  cases call with
  | attach kind parent =>
    rintro (hself | habove)
    · exact not_isRegistered_next t (hself ▸ hcall kind parent rfl)
    · exact not_isRegistered_next t (h.isRegistered habove)
  | alloc _ => exact not_false
  | link _ _ => exact not_false

theorem isRegistered_apply (h : t.isRegistered id) (call : Call) :
    (t.apply call).isRegistered id := by
  have hsize : t.size ≤ (t.apply call).size := by
    cases call with
    | alloc kind => simp [apply, alloc, size]
    | attach kind parent => simp [apply, attach, size]
    | link child parent =>
      rcases apply_link_cases t child parent with hsame | ⟨-, -, -, -, hnew⟩
      · rw [hsame]
      · simp [hnew, setParent, size]
  exact decide_eq_true (Nat.lt_of_lt_of_le (of_decide_eq_true h) hsize)

theorem NoDangling.apply (h : t.NoDangling)
    (hcall : ∀ kind parent, call = .attach kind parent → t.isRegistered parent) :
    (t.apply call).NoDangling := by
  intro child parent hlink
  apply isRegistered_apply
  cases call with
  | alloc kind => exact h child parent ((linked_alloc_iff t kind child parent).mp hlink)
  | attach kind target =>
    rcases (addsLink_attach t kind target child parent).mp hlink with hold | ⟨-, rfl⟩
    · exact h child parent hold
    · exact hcall kind parent rfl
  | link source target =>
    cases hgranted : t.link source target with
    | error _ => exact h child parent (by simpa [Lineage.apply, hgranted] using hlink)
    | ok linked =>
      have happly : t.apply (.link source target) = linked := by simp [Lineage.apply, hgranted]
      rw [happly] at hlink
      obtain ⟨hsource, htarget, -, -, ⟨hfree, rfl⟩ | ⟨-, rfl⟩⟩ := link_eq_ok_iff.mp hgranted
      · rcases (addsLink_setParent hsource hfree target child parent).mp hlink with hold | ⟨-, rfl⟩
        · exact h child parent hold
        · exact htarget
      · exact h child parent hlink

/-- A run that names registered parents only stays acyclic, and no link dangles. -/
theorem Acyclic.replay (h : t.Acyclic) (hdangling : t.NoDangling)
    (hcalls : t.AttachesToRegistered calls) :
    (t.replay calls).Acyclic ∧ (t.replay calls).NoDangling := by
  induction calls generalizing t with
  | nil => exact ⟨h, hdangling⟩
  | cons call rest ih =>
    have hcall : ∀ kind parent, call = .attach kind parent → t.isRegistered parent := by
      rintro kind parent rfl
      exact hcalls [] kind parent rest rfl
    have hrest : (t.apply call).AttachesToRegistered rest := by
      rintro earlier kind parent later rfl
      exact hcalls (call :: earlier) kind parent later rfl
    have hnext : (t.apply call).Acyclic := acyclic_apply_iff.mpr ⟨h, hdangling.not_closesCycle hcall⟩
    exact ih hnext (hdangling.apply hcall) hrest

/-! ## 2. Walks in an acyclic table -/

/-- The walk upwards from `id` is finite, and `ancestors` is all of it. -/
structure FiniteWalk (t : Lineage) (id : EntityId) : Prop where
  ends : t.Ends id
  -- a walk that may go further meets nothing else
  whole {limit : Nat} : t.size ≤ limit → t.firstAncestors limit id = t.ancestors id
  nodup : (t.ancestors id).Nodup
  not_self : id ∉ t.ancestors id
  -- only the last ancestor may be without a row
  registered {a : EntityId} : a ∈ (t.ancestors id).dropLast → t.isRegistered a
  length_le : (t.ancestors id).length ≤ t.size

theorem Acyclic.finiteWalk (h : t.Acyclic) (id : EntityId) : t.FiniteWalk id := by
  have hends : t.Ends id := acyclic_iff_forall_ends.mp h id
  have hnodup : (id :: t.ancestors id).Nodup :=
    nodup_firstAncestors (ends_iff_free.mp hends) t.size
  constructor
  case ends => exact hends
  case whole => exact fun hlimit => firstAncestors_eq_ancestors hends hlimit
  case nodup => exact (List.nodup_cons.mp hnodup).2
  case not_self => exact (List.nodup_cons.mp hnodup).1
  case registered =>
    intro a hmem
    have hne : t.ancestors id ≠ [] := by
      intro hnil
      simp [hnil] at hmem
    have hwalk : a ∈ (id :: t.ancestors id).dropLast := by
      rw [List.dropLast_cons_of_ne_nil hne]
      exact List.mem_cons_of_mem id hmem
    exact isRegistered_of_mem_dropLast hwalk
  case length_le => exact length_firstAncestors_le_size hends t.size

/-! ## 3. The laws of acyclic tables -/

/-- **What keeps a table acyclic.**  Every call but `attach` does, and a call of
    `attach` exactly if its new identifier is neither the named parent nor above
    it.  Every run in which `attach` names registered parents does.  And in an
    acyclic table every walk upwards is finite. -/
theorem acyclic_calls :
    (∀ t : Lineage, t.Acyclic →
      (∀ kind, (t.alloc kind).2.Acyclic) ∧
      (∀ child parent, (t.apply (.link child parent)).Acyclic) ∧
      (∀ kind parent, (t.attach kind parent).2.Acyclic ↔
        t.next ≠ parent ∧ t.next ∉ t.ancestors parent) ∧
      (∀ id, t.FiniteWalk id)) ∧
    (∀ calls, (∅ : Lineage).AttachesToRegistered calls → ((∅ : Lineage).replay calls).Acyclic) ∧
    (∀ (t : Lineage) (calls : List Call), t.Acyclic → t.NoDangling →
      t.AttachesToRegistered calls → (t.replay calls).Acyclic) := by
  refine ⟨?_, ?_, ?_⟩
  · intro t h
    refine ⟨?_, h.apply_link, ?_, h.finiteWalk⟩
    · intro kind
      exact (acyclic_congr (linked_alloc_iff t kind)).mpr h
    · intro kind parent
      rw [(addsLink_attach t kind parent).acyclic_iff,
        mem_ancestors (acyclic_iff_forall_ends.mp h parent)]
      simp [h, eq_comm]
  · intro calls hcalls
    exact (acyclic_empty.replay noDangling_empty hcalls).1
  · intro t calls h hdangling hcalls
    exact (h.replay hdangling hcalls).1

/-- A table with a dangling parent: `attach` to the registered row below it closes
    a cycle, and to a parent without a row, other than the new one, it does not. -/
theorem acyclic_attach_below_dangling :
    ((∅ : Lineage).replay [.attach .class ⟨1⟩]).Acyclic ∧
      ((∅ : Lineage).replay [.attach .class ⟨1⟩]).isRegistered ⟨0⟩ ∧
      ¬ (((∅ : Lineage).replay [.attach .class ⟨1⟩]).attach .method ⟨0⟩).2.Acyclic ∧
      (((∅ : Lineage).replay [.attach .class ⟨1⟩]).attach .method ⟨7⟩).2.Acyclic ∧
      ((∅ : Lineage).replay [.alloc .class, .attach .method ⟨0⟩]).Acyclic := by
  have hstart : ((∅ : Lineage).replay [.attach .class ⟨1⟩]).Acyclic := by
    have hattach := ((acyclic_calls.1 ∅ acyclic_empty).2.2.1 .class ⟨1⟩).mpr
    exact hattach ⟨by decide, by decide⟩
  have hnext := (acyclic_calls.1 _ hstart).2.2.1 .method
  refine ⟨hstart, by decide, ?_, (hnext ⟨7⟩).mpr ⟨by decide, by decide⟩, ?_⟩
  · intro hacyclic
    exact ((hnext ⟨0⟩).mp hacyclic).2 (by decide)
  · apply acyclic_calls.2.1
    rintro earlier kind parent later heq
    obtain ⟨rfl, rfl⟩ : earlier = [.alloc .class] ∧ parent = ⟨0⟩ := by
      rcases earlier with _ | ⟨first, _ | ⟨second, rest⟩⟩ <;> simp_all
    decide

end Declarations.Lineage
