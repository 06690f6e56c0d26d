/-
  Declarations/Proofs/Lineage/LinkOrder.lean
  ==========================================
  **Links in any order.**

  A call of `link` searches the links that were made before it, so what a single
  call answers depends on the order of the calls.  What they come to together does
  not.  Let some pairs be `Lineage.Linkable`: all of them are registered, and every
  child occurs once and has no parent yet.  Then, in every order,

  * if the table with all the links is acyclic, each call is granted, and the last
    one leaves the table with all the links,
  * if it is not, some call is refused.  It is refused for the cycle and for nothing
    else, and no call leaves a cycle behind.

  The induction is over the calls still to be made.  A granted call moves its link
  from the list into the table, and the table with all the links stays what it was
  (`Redirects.linkedWith_iff`).
-/
import Declarations.Proofs.Lineage.Linking

namespace Declarations.Lineage

open Relation

variable {t u : Lineage} {child parent a b : EntityId} {limit : Nat}
variable {pairs rest order : List (EntityId × EntityId)}
variable {answered : Except LinkError Unit} {answers : List (Except LinkError Unit)}

/-! ## 1. Links to be made -/

/-- A call for each pair of a child and its parent, in order. -/
def linkAll (limit : Nat) (pairs : List (EntityId × EntityId)) :
    StateT Lineage Option (List (Except LinkError Unit)) :=
  pairs.mapM fun pair => linkInPlace limit pair.1 pair.2

/-- Registered pairs, whose children are different and have no parent yet. -/
structure Linkable (t : Lineage) (pairs : List (EntityId × EntityId)) : Prop where
  registered {pair : EntityId × EntityId} :
    pair ∈ pairs → t.isRegistered pair.1 ∧ t.isRegistered pair.2
  distinct : (pairs.map Prod.fst).Nodup
  free {pair : EntityId × EntityId} : pair ∈ pairs → t.parent? pair.1 = none

/-- Linked in the table, or a pair of the list. -/
def LinkedWith (t : Lineage) (pairs : List (EntityId × EntityId)) (child parent : EntityId) :
    Prop :=
  t.Linked child parent ∨ (child, parent) ∈ pairs

/-- The table together with all links of the list has no cycle. -/
def AcyclicWith (t : Lineage) (pairs : List (EntityId × EntityId)) : Prop :=
  ∀ id, ¬ TransGen (t.LinkedWith pairs) id id

theorem Linkable.tail {pair : EntityId × EntityId} (h : t.Linkable (pair :: rest)) :
    t.Linkable rest where
  registered hmem := h.registered (List.mem_cons_of_mem _ hmem)
  distinct := (List.nodup_cons.mp h.distinct).2
  free hmem := h.free (List.mem_cons_of_mem _ hmem)

theorem Linkable.perm (h : t.Linkable pairs) (hperm : order.Perm pairs) : t.Linkable order where
  registered hmem := h.registered (hperm.mem_iff.mp hmem)
  distinct := (hperm.map Prod.fst).nodup_iff.mpr h.distinct
  free hmem := h.free (hperm.mem_iff.mp hmem)

theorem linkedWith_perm (t : Lineage) (hperm : order.Perm pairs) :
    t.LinkedWith order = t.LinkedWith pairs := by
  funext a b
  rw [LinkedWith, hperm.mem_iff, LinkedWith]

theorem linkedWith_nil (t : Lineage) : t.LinkedWith [] = t.Linked := by
  funext a b
  simp [LinkedWith]

/-- Links that all lead to a smaller number close no cycle. -/
theorem acyclicWith_of_raw_lt (h : ∀ a b, t.LinkedWith pairs a b → b.raw < a.raw) :
    t.AcyclicWith pairs := by
  have hpath : ∀ {a b}, TransGen (t.LinkedWith pairs) a b → b.raw < a.raw := by
    intro a b hpath
    induction hpath with
    | single hlink => exact h _ _ hlink
    | tail _ hlink ih => exact Nat.lt_trans (h _ _ hlink) ih
  exact fun id hloop => Nat.lt_irrefl _ (hpath hloop)

/-- A call that would be refused for a cycle closes one among all the links. -/
theorem not_acyclicWith_of_loops (hloop : t.Loops child parent) (hmem : (child, parent) ∈ pairs) :
    ¬ t.AcyclicWith pairs := by
  intro hacyclic
  have hlink : t.LinkedWith pairs child parent := Or.inr hmem
  rcases hloop with rfl | habove
  · exact hacyclic _ (TransGen.single hlink)
  · have habove : TransGen (t.LinkedWith pairs) parent child :=
      TransGen.mono (fun _ _ hold => Or.inl hold) _ _ habove
    exact hacyclic _ (TransGen.head hlink habove)

/-! ## 2. One call of several -/

/-- A link that has been made is in the table and no longer in the list. -/
theorem Redirects.linkedWith_iff (h : Redirects t u child parent) (hfree : t.parent? child = none) :
    u.LinkedWith rest = t.LinkedWith ((child, parent) :: rest) := by
  funext a b
  by_cases ha : a = child
  · subst ha
    have hlinked := h.linked
    simp only [LinkedWith, Linked, List.mem_cons, Prod.mk.injEq, true_and] at hlinked ⊢
    simp [hlinked, hfree, eq_comm]
  · simp [LinkedWith, Linked, h.other ha, ha]

/-- While only such pairs are linked, a call is granted or refused for a cycle. -/
theorem Linkable.decides_cases (h : t.Linkable ((child, parent) :: rest))
    (hdecides : t.Decides child parent answered u) :
    (t.Loops child parent ∧ answered = .error (.cyclic child parent) ∧ u = t) ∨
      (answered = .ok () ∧ Redirects t u child parent) := by
  obtain ⟨hchild, hparent⟩ := h.registered List.mem_cons_self
  have hfree : t.parent? child = none := h.free List.mem_cons_self
  cases hdecides with
  | unknownChild hnot => exact absurd hchild hnot
  | unknownParent _ hnot => exact absurd hparent hnot
  | cyclic _ _ hloop => exact Or.inl ⟨hloop, rfl, rfl⟩
  | again _ _ _ hold => exact absurd (hfree.symm.trans hold) (by simp)
  | elsewhere _ _ _ hold => exact absurd (hfree.symm.trans hold) (by simp)
  | new _ _ _ _ hafter => exact Or.inr ⟨rfl, hafter⟩

theorem Linkable.redirects (h : t.Linkable ((child, parent) :: rest))
    (hafter : Redirects t u child parent) : u.Linkable rest := by
  have hchild : t.isRegistered child := (h.registered List.mem_cons_self).1
  constructor
  case registered =>
    intro pair hmem
    rw [isRegistered, isRegistered, hafter.size_eq hchild]
    exact h.tail.registered hmem
  case distinct => exact h.tail.distinct
  case free =>
    intro pair hmem
    -- the child that was linked occurs in no other pair
    have hne : pair.1 ≠ child := by
      intro heq
      apply (List.nodup_cons.mp h.distinct).1
      simpa only [heq] using List.mem_map_of_mem (f := Prod.fst) hmem
    rw [hafter.other hne]
    exact h.tail.free hmem

theorem run_linkAll_cons
    (hfirst : (linkInPlace limit child parent).run t = some (answered, u)) :
    (linkAll limit ((child, parent) :: rest)).run t =
      ((linkAll limit rest).run u).map fun later => (answered :: later.1, later.2) := by
  simp only [linkAll, List.mapM_cons, StateT.run_bind, hfirst, Option.bind_eq_bind,
    Option.bind_some]
  cases (rest.mapM fun pair => linkInPlace limit pair.1 pair.2).run u <;> rfl

/-! ## 3. All calls -/

/-- What the calls for all pairs come to: the answers, and the table after the last. -/
structure LinksAll (t : Lineage) (pairs : List (EntityId × EntityId))
    (answers : List (Except LinkError Unit)) (u : Lineage) : Prop where
  kind (id : EntityId) : u.kind? id = t.kind? id
  acyclic : u.Acyclic
  answered : List.Forall₂ (fun pair answer => answer = .ok () ∨
    answer = .error (.cyclic pair.1 pair.2)) pairs answers
  -- without a cycle all is granted, and all links are there
  granted : t.AcyclicWith pairs →
    answers = pairs.map (fun _ => .ok ()) ∧ u.Linked = t.LinkedWith pairs
  refused : ¬ t.AcyclicWith pairs → ∃ error, .error error ∈ answers

theorem Acyclic.linksAll_nil (h : t.Acyclic) : LinksAll t [] [] t where
  kind _ := rfl
  acyclic := h
  answered := .nil
  granted _ := ⟨rfl, (linkedWith_nil t).symm⟩
  refused hnot := absurd (by rwa [AcyclicWith, linkedWith_nil]) hnot

theorem LinksAll.cons_refused (hrest : LinksAll t rest answers u) (hloop : t.Loops child parent) :
    LinksAll t ((child, parent) :: rest) (.error (.cyclic child parent) :: answers) u where
  kind := hrest.kind
  acyclic := hrest.acyclic
  answered := .cons (Or.inr rfl) hrest.answered
  granted hacyclic := absurd hacyclic (not_acyclicWith_of_loops hloop List.mem_cons_self)
  refused _ := ⟨_, List.mem_cons_self⟩

theorem LinksAll.cons_granted {t' : Lineage} (hrest : LinksAll t' rest answers u)
    (hafter : Redirects t t' child parent) (hfree : t.parent? child = none) :
    LinksAll t ((child, parent) :: rest) (.ok () :: answers) u := by
  have hlinked : t'.LinkedWith rest = t.LinkedWith ((child, parent) :: rest) :=
    hafter.linkedWith_iff hfree
  have hacyclic : t'.AcyclicWith rest ↔ t.AcyclicWith ((child, parent) :: rest) := by
    rw [AcyclicWith, hlinked, AcyclicWith]
  constructor
  case kind =>
    intro id
    rw [hrest.kind, hafter.kind]
  case acyclic => exact hrest.acyclic
  case answered => exact .cons (Or.inl rfl) hrest.answered
  case granted =>
    intro h
    obtain ⟨hanswers, hall⟩ := hrest.granted (hacyclic.mpr h)
    exact ⟨by rw [hanswers, List.map_cons], hall.trans hlinked⟩
  case refused =>
    intro hnot
    obtain ⟨error, hmem⟩ := hrest.refused (mt hacyclic.mp hnot)
    exact ⟨error, List.mem_cons_of_mem _ hmem⟩

/-- The calls for all pairs come back, whatever the order of the pairs. -/
theorem exists_linksAll (h : t.Acyclic) (hpairs : t.Linkable pairs) (hlimit : t.size < limit) :
    ∃ answers u, (linkAll limit pairs).run t = some (answers, u) ∧
      LinksAll t pairs answers u := by
  induction pairs generalizing t with
  | nil => exact ⟨[], t, rfl, h.linksAll_nil⟩
  | cons pair rest ih =>
    obtain ⟨child, parent⟩ := pair
    have hends : t.Ends parent := acyclic_iff_forall_ends.mp h parent
    have hfirst := run_linkInPlace_of_size_lt hends hlimit child
    have hdecides := decides_link hends child
    have hsize := hdecides.size_eq
    have hacyclic := hdecides.acyclic h
    rw [run_linkAll_cons hfirst]
    rcases hpairs.decides_cases hdecides with ⟨hloop, hanswer, hsame⟩ | ⟨hanswer, hafter⟩
    · rw [hanswer, hsame]
      obtain ⟨answers, u, hrun, hrest⟩ := ih h hpairs.tail hlimit
      exact ⟨_, u, by rw [hrun, Option.map_some], hrest.cons_refused hloop⟩
    · rw [hanswer]
      obtain ⟨answers, u, hrun, hrest⟩ := ih hacyclic (hpairs.redirects hafter) (hsize ▸ hlimit)
      exact ⟨_, u, by rw [hrun, Option.map_some],
        hrest.cons_granted hafter (hpairs.free List.mem_cons_self)⟩

/-- **The order of the calls does not matter.**  If the table with all links is
    acyclic, then in every order all calls are granted, and all orders end in the
    same table.  If it is not, then in every order some call is refused, each refused
    one for its cycle, and the table at the end is acyclic. -/
theorem linkAll_perm (h : t.Acyclic) (hpairs : t.Linkable pairs) {limit : Nat}
    (hlimit : t.size < limit) :
    (t.AcyclicWith pairs → ∃ u, ∀ order, order.Perm pairs →
      (linkAll limit order).run t = some (order.map fun _ => .ok (), u)) ∧
    (¬ t.AcyclicWith pairs → ∀ order, order.Perm pairs →
      ∃ answers u, (linkAll limit order).run t = some (answers, u) ∧
        (∃ error, .error error ∈ answers) ∧
        List.Forall₂ (fun pair answer => answer = .ok () ∨
          answer = .error (.cyclic pair.1 pair.2)) order answers ∧
        u.Acyclic) := by
  have hall : ∀ order, order.Perm pairs → ∃ answers u,
      (linkAll limit order).run t = some (answers, u) ∧ LinksAll t order answers u :=
    fun order hperm => exists_linksAll h (hpairs.perm hperm) hlimit
  have hsame : ∀ order, order.Perm pairs → (t.AcyclicWith order ↔ t.AcyclicWith pairs) := by
    intro order hperm
    rw [AcyclicWith, linkedWith_perm t hperm, AcyclicWith]
  constructor
  · intro hacyclic
    obtain ⟨answers, u, -, hlinks⟩ := hall pairs (.refl _)
    refine ⟨u, ?_⟩
    intro order hperm
    obtain ⟨answers', u', hrun', hlinks'⟩ := hall order hperm
    obtain ⟨rfl, hlinked'⟩ := hlinks'.granted ((hsame order hperm).mpr hacyclic)
    -- both tables have the kinds of `t`, and all the links
    have hlinked : u'.Linked = u.Linked := by
      rw [hlinked', linkedWith_perm t hperm, (hlinks.granted hacyclic).2]
    have htable : u' = u := by
      apply eq_of_kind?_of_parent?
      · intro id
        rw [hlinks'.kind, hlinks.kind]
      · intro id
        apply Option.ext
        intro parent
        exact iff_of_eq (congrFun (congrFun hlinked id) parent)
    rw [hrun', htable]
  · intro hcyclic order hperm
    obtain ⟨answers, u, hrun, hlinks⟩ := hall order hperm
    exact ⟨answers, u, hrun, hlinks.refused (mt (hsame order hperm).mp hcyclic), hlinks.answered,
      hlinks.acyclic⟩

/-- A module in a program, a class and a method.  The method can be linked below the
    class and the class below the module in both orders; the program below the class
    and the class below the module in none. -/
theorem linkAll_perm_class_and_method :
    ∃ t : Lineage, t = (∅ : Lineage).replay [.alloc .program, .attach .module ⟨0⟩, .alloc .class,
        .alloc .method] ∧ t.Acyclic ∧
      t.Linkable [(⟨3⟩, ⟨2⟩), (⟨2⟩, ⟨1⟩)] ∧ t.AcyclicWith [(⟨3⟩, ⟨2⟩), (⟨2⟩, ⟨1⟩)] ∧
      (∃ u, ∀ order, order.Perm [(⟨3⟩, ⟨2⟩), (⟨2⟩, ⟨1⟩)] →
        (linkAll 5 order).run t = some (order.map fun _ => .ok (), u)) ∧
      t.Linkable [(⟨0⟩, ⟨2⟩), (⟨2⟩, ⟨1⟩)] ∧ ¬ t.AcyclicWith [(⟨0⟩, ⟨2⟩), (⟨2⟩, ⟨1⟩)] ∧
      ∀ order, order.Perm [(⟨0⟩, ⟨2⟩), (⟨2⟩, ⟨1⟩)] →
        ∃ answers u, (linkAll 5 order).run t = some (answers, u) ∧
          (∃ error, .error error ∈ answers) ∧
          List.Forall₂ (fun pair answer => answer = .ok () ∨
            answer = .error (.cyclic pair.1 pair.2)) order answers ∧
          u.Acyclic := by
  refine ⟨_, rfl, ?_⟩
  generalize ht : (∅ : Lineage).replay [.alloc .program, .attach .module ⟨0⟩, .alloc .class,
    .alloc .method] = t
  have h : t.Acyclic := by
    rw [← ht]
    exact (((acyclic_empty.alloc .program).attach .module (by decide) (by decide)).alloc
      .class).alloc .method
  have hsize : t.size < 5 := by
    rw [← ht]
    decide
  have hlinked : ∀ {a b}, t.Linked a b → a = ⟨1⟩ ∧ b = ⟨0⟩ := by
    intro a b hlink
    rw [← ht] at hlink
    change (((((∅ : Lineage).alloc .program).2.attach .module ⟨0⟩).2.alloc .class).2.alloc
      .method).2.parent? a = some b at hlink
    rw [parent?_alloc, parent?_alloc, parent?_attach, parent?_alloc] at hlink
    split at hlink
    next ha => exact ⟨ha, (Option.some.inj hlink).symm⟩
    next => cases hlink
  have hgood : t.Linkable [(⟨3⟩, ⟨2⟩), (⟨2⟩, ⟨1⟩)] := by
    rw [← ht]
    exact ⟨fun {pair} => by revert pair; decide, by decide, fun {pair} => by revert pair; decide⟩
  have hbad : t.Linkable [(⟨0⟩, ⟨2⟩), (⟨2⟩, ⟨1⟩)] := by
    rw [← ht]
    exact ⟨fun {pair} => by revert pair; decide, by decide, fun {pair} => by revert pair; decide⟩
  have hfree : t.AcyclicWith [(⟨3⟩, ⟨2⟩), (⟨2⟩, ⟨1⟩)] := by
    apply acyclicWith_of_raw_lt
    rintro a b (hlink | hmem)
    · obtain ⟨rfl, rfl⟩ := hlinked hlink
      decide
    · simp only [List.mem_cons, Prod.mk.injEq, List.not_mem_nil, or_false] at hmem
      rcases hmem with ⟨rfl, rfl⟩ | ⟨rfl, rfl⟩ <;> decide
  have hloop : ¬ t.AcyclicWith [(⟨0⟩, ⟨2⟩), (⟨2⟩, ⟨1⟩)] := by
    intro hacyclic
    have hprogram : t.LinkedWith [(⟨0⟩, ⟨2⟩), (⟨2⟩, ⟨1⟩)] ⟨0⟩ ⟨2⟩ := Or.inr (by decide)
    have hclass : t.LinkedWith [(⟨0⟩, ⟨2⟩), (⟨2⟩, ⟨1⟩)] ⟨2⟩ ⟨1⟩ := Or.inr (by decide)
    have hmodule : t.Linked ⟨1⟩ ⟨0⟩ := by
      rw [← ht]
      rfl
    exact hacyclic ⟨0⟩ (((TransGen.single hprogram).tail hclass).tail (Or.inl hmodule))
  exact ⟨h, hgood, hfree, (linkAll_perm h hgood hsize).1 hfree, hbad, hloop,
    (linkAll_perm h hbad hsize).2 hloop⟩

end Declarations.Lineage
