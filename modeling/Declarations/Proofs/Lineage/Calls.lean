/-
  Declarations/Proofs/Lineage/Calls.lean
  ======================================
  **Tables under any order of calls: when a cycle appears.**

  A table grows by three calls, in any order and with any identifiers.  Each of
  them adds one link at most, and never takes one away:

  * `alloc` adds none,
  * `link` adds one only after the search above its target has not met the child,
    so on an acyclic table it closes no cycle, whatever its arguments,
  * `attach` adds one unseen.  Its new identifier is already an ancestor of the
    target if an earlier call of `attach` named it before it had a row; then, and
    if the target is the new identifier itself, the new link closes a cycle.

  Hence the exact condition (`grounded_replay_iff`): the table stays acyclic, and
  every walk, search and link in it comes to an answer, if and only if no call of
  `attach` in the run names its own new identifier or something below it.  A run
  is followed past its first cycle too; no later call takes the cycle back.
-/
import Declarations.Proofs.Lineage.Ancestors

namespace Declarations.Lineage

open Relation

variable {t u : Lineage} {a b id child parent : EntityId} {kind : Kind}

/-! ## 1. Calls -/

/-- A call that may change a table. -/
inductive Call where
  | alloc (kind : Kind)
  | attach (kind : Kind) (parent : EntityId)
  | link (child parent : EntityId)
deriving DecidableEq, Repr

/-- The table after a call.  A refused link leaves it as it was. -/
def apply (t : Lineage) : Call → Lineage
  | .alloc kind => (t.alloc kind).2
  | .attach kind parent => (t.attach kind parent).2
  | .link child parent =>
    match t.link child parent with
    | .ok linked => linked
    | .error _ => t

def replay (t : Lineage) (calls : List Call) : Lineage := calls.foldl apply t

@[simp] theorem replay_nil (t : Lineage) : t.replay [] = t := rfl

@[simp] theorem replay_concat (t : Lineage) (calls : List Call) (call : Call) :
    t.replay (calls ++ [call]) = (t.replay calls).apply call := by
  simp [replay]

/-! ## 2. One more link -/

/-- `u` has the links of `t` and one from `child` to `parent`, and no other. -/
def AddsLink (t u : Lineage) (child parent : EntityId) : Prop :=
  ∀ a b, u.Linked a b ↔ t.Linked a b ∨ (a = child ∧ b = parent)

/-- An ancestor along the new link was one before, or stands above its target
    for a record that stands below its source. -/
theorem AddsLink.isAncestor_split (h : AddsLink t u child parent) (hanc : u.IsAncestor a id) :
    t.IsAncestor a id ∨
      ((id = child ∨ t.IsAncestor child id) ∧ (a = parent ∨ t.IsAncestor a parent)) := by
  induction hanc with
  | single hlink =>
    rcases (h _ _).mp hlink with hold | ⟨rfl, rfl⟩
    · exact Or.inl (TransGen.single hold)
    · exact Or.inr ⟨Or.inl rfl, Or.inl rfl⟩
  | tail _ hlink ih =>
    rcases (h _ _).mp hlink with hold | ⟨rfl, rfl⟩
    · refine ih.imp (TransGen.tail · hold) fun ⟨hbelow, habove⟩ => ⟨hbelow, Or.inr ?_⟩
      rcases habove with rfl | habove
      · exact TransGen.single hold
      · exact TransGen.tail habove hold
    · exact Or.inr ⟨ih.elim Or.inr And.left, Or.inl rfl⟩

theorem AddsLink.isAncestor_of_isAncestor (h : AddsLink t u child parent)
    (hanc : t.IsAncestor a id) : u.IsAncestor a id :=
  TransGen.mono (fun a b hold => (h a b).mpr (Or.inl hold)) id a hanc

/-- One more link keeps a table acyclic exactly if it leads neither to its own
    source nor to a record below it. -/
theorem AddsLink.acyclic_iff (h : AddsLink t u child parent) :
    u.Acyclic ↔ t.Acyclic ∧ parent ≠ child ∧ ¬ t.IsAncestor child parent := by
  constructor
  · intro hu
    have hnew : u.Linked child parent := (h _ _).mpr (Or.inr ⟨rfl, rfl⟩)
    refine ⟨?_, ?_, ?_⟩
    · intro id hloop
      exact hu id (h.isAncestor_of_isAncestor hloop)
    · rintro rfl
      exact hu _ (TransGen.single hnew)
    · intro hanc
      exact hu _ (TransGen.head hnew (h.isAncestor_of_isAncestor hanc))
  · rintro ⟨ht, hne, hnot⟩ id hloop
    rcases h.isAncestor_split hloop with hold | ⟨hbelow, habove⟩
    · exact ht id hold
    · -- the cycle leads from `id` up to `child`, over the new link and back to `id`
      rcases hbelow with rfl | hbelow <;> rcases habove with rfl | habove
      · exact hne rfl
      · exact hnot habove
      · exact hnot hbelow
      · exact hnot (hbelow.trans habove)

theorem acyclic_congr (h : ∀ a b, u.Linked a b ↔ t.Linked a b) : u.Acyclic ↔ t.Acyclic := by
  have hlinked : u.Linked = t.Linked := by
    funext a b
    exact propext (h a b)
  simp only [Acyclic, IsAncestor, hlinked]

/-! ## 3. The links after each call -/

theorem parent?_next (t : Lineage) : t.parent? t.next = none := by
  simp [parent?, next, size]

theorem linked_alloc_iff (t : Lineage) (kind : Kind) (a b : EntityId) :
    (t.alloc kind).2.Linked a b ↔ t.Linked a b := by
  rw [Linked, parent?_alloc, Linked]

theorem addsLink_attach (t : Lineage) (kind : Kind) (parent : EntityId) :
    AddsLink t (t.attach kind parent).2 t.next parent := by
  intro a b
  rw [Linked, parent?_attach, Linked]
  by_cases hnext : a = t.next
  · rw [if_pos hnext, hnext, parent?_next]
    simp [eq_comm]
  · simp [hnext]

theorem Acyclic.alloc (h : t.Acyclic) (kind : Kind) : (t.alloc kind).2.Acyclic :=
  (acyclic_congr (linked_alloc_iff t kind)).mpr h

theorem Acyclic.attach (h : t.Acyclic) (kind : Kind) (hne : parent ≠ t.next)
    (hnot : t.next ∉ t.ancestors parent) : (t.attach kind parent).2.Acyclic := by
  rw [mem_ancestors (acyclic_iff_forall_ends.mp h parent)] at hnot
  exact (addsLink_attach t kind parent).acyclic_iff.mpr ⟨h, hne, hnot⟩

theorem link_eq_ok_iff {child parent : EntityId} :
    t.link child parent = .ok u ↔
      t.isRegistered child ∧ t.isRegistered parent ∧ child ≠ parent ∧
        child ∉ t.ancestors parent ∧
        ((t.parent? child = none ∧ u = t.setParent child parent) ∨
          (t.parent? child = some parent ∧ u = t)) := by
  unfold link
  cases hchild : t.isRegistered child <;> cases hparent : t.isRegistered parent <;> simp
  by_cases hself : child = parent
  · simp [hself]
  by_cases habove : child ∈ t.ancestors parent
  · simp [hself, habove]
  simp only [hself, habove, or_self, if_false, not_false_eq_true, true_and]
  cases hold : t.parent? child with
  | none => simp [eq_comm]
  | some existing =>
    by_cases hsame : existing = parent
    · simp [hsame, eq_comm]
    · simp [hsame]

theorem addsLink_setParent (hreg : t.isRegistered child) (hfree : t.parent? child = none)
    (parent : EntityId) : AddsLink t (t.setParent child parent) child parent := by
  intro a b
  rw [Linked, parent?_setParent, Linked]
  by_cases hchild : child = a
  · subst hchild
    obtain ⟨kind, hkind⟩ := exists_kind?_of_isRegistered hreg
    simp [hfree, hkind, eq_comm]
  · simp [hchild, Ne.symm hchild]

/-- A call of `link` leaves the table as it was, or it was granted and new. -/
theorem apply_link_cases (t : Lineage) (child parent : EntityId) :
    t.apply (.link child parent) = t ∨
      (t.isRegistered child ∧ t.parent? child = none ∧ child ≠ parent ∧
        child ∉ t.ancestors parent ∧
        t.apply (.link child parent) = t.setParent child parent) := by
  cases hlink : t.link child parent with
  | error _ => exact Or.inl (by simp [apply, hlink])
  | ok linked =>
    have happly : t.apply (.link child parent) = linked := by simp [apply, hlink]
    obtain ⟨hreg, -, hne, hnot, ⟨hfree, rfl⟩ | ⟨-, rfl⟩⟩ := link_eq_ok_iff.mp hlink
    · exact Or.inr ⟨hreg, hfree, hne, hnot, happly⟩
    · exact Or.inl happly

theorem Acyclic.apply_link (h : t.Acyclic) (child parent : EntityId) :
    (t.apply (.link child parent)).Acyclic := by
  rcases apply_link_cases t child parent with hsame | ⟨hreg, hfree, hne, hnot, hnew⟩
  · rwa [hsame]
  · rw [mem_ancestors (acyclic_iff_forall_ends.mp h parent)] at hnot
    rw [hnew]
    exact (addsLink_setParent hreg hfree parent).acyclic_iff.mpr ⟨h, hne.symm, hnot⟩

theorem Acyclic.of_apply {call : Call} (h : (t.apply call).Acyclic) : t.Acyclic := by
  cases call with
  | alloc kind => exact (acyclic_congr (linked_alloc_iff t kind)).mp h
  | attach kind parent => exact ((addsLink_attach t kind parent).acyclic_iff.mp h).1
  | link child parent =>
    rcases apply_link_cases t child parent with hsame | ⟨hreg, hfree, -, -, hnew⟩
    · rwa [hsame] at h
    · rw [hnew] at h
      exact ((addsLink_setParent hreg hfree parent).acyclic_iff.mp h).1

/-! ## 4. Whole runs -/

/-- A call of `attach` that names its own new identifier, or a record that
    already has it for an ancestor. -/
def ClosesCycle (t : Lineage) : Call → Prop
  | .attach _ parent => parent = t.next ∨ t.IsAncestor t.next parent
  | _ => False

theorem acyclic_apply_iff {call : Call} :
    (t.apply call).Acyclic ↔ t.Acyclic ∧ ¬ t.ClosesCycle call := by
  cases call with
  | alloc kind => simpa [apply, ClosesCycle] using acyclic_congr (linked_alloc_iff t kind)
  | attach kind parent =>
    simpa [apply, ClosesCycle, not_or] using (addsLink_attach t kind parent).acyclic_iff
  | link child parent =>
    simp only [ClosesCycle, not_false_eq_true, and_true]
    exact ⟨Acyclic.of_apply, fun h => h.apply_link child parent⟩

theorem acyclic_empty : (∅ : Lineage).Acyclic := by
  intro id
  apply not_isAncestor_of_parent?_eq_none
  simp [parent?, EmptyCollection.emptyCollection, empty]

/-- A run keeps the table acyclic exactly if none of its calls closes a cycle. -/
theorem acyclic_replay_iff (calls : List Call) :
    ((∅ : Lineage).replay calls).Acyclic ↔
      ∀ earlier call later, calls = earlier ++ call :: later →
        ¬ ((∅ : Lineage).replay earlier).ClosesCycle call := by
  induction calls using List.reverseRecOn with
  | nil => simp [acyclic_empty]
  | append_singleton calls last ih =>
    rw [replay_concat, acyclic_apply_iff, ih]
    constructor
    · rintro ⟨hbefore, hlast⟩ earlier call later heq
      rcases List.eq_nil_or_concat later with rfl | ⟨later, end_, rfl⟩
      · obtain ⟨rfl, rfl⟩ : calls = earlier ∧ last = call := by
          simpa using List.append_inj' heq rfl
        exact hlast
      · rw [List.concat_eq_append, ← List.cons_append, ← List.append_assoc] at heq
        exact hbefore earlier call later (List.append_inj' heq rfl).1
    · intro hall
      refine ⟨?_, hall calls last [] rfl⟩
      intro earlier call later heq
      exact hall earlier call (later ++ [last]) (by simp [heq])

/-- A table in which nothing runs forever: no record is its own ancestor, every
    walk upwards ends, and every `nearest` and every `link` comes to its answer. -/
structure Grounded (t : Lineage) : Prop where
  acyclic : t.Acyclic
  ends : ∀ id, t.Ends id
  nearest_settles : ∀ id kind, ∃ limit,
    t.seek (t.kind? · = some kind) limit id = some (t.nearest id kind)
  link_settles : ∀ child parent, ∃ limit,
    t.linkWithin limit child parent = some (t.link child parent)

theorem Acyclic.grounded (h : t.Acyclic) : t.Grounded where
  acyclic := h
  ends := acyclic_iff_forall_ends.mp h
  nearest_settles id _ := ⟨_, seek_of_ends (acyclic_iff_forall_ends.mp h id) _⟩
  link_settles child parent :=
    ⟨_, linkWithin_of_ends (acyclic_iff_forall_ends.mp h parent) child⟩

/-- **When parent links form a cycle.**  After any run of calls from the empty
    table, nothing runs forever if and only if no call of `attach` in the run
    named its own new identifier or a record that had this identifier for an
    ancestor already. -/
theorem grounded_replay_iff (calls : List Call) :
    ((∅ : Lineage).replay calls).Grounded ↔
      ∀ earlier kind parent later, calls = earlier ++ .attach kind parent :: later →
        parent ≠ ((∅ : Lineage).replay earlier).next ∧
          ¬ ((∅ : Lineage).replay earlier).IsAncestor ((∅ : Lineage).replay earlier).next
            parent := by
  constructor
  · intro hgrounded earlier kind parent later heq
    exact not_or.mp ((acyclic_replay_iff calls).mp hgrounded.acyclic earlier _ later heq)
  · intro hall
    apply Acyclic.grounded
    apply (acyclic_replay_iff calls).mpr
    intro earlier call later heq
    cases call with
    | attach kind parent => exact not_or.mpr (hall earlier kind parent later heq)
    | alloc _ => exact not_false
    | link _ _ => exact not_false

/-- Two calls of `attach`, the first of which names the identifier that the
    second is given, make each record the ancestor of the other, and the walk
    from the first does not end. -/
theorem replay_attach_not_acyclic :
    ¬ ((∅ : Lineage).replay [.attach .class ⟨1⟩, .attach .method ⟨0⟩]).Acyclic ∧
      ¬ ((∅ : Lineage).replay [.attach .class ⟨1⟩, .attach .method ⟨0⟩]).Ends ⟨0⟩ := by
  have hdown : ((∅ : Lineage).replay [.attach .class ⟨1⟩, .attach .method ⟨0⟩]).Linked ⟨0⟩ ⟨1⟩ :=
    rfl
  have hup : ((∅ : Lineage).replay [.attach .class ⟨1⟩, .attach .method ⟨0⟩]).Linked ⟨1⟩ ⟨0⟩ :=
    rfl
  have hloop := TransGen.tail (TransGen.single hdown) hup
  exact ⟨fun hacyclic => hacyclic _ hloop, fun hends => hends.not_isAncestor_self hloop⟩

end Declarations.Lineage
