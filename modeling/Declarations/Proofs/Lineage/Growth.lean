/-
  Declarations/Proofs/Lineage/Growth.lean
  =======================================
  **What later calls leave as it is.**

  A table is only ever added to.  The end of a walk can move: a record without a
  parent may be given one, and an identifier without a row may be handed out, with a
  kind and a parent of its own.  All before the end stays: a kind or a parent that is
  known is known for good (`Lineage.Extends`), and so the first ancestors of a record
  are the first ancestors of it ever after.

  The nearest ancestor of a kind stays too, though the kinds of records are not all
  known when it is found.  A search that goes on from a record knows its parent, hence
  its row, hence its kind: what it passed by is passed by again
  (`Extends.seek`).

  Tables are any here, with dangling links and cycles.  A call of `link` that never
  comes back leads nowhere (`Lineage.Returns`).
-/
import Declarations.Proofs.Lineage.Search

namespace Declarations.Lineage

open Relation

variable {t u v : Lineage} {id parent a : EntityId} {kind : Kind} {call : Call} {limit : Nat}

/-! ## 1. Later tables -/

/-- A call that comes back, and the table after it. -/
inductive Returns (t : Lineage) : Call → Lineage → Prop where
  | alloc (kind : Kind) : Returns t (.alloc kind) (t.alloc kind).2
  | attach (kind : Kind) (parent : EntityId) :
    Returns t (.attach kind parent) (t.attach kind parent).2
  | link {child parent : EntityId} {limit : Nat} {answered : Except LinkError Unit} {u : Lineage}
    (hrun : (linkInPlace limit child parent).run t = some (answered, u)) :
    Returns t (.link child parent) u

/-- Calls that come back, granted or refused, lead from the one table to the other. -/
def Later (t u : Lineage) : Prop := ReflTransGen (fun t u => ∃ call, t.Returns call u) t u

theorem Returns.eq_apply (h : t.Returns call u) : u = t.apply call := by
  cases h with
  | alloc kind => rfl
  | attach kind parent => rfl
  | link hrun => exact (run_linkInPlace_eq_some hrun).2

/-! ## 2. What is known stays known -/

/-- `u` has the kinds and the links that `t` has. -/
structure Extends (t u : Lineage) : Prop where
  kind {id : EntityId} {kind : Kind} : t.kind? id = some kind → u.kind? id = some kind
  linked {id parent : EntityId} : t.Linked id parent → u.Linked id parent

theorem Extends.refl (t : Lineage) : t.Extends t := ⟨fun h => h, fun h => h⟩

theorem Extends.trans (h : t.Extends u) (h' : u.Extends v) : t.Extends v :=
  ⟨fun hkind => h'.kind (h.kind hkind), fun hlink => h'.linked (h.linked hlink)⟩

theorem extends_apply (t : Lineage) (call : Call) : t.Extends (t.apply call) := by
  cases call with
  | alloc kind =>
    constructor
    case kind =>
      intro id known hkind
      rwa [apply, kind?_alloc, if_neg (next_ne_of_isRegistered (isRegistered_of_kind? hkind))]
    case linked => exact fun hlink => (linked_alloc_iff t kind _ _).mpr hlink
  | attach kind parent =>
    constructor
    case kind =>
      intro id known hkind
      rwa [apply, kind?_attach, if_neg (next_ne_of_isRegistered (isRegistered_of_kind? hkind))]
    case linked => exact fun hlink => (addsLink_attach t kind parent _ _).mpr (Or.inl hlink)
  | link child parent =>
    rcases apply_link_cases t child parent with hsame | ⟨hreg, hfree, -, -, hnew⟩
    · rw [hsame]
      exact .refl t
    · rw [hnew]
      constructor
      case kind =>
        intro id known hkind
        rwa [kind?_setParent]
      case linked =>
        exact fun hlink => (addsLink_setParent hreg hfree parent _ _).mpr (Or.inl hlink)

theorem Later.extends (h : t.Later u) : t.Extends u := by
  induction h with
  | refl => exact .refl t
  | tail _ hcall ih =>
    obtain ⟨call, hcall⟩ := hcall
    rw [hcall.eq_apply]
    exact ih.trans (extends_apply _ call)

/-! ## 3. Walks and searches in later tables -/

theorem Extends.firstAncestors_isPrefix (h : t.Extends u) (limit : Nat) (id : EntityId) :
    t.firstAncestors limit id <+: u.firstAncestors limit id := by
  induction limit generalizing id with
  | zero => exact List.prefix_refl []
  | succ limit ih =>
    cases hparent : t.parent? id with
    | none =>
      rw [firstAncestors_of_parent?_eq_none _ hparent]
      exact List.nil_prefix
    | some parent =>
      rw [firstAncestors_succ limit hparent, firstAncestors_succ limit (h.linked hparent)]
      exact (List.prefix_cons_inj parent).mpr (ih parent)

/-- A search for a kind finds what it found. -/
theorem Extends.seek (h : t.Extends u)
    (hfound : t.seek (t.kind? · = some kind) limit id = some (some a)) :
    u.seek (u.kind? · = some kind) limit id = some (some a) := by
  induction limit generalizing id with
  | zero => simp [Lineage.seek] at hfound
  | succ limit ih =>
    rcases seek_cases hfound with ⟨-, hnone⟩ | ⟨parent, hparent, ⟨hwanted, hhere⟩ | ⟨hwanted, hrest⟩⟩
    · cases hnone
    · have hkind := h.kind (of_decide_eq_true hwanted)
      rw [seek_of_linked (h.linked hparent), if_pos (decide_eq_true hkind), hhere]
    · -- the search goes on from the parent, so its kind is known and another one
      obtain ⟨other, hother⟩ := exists_kind?_of_isRegistered (isRegistered_of_seek hrest)
      have hstill : u.kind? parent ≠ some kind := by
        rw [h.kind hother, ← hother]
        exact of_decide_eq_false hwanted
      rw [seek_of_linked (h.linked hparent), if_neg (by simpa using hstill)]
      exact ih hrest

theorem Extends.nearest (h : t.Extends u) (hfound : t.nearest id kind = some a) :
    u.nearest id kind = some a := by
  obtain ⟨limit, hseek⟩ := nearest_eq_some_iff.mp hfound
  exact nearest_eq_some_iff.mpr ⟨limit, h.seek hseek⟩

/-- **Ancestry is only ever added to.**  Whatever calls come after, a known kind and
    a known parent stay, the first ancestors of a record are the first of those that
    it has later, and the nearest ancestor of a kind, once there is one, remains it.
    The same holds of the search link by link, which finds it at the same link. -/
theorem ancestry_of_later (h : t.Later u) :
    (∀ id kind, t.kind? id = some kind → u.kind? id = some kind) ∧
    (∀ id parent, t.parent? id = some parent → u.parent? id = some parent) ∧
    (∀ id limit, t.firstAncestors limit id <+: u.firstAncestors limit id) ∧
    (∀ id kind a, t.nearest id kind = some a → u.nearest id kind = some a) ∧
    (∀ id kind a limit, t.seek (t.kind? · = some kind) limit id = some (some a) →
      u.seek (u.kind? · = some kind) limit id = some (some a)) := by
  have hextends := h.extends
  refine ⟨?_, ?_, ?_, ?_, ?_⟩
  · exact fun _ _ => hextends.kind
  · exact fun _ _ => hextends.linked
  · exact fun id limit => hextends.firstAncestors_isPrefix limit id
  · exact fun _ _ _ => hextends.nearest
  · exact fun _ _ _ _ => hextends.seek

/-- A parameter of a method of a class, and a variable below an identifier without a
    row.  The class is linked below the variable and, in vain, below its own method, and
    the missing row becomes that of an interface below the parameter: the walk from the
    parameter runs in a circle now, and finds the class first as before. -/
theorem ancestry_of_later_in_circle :
    ∃ t u : Lineage, t = (∅ : Lineage).replay [.alloc .class, .attach .method ⟨0⟩,
        .attach .parameter ⟨1⟩, .attach .variable ⟨4⟩] ∧
      u = ((t.setParent ⟨0⟩ ⟨3⟩).attach .interface ⟨2⟩).2 ∧ t.Later u ∧ ¬ u.Ends ⟨2⟩ ∧
      u.kind? ⟨2⟩ = some .parameter ∧ u.parent? ⟨3⟩ = some ⟨4⟩ ∧
      [⟨1⟩, ⟨0⟩] <+: u.firstAncestors 6 ⟨2⟩ ∧ u.nearest ⟨2⟩ .class = some ⟨0⟩ := by
  refine ⟨_, _, rfl, rfl, ?_⟩
  generalize ht : (∅ : Lineage).replay [.alloc .class, .attach .method ⟨0⟩,
    .attach .parameter ⟨1⟩, .attach .variable ⟨4⟩] = t
  have hgranted : (linkInPlace 2 ⟨0⟩ ⟨3⟩).run t = some (.ok (), t.setParent ⟨0⟩ ⟨3⟩) := by
    rw [← ht]
    rfl
  have hrefused : (linkInPlace 1 ⟨0⟩ ⟨1⟩).run (t.setParent ⟨0⟩ ⟨3⟩) =
      some (.error (.cyclic ⟨0⟩ ⟨1⟩), t.setParent ⟨0⟩ ⟨3⟩) := by
    rw [← ht]
    rfl
  have hlater : t.Later ((t.setParent ⟨0⟩ ⟨3⟩).attach .interface ⟨2⟩).2 :=
    .head ⟨_, .link hgranted⟩ (.head ⟨_, .link hrefused⟩ (.single ⟨_, .attach .interface ⟨2⟩⟩))
  obtain ⟨hkind, hparent, hwalk, hnearest, -⟩ := ancestry_of_later hlater
  subst ht
  refine ⟨hlater, ?_, hkind _ _ rfl, hparent _ _ rfl, hwalk ⟨2⟩ 6, hnearest _ _ _ rfl⟩
  have hcircle : (⟨2⟩ : EntityId) ∈ ((((∅ : Lineage).replay [.alloc .class, .attach .method ⟨0⟩,
      .attach .parameter ⟨1⟩, .attach .variable ⟨4⟩]).setParent ⟨0⟩ ⟨3⟩).attach .interface
      ⟨2⟩).2.firstAncestors 5 ⟨2⟩ := by decide
  exact fun hends => hends.not_isAncestor_self (isAncestor_of_mem_firstAncestors hcircle)

end Declarations.Lineage
