/-
  Declarations/Proofs/Session/Containment.lean
  ============================================
  **The lineage of a session built from nothing.**

  A record is found by its place, from the root downwards; a lineage goes from
  the record upwards.  Where every link leads to the record that contains it, the
  walk up from a record meets the records around it, the innermost first
  (`Session.Traced`).

  A session that begins with an empty program or module registers all of its
  records.  So at any time its lineage says all that the places say: which
  identifiers there are, of what kind each record is, what it is contained in
  and through which records (`Session.MirrorsContainment`).
-/
import Declarations.Proofs.Session.Registration
import Mathlib.Data.List.Find

namespace Declarations

open Lineage

/-! ## 1. The walk up from a record -/

/-- A search among ancestors is one among the records that they are of. -/
theorem Lineage.nearest_eq_find? {t : Lineage} {id : EntityId} {owners : List Record}
    (hancestors : t.ancestors id = owners.map Record.id)
    (hkinds : ∀ owner ∈ owners, t.kind? owner.id = some owner.kind) (kind : Kind) :
    t.nearest id kind = (owners.find? fun owner => owner.kind = kind).map Record.id := by
  rw [nearest, hancestors, List.find?_map]
  apply congrArg
  apply List.find?_congr
  intro owner hmem
  simp [hkinds owner hmem]

namespace Session

variable {start s : Session} {steps : List Step} {place : Place} {slot : Slot} {r owner : Record}

/-- The walk up from the record at a place meets the records around it. -/
def Traced (s : Session) (place : Place) : Prop :=
  ∀ r, s.root.get? place = some r →
    s.lineage.Ends r.id ∧ s.lineage.ancestors r.id = (s.root.enclosing place).map Record.id

theorem traced_nil (h : s.lineage.parent? s.root.id = none) : s.Traced [] := by
  intro r hget
  obtain rfl : s.root = r := Option.some.inj hget
  exact ⟨ends_of_parent?_eq_none h, ancestors_of_parent?_eq_none h⟩

theorem Traced.concat (h : s.Traced place)
    (hlink : ∀ r, s.root.get? (place ++ [slot]) = some r →
      ∃ owner, s.root.get? place = some owner ∧ s.lineage.Linked r.id owner.id) :
    s.Traced (place ++ [slot]) := by
  intro r hget
  obtain ⟨owner, howner, hlinked⟩ := hlink r hget
  obtain ⟨hends, hancestors⟩ := h owner howner
  have hends' := (ends_iff_of_linked hlinked).mpr hends
  refine ⟨hends', ?_⟩
  rw [ancestors_of_linked hends' hlinked, hancestors, Record.enclosing_concat howner, List.map_cons]

theorem Tracks.traced_nil (h : Tracks start s) : s.Traced [] := by
  obtain ⟨kind, hroot, -, hparent⟩ := h.mirrors.root
  have hid : s.root.id = ⟨0⟩ := congrArg Record.Tag.id (Option.some.inj hroot)
  exact Session.traced_nil (by rw [hid, hparent])

theorem Tracks.linked (h : Tracks start s) (hentered : Entered start.tags s.tags (place ++ [slot]))
    (hget : s.root.get? (place ++ [slot]) = some r) :
    ∃ owner, s.root.get? place = some owner ∧ s.lineage.Linked r.id owner.id := by
  obtain ⟨-, above, habove, hlink⟩ := h.mirrors.linked hentered (tags_eq_some hget)
  obtain ⟨owner, howner, rfl⟩ := exists_get?_of_tags habove
  exact ⟨owner, howner, hlink⟩

theorem Tracks.kind?_eq (h : Tracks start s) (hentered : Entered start.tags s.tags place)
    (hget : s.root.get? place = some r) : s.lineage.kind? r.id = some r.kind :=
  h.mirrors.kind?_eq hentered (tags_eq_some hget)

/-! ## 2. Building from nothing -/

/-- A session that begins with an empty program or an empty module. -/
def Blank (s : Session) : Prop :=
  (∃ w, s = ofProgram w {}) ∨ ∃ w path, s = ofModule w (.atPath path)

theorem Blank.begins (h : start.Blank) : start.Begins := by
  rcases h with ⟨w, rfl⟩ | ⟨w, path, rfl⟩
  · exact Or.inl ⟨w, _, rfl⟩
  · exact Or.inr ⟨w, _, rfl⟩

theorem Blank.tags_eq_none (h : start.Blank) (hplace : place ≠ []) : start.tags place = none := by
  obtain ⟨slot, rest, rfl⟩ := List.exists_cons_of_ne_nil hplace
  have hchild : start.root.child? slot = none := by
    rcases h with ⟨w, rfl⟩ | ⟨w, path, rfl⟩ <;> cases slot <;>
      simp [ofProgram, ofModule, Record.child?, Module.atPath]
  rw [tags, Record.view_cons, hchild, Option.bind_none]

theorem Blank.entered (h : start.Blank) (hget : s.root.get? place = some r) :
    Entered start.tags s.tags place := by
  rcases Decidable.em (place = []) with hnil | hplace
  · exact Or.inl hnil
  · apply Or.inr
    intro hsame
    rw [h.tags_eq_none hplace, tags_eq_some hget] at hsame
    exact absurd hsame (by simp)

/-- The lineage of a session and the containment of its records are the same
    tree. -/
structure MirrorsContainment (s : Session) : Prop where
  -- no two records have the same identifier
  distinct {p q : Place} {r r' : Record} : s.root.get? p = some r → s.root.get? q = some r' →
    r.id = r'.id → p = q
  -- the identifiers of the records are the first `size`
  exact_ids (id : EntityId) : (∃ place r, s.root.get? place = some r ∧ r.id = id) ↔
    id.raw < s.lineage.size
  -- each has the kind of the record
  kind {place : Place} {r : Record} : s.root.get? place = some r →
    s.lineage.kind? r.id = some r.kind
  -- the root has no parent
  parent_root : s.lineage.parent? s.root.id = none
  -- the parent of any other record is the record that contains it
  parent {place : Place} {slot : Slot} {owner r : Record} : s.root.get? place = some owner →
    s.root.get? (place ++ [slot]) = some r → s.lineage.parent? r.id = some owner.id
  -- the walk up from a record ends, and has met the records around it
  ancestors {place : Place} {r : Record} : s.root.get? place = some r →
    s.lineage.Ends r.id ∧ s.lineage.ancestors r.id = (s.root.enclosing place).map Record.id
  -- the nearest ancestor of a kind is the innermost record of that kind around
  nearest {place : Place} {r : Record} (kind : Kind) : s.root.get? place = some r →
    s.lineage.nearest r.id kind =
      ((s.root.enclosing place).find? fun owner => owner.kind = kind).map Record.id

theorem Tracks.traced (h : Tracks start s)
    (hall : ∀ {place r}, s.root.get? place = some r → Entered start.tags s.tags place)
    (place : Place) : s.Traced place := by
  induction place using List.reverseRecOn with
  | nil => exact h.traced_nil
  | append_singleton place slot ih => exact ih.concat fun r hget => h.linked (hall hget) hget

/-- **Built from nothing, the records of a session and the rows of its lineage
    are the same tree, in every state that a run can reach.** -/
theorem mirrorsContainment_of_run? (hblank : start.Blank) (hrun : start.run? steps = some s)
    (hsize : s.lineage.size ≤ EntityId.unassigned.raw) : s.MirrorsContainment := by
  have h := tracks_of_run? hblank.begins hrun hsize
  have hkind : ∀ {place r}, s.root.get? place = some r → s.lineage.kind? r.id = some r.kind :=
    fun hget => h.kind?_eq (hblank.entered hget) hget
  have htraced := h.traced hblank.entered
  constructor
  case distinct =>
    intro p q r r' hp hq
    exact h.mirrors.unique (hblank.entered hp) (hblank.entered hq) (tags_eq_some hp)
      (tags_eq_some hq)
  case exact_ids =>
    intro id
    constructor
    · rintro ⟨place, r, hget, rfl⟩
      exact of_decide_eq_true (isRegistered_of_kind? (hkind hget))
    · intro hid
      obtain ⟨place, tag, -, htag, rfl⟩ := h.mirrors.complete (decide_eq_true hid)
      obtain ⟨r, hget, rfl⟩ := exists_get?_of_tags htag
      exact ⟨place, r, hget, rfl⟩
  case kind => exact hkind
  case parent_root =>
    obtain ⟨kind, hroot, -, hparent⟩ := h.mirrors.root
    rw [show s.root.id = ⟨0⟩ from congrArg Record.Tag.id (Option.some.inj hroot), hparent]
  case parent =>
    intro place slot owner r howner hget
    obtain ⟨above, habove, hlink⟩ := h.linked (hblank.entered hget) hget
    obtain rfl : above = owner := Option.some.inj (habove.symm.trans howner)
    exact hlink
  case ancestors => exact fun hget => htraced _ _ hget
  case nearest =>
    intro place r kind hget
    apply nearest_eq_find? (htraced place r hget).2
    intro owner hmem
    obtain ⟨q, slot, -, howner⟩ := Record.mem_enclosing hmem
    exact hkind howner

/-- A module with a class, whose constructor has a parameter. -/
theorem mirrorsContainment_constructor :
    ∃ s, (ofProgram ∅ {}).run? [.openModule "app", .declare (.class "User"),
        .declare .constructor, .declare (.parameter 0)] = some s ∧
      s.lineage.size = 5 ∧ s.MirrorsContainment := by
  obtain ⟨s, hrun, hsize⟩ : ∃ s, (ofProgram ∅ {}).run? [.openModule "app",
      .declare (.class "User"), .declare .constructor, .declare (.parameter 0)] = some s ∧
      s.lineage.size = 5 := ⟨_, rfl, rfl⟩
  exact ⟨s, hrun, hsize, mirrorsContainment_of_run? (Or.inl ⟨∅, rfl⟩) hrun (by rw [hsize]; decide)⟩

end Session

end Declarations
