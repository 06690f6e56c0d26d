/-
  Declarations/Proofs/Session/Places.lean
  =======================================
  **How many records a session has.**

  A step registers at most one record, and then it is at a new place, or it is a
  module that had no identifier so far (`Advance.tags_cases`).  Built from nothing, a
  session has as many records as its lineage has rows, as long as identifiers last.

  No record is ever removed, so they do last if in the end there are not too many
  records (`size_le_of_ncard_places_le`).
-/
import Declarations.Proofs.Session.Containment
import Mathlib.Data.Set.Card

namespace Declarations

open Lineage

namespace Session

variable {start s s' : Session} {step : Step} {steps : List Step} {path : String} {q : Place}

/-! ## 1. What a step registers -/

/-- The step registers a record of the kind at a place where there is none, or one
    without an identifier. -/
structure Registers (q : Place) (kind : Kind) (s s' : Session) : Prop where
  free : ∀ tag, s.tags q = some tag → ¬ tag.id.isAssigned
  tags : s'.tags = Function.update s.tags q (some ⟨s.lineage.next, kind⟩)
  lineage : ∃ owner, s'.lineage = (s.lineage.attach kind owner).2

/-- A step registers one record, or it leaves tags and lineage as they are. -/
theorem Advance.tags_cases (hadvance : s.Advance step s') :
    (s'.tags = s.tags ∧ s'.lineage = s.lineage) ∨ ∃ q kind, Registers q kind s s' := by
  cases hadvance with
  | moduleOpened p path m id lineage scope workspace hdrafts hroot hmodule hregister hscope =>
    have hview := Record.view_tag_insertModule p path m hmodule id
    rcases hregister with ⟨hassigned, rfl, rfl⟩ | ⟨hunassigned, hattach⟩
    · have hget : s.root.get? [.module path] = some (.module m) := by
        rw [hroot, Record.get?_module_of_isAssigned hmodule hassigned]
      refine Or.inl ⟨?_, rfl⟩
      rw [tags, hview, ← hroot]
      exact Function.update_eq_self_iff.mpr (tags_eq_some hget).symm
    · obtain ⟨rfl, rfl⟩ := Prod.mk.inj hattach
      refine Or.inr ⟨[.module path], .module, ?_, ?_, p.id, rfl⟩
      · intro tag htag
        obtain ⟨r, hget, rfl⟩ := exists_get?_of_tags htag
        rw [hroot] at hget
        rwa [Record.eq_module_of_get? hmodule hget]
      · rw [tags, hview, tags, hroot]
  | childDeclared draft rest d owner slot handle declared scope workspace hdrafts howner hslot
      hempty =>
    refine Or.inr ⟨d.ownerPlace draft.place ++ [slot], d.kind, ?_, ?_, owner.id, rfl⟩
    · intro tag htag
      obtain ⟨r, hget, -⟩ := exists_get?_of_tags htag
      rw [Record.get?_concat howner, hempty] at hget
      cases hget
    · rw [tags, Record.view_tag_replace_put howner (Record.hasSlot_of_slotFor? hslot) hempty
        (Record.accepts_of_slotFor? hslot (by simp)) (Record.child?_withId_bare d handle _)]
      simp [Record.tag, tags]
  | typeParametersAdded draft rest r r' old parameters handles workspace hdrafts hrecord hold
      hdeclared hnew =>
    obtain ⟨houtline, hid, hchildren, -⟩ := Record.withTypeParameters?_keeps hnew
    exact Or.inl ⟨Record.view_tag_replace hrecord houtline hid hchildren, rfl⟩
  | edited _ draft rest r r' hdrafts hrecord houtline hid hchildren =>
    exact Or.inl ⟨Record.view_tag_replace hrecord houtline hid hchildren, rfl⟩
  | _ => exact Or.inl ⟨rfl, rfl⟩

theorem Registers.size_eq {kind : Kind} (h : Registers q kind s s') :
    s'.lineage.size = s.lineage.size + 1 := by
  obtain ⟨owner, hlineage⟩ := h.lineage
  rw [hlineage, attach, size, size, Array.size_push]

/-! ## 2. Places and rows -/

/-- The places where there is a record. -/
def places (s : Session) : Set Place := { q | (s.tags q).isSome }

theorem mem_places : q ∈ s.places ↔ (s.tags q).isSome := Iff.rfl

theorem Registers.mem_places {kind : Kind} (h : Registers q kind s s') : q ∈ s'.places := by
  rw [Session.mem_places, h.tags, Function.update_self]
  rfl

theorem Advance.places_subset (hadvance : s.Advance step s') : s.places ⊆ s'.places := by
  intro q hq
  rcases hadvance.tags_cases with ⟨htags, -⟩ | ⟨other, kind, hregisters⟩
  · rwa [mem_places, htags]
  · rw [mem_places, hregisters.tags, Function.update_apply]
    split
    · rfl
    · exact hq

theorem Blank.entered_of_tags (hblank : start.Blank) {tag : Record.Tag}
    (htag : s.tags q = some tag) : Entered start.tags s.tags q := by
  obtain ⟨r, hget, -⟩ := exists_get?_of_tags htag
  exact hblank.entered hget

/-- The numbers of the rows are the identifiers at the places. -/
theorem Tracks.bijOn_places (h : Tracks start s) (hblank : start.Blank) :
    Set.BijOn (fun q => ((s.tags q).map fun tag => tag.id.raw).getD 0) s.places
      (Finset.range s.lineage.size) := by
  refine ⟨?_, ?_, ?_⟩
  · intro q hq
    obtain ⟨tag, htag⟩ := Option.isSome_iff_exists.mp hq
    have hregistered := isRegistered_of_kind? (h.mirrors.kind?_eq (hblank.entered_of_tags htag) htag)
    simpa [htag, isRegistered] using hregistered
  · intro q hq q' hq' heq
    obtain ⟨tag, htag⟩ := Option.isSome_iff_exists.mp hq
    obtain ⟨tag', htag'⟩ := Option.isSome_iff_exists.mp hq'
    have hid : tag.id = tag'.id := EntityId.ext (by simpa [htag, htag'] using heq)
    exact h.mirrors.unique (hblank.entered_of_tags htag) (hblank.entered_of_tags htag') htag htag'
      hid
  · intro number hnumber
    have hregistered : s.lineage.isRegistered ⟨number⟩ := by simpa [isRegistered] using hnumber
    obtain ⟨q, tag, -, htag, hid⟩ := h.mirrors.complete hregistered
    exact ⟨q, by simp [mem_places, htag], by simp [htag, hid]⟩

theorem Tracks.finite_places (h : Tracks start s) (hblank : start.Blank) : s.places.Finite :=
  (h.bijOn_places hblank).finite_iff_finite.mpr (Finset.finite_toSet _)

/-- There are as many records as rows. -/
theorem Tracks.ncard_places (h : Tracks start s) (hblank : start.Blank) :
    s.places.ncard = s.lineage.size := by
  rw [(h.bijOn_places hblank).ncard_eq, Set.ncard_coe_finset, Finset.card_range]

/-- As long as identifiers last, a record is registered at a new place. -/
theorem Tracks.not_mem_places (h : Tracks start s) (hblank : start.Blank)
    (hsize : s.lineage.size ≤ EntityId.unassigned.raw) {kind : Kind}
    (hregisters : Registers q kind s s') : q ∉ s.places := by
  intro hq
  obtain ⟨tag, htag⟩ := Option.isSome_iff_exists.mp hq
  exact hregisters.free tag htag (h.mirrors.isAssigned hsize (hblank.entered_of_tags htag) htag)

/-! ## 3. Runs -/

/-- **A run that ends with as many records as there are identifiers, or fewer, never ran
    out of identifiers.** -/
theorem size_le_of_ncard_places_le (hblank : start.Blank) (hrun : start.run? steps = some s)
    (hfinite : s.places.Finite) (hle : s.places.ncard ≤ EntityId.unassigned.raw) :
    s.lineage.size ≤ EntityId.unassigned.raw := by
  induction steps using List.reverseRecOn generalizing s with
  | nil =>
    obtain rfl := Option.some.inj hrun
    rcases hblank with ⟨w, rfl⟩ | ⟨w, path, rfl⟩ <;> exact (by decide : 1 ≤ UInt32.size - 1)
  | append_singleton steps step ih =>
    rw [run?_append] at hrun
    obtain ⟨before, hbefore, hrun⟩ := Option.bind_eq_some_iff.mp hrun
    rw [run?_cons] at hrun
    obtain ⟨_, hstep, hnil⟩ := Option.bind_eq_some_iff.mp hrun
    obtain rfl := Option.some.inj hnil
    have hadvance := advance_of_step? hstep
    have hsubset := hadvance.places_subset
    have hsize := ih hbefore (hfinite.subset hsubset)
      (Nat.le_trans (Set.ncard_le_ncard hsubset hfinite) hle)
    have htracks := tracks_of_run? hblank.begins hbefore hsize
    rcases hadvance.tags_cases with ⟨-, hlineage⟩ | ⟨q, kind, hregisters⟩
    · rwa [hlineage]
    · have hnew := htracks.not_mem_places hblank hsize hregisters
      have hlt := Set.ncard_lt_ncard ⟨hsubset, fun hback => hnew (hback hregisters.mem_places)⟩
        hfinite
      have hcount := htracks.ncard_places hblank
      have hsucc := hregisters.size_eq
      omega

end Session

end Declarations
