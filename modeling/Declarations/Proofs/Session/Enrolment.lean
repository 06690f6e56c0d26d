/-
  Declarations/Proofs/Session/Enrolment.lean
  ==========================================
  **Children are registered under their owner.**

  A record keeps its kind, and unless it is a module its identifier, whatever is done
  (`Advance.exists_same_identity`).  A child appears only by being declared, and then it is
  given a row of the lineage of its own, linked to the record that contains it
  (`Advance.child_origin`).

  So all that is declared in a record that was not there at first is registered under this
  record, each child for itself (`Session.Enrolled`).
-/
import Declarations.Proofs.Session.Readings

namespace Declarations

namespace Record

variable {r r' : Record}

/-! ## 1. Identity -/

/-- What no step changes: the kind and, of all but a module, the identifier. -/
def identity (r : Record) : Kind × Option EntityId :=
  (r.kind, if r.kind = .module then none else some r.id)

theorem identity_congr (hkind : r'.kind = r.kind) (hid : r'.id = r.id) :
    r'.identity = r.identity := by
  rw [identity, identity, hkind, hid]

theorem of_identity_eq (h : r'.identity = r.identity) :
    r'.kind = r.kind ∧ (r.kind ≠ .module → r'.id = r.id) := by
  obtain ⟨hkind, hid⟩ := Prod.mk.inj h
  refine ⟨hkind, fun hne => ?_⟩
  rw [hkind, if_neg hne, if_neg hne] at hid
  exact Option.some.inj hid

theorem own_identity : Own identity where
  put _ _ _ := identity_congr (kind_put _ _ _) (id_put _ _ _)
  moduleId _ _ := rfl

end Record

namespace Session

open Lineage

variable {start s s' : Session} {step : Step} {steps : List Step} {q : Place} {slot : Slot}
variable {r r' owner child : Record}

/-- A record stays where it is, of its kind, and with its identifier if it is no module. -/
theorem Advance.exists_same_identity (hadvance : s.Advance step s')
    (hget : s.root.get? q = some r) :
    ∃ r', s'.root.get? q = some r' ∧ r'.kind = r.kind ∧ (r.kind ≠ .module → r'.id = r.id) := by
  obtain ⟨r', hget', ⟨hown, -⟩ | ⟨draft, rest, -, -, ⟨parameters, old, -, -, hadded⟩ | hrevise⟩⟩ :=
    hadvance.own_cases hget
  · exact ⟨r', hget', Record.of_identity_eq (hown Record.own_identity)⟩
  · obtain ⟨houtline, hid, -⟩ := Record.withTypeParameters?_keeps hadded
    exact ⟨r', hget', Record.kind_eq_of_outline_eq houtline, fun _ => hid⟩
  · obtain ⟨houtline, hid, -⟩ := Record.revise?_keeps hrevise
    exact ⟨r', hget', Record.kind_eq_of_outline_eq houtline, fun _ => hid⟩

/-! ## 2. New children -/

/-- The step declares a child in a slot of the record at a place. -/
structure DeclaresAt (q : Place) (owner : Record) (slot : Slot) (d : Declaration) (s : Session)
    (step : Step) : Prop where
  step : step = .declare d
  drafts : ∃ draft rest, s.drafts = draft :: rest ∧ d.ownerPlace draft.place = q
  here : s.root.get? q = some owner
  slot : owner.slotFor? d = some slot

/-- What a declaration does: the child is there, or it is made and registered. -/
theorem Advance.declare_cases {d : Declaration} {draft : Draft} {rest : List Draft}
    (hadvance : s.Advance (.declare d) s') (hdrafts : s.drafts = draft :: rest) :
    ∃ owner slot, s.root.get? (d.ownerPlace draft.place) = some owner ∧
      owner.slotFor? d = some slot ∧
      ((∃ child, owner.child? slot = some child ∧ s'.root = s.root ∧ s'.lineage = s.lineage) ∨
        (owner.child? slot = none ∧ s'.lineage = (s.lineage.attach d.kind owner.id).2 ∧
          ∃ handle, s'.root.get? (d.ownerPlace draft.place ++ [slot]) =
            some ((d.bare handle).withId s.lineage.next))) := by
  cases hadvance with
  | childReopened draft' rest' _ owner child slot hdrafts' howner hslot hchild =>
    obtain rfl := (List.cons.inj (hdrafts.symm.trans hdrafts')).1
    exact ⟨owner, slot, howner, hslot, Or.inl ⟨child, hchild, rfl, rfl⟩⟩
  | childDeclared draft' rest' _ owner slot handle declared scope workspace hdrafts' howner hslot
      hempty =>
    obtain rfl := (List.cons.inj (hdrafts.symm.trans hdrafts')).1
    exact ⟨owner, slot, howner, hslot, Or.inr ⟨hempty, rfl, handle,
      Record.get?_declared howner hslot handle s.lineage.next⟩⟩
  | edited _ draft rest r r' hdrafts hrecord houtline hid hchildren htypes hrevise =>
    simp [Record.revise?] at hrevise

/-- A child that is no module was there before, or it has just been declared. -/
theorem Advance.child_origin (hadvance : s.Advance step s')
    (hget' : s'.root.get? (q ++ [slot]) = some child) (hkind : child.kind ≠ .module) :
    ∃ owner, s.root.get? q = some owner ∧
      ((∃ old, s.root.get? (q ++ [slot]) = some old ∧ child.kind = old.kind ∧
          child.id = old.id) ∨
        ∃ d handle, DeclaresAt q owner slot d s step ∧ s.root.get? (q ++ [slot]) = none ∧
          child = (d.bare handle).withId s.lineage.next ∧
          s'.lineage = (s.lineage.attach child.kind owner.id).2) := by
  cases hget : s.root.get? (q ++ [slot]) with
  | some old =>
    obtain ⟨owner, howner⟩ := Record.exists_get?_of_append hget
    obtain ⟨r, hr, hsame, hid⟩ := hadvance.exists_same_identity hget
    obtain rfl := Option.some.inj (hget'.symm.trans hr)
    exact ⟨owner, howner, Or.inl ⟨old, rfl, hsame, hid (hsame ▸ hkind)⟩⟩
  | none =>
    rcases hadvance.new_cases hget hget' with ⟨_, _, -, -, -, -, -, rfl, -⟩ |
      ⟨draft, rest, d, owner, taken, rfl, hdrafts, howner, hslot, -, hplace, rfl, hlineage⟩
    · exact absurd rfl hkind
    · obtain ⟨rfl, hlast⟩ := List.append_inj' hplace rfl
      obtain rfl := List.singleton_inj.mp hlast
      refine ⟨owner, howner, Or.inr ⟨d, _, ⟨rfl, ⟨draft, rest, hdrafts, rfl⟩, howner, hslot⟩,
        rfl, rfl, ?_⟩⟩
      rw [Record.kind_withId, Declaration.kind_bare]
      exact hlineage

/-- A slot in which nothing is declared keeps the child that it has, and stays empty if it is. -/
theorem Advance.view_id_concat (hadvance : s.Advance step s') (hslot : ∀ path, slot ≠ .module path)
    (hnot : ∀ owner d, ¬ DeclaresAt q owner slot d s step) :
    s'.root.view Record.id (q ++ [slot]) = s.root.view Record.id (q ++ [slot]) := by
  cases hget' : s'.root.get? (q ++ [slot]) with
  | none =>
    cases hget : s.root.get? (q ++ [slot]) with
    | none => rw [Record.view, Record.view, hget, hget']
    | some old =>
      obtain ⟨r, hr, -⟩ := hadvance.exists_same_identity hget
      cases hget'.symm.trans hr
  | some child =>
    have hkind : child.kind ≠ .module := by
      intro hkind
      have hfor := Record.isFor_of_get?_concat hget'
      rw [hkind] at hfor
      cases slot with
      | module path => exact hslot path rfl
      | _ => simp [Slot.isFor] at hfor
    obtain ⟨owner, -, ⟨old, hold, -, hid⟩ | ⟨d, -, hdeclares, -⟩⟩ := hadvance.child_origin hget' hkind
    · rw [Record.view, Record.view, hget', hold, Option.map_some, Option.map_some, hid]
    · exact absurd hdeclares (hnot owner d)

theorem DeclaresAt.slot_unique {d d' : Declaration} {slot' : Slot}
    (h : DeclaresAt q owner slot d s step) (h' : DeclaresAt q owner slot' d' s step) :
    slot = slot' := by
  obtain rfl := Step.declare.inj (h.step.symm.trans h'.step)
  exact Option.some.inj (h.slot.symm.trans h'.slot)

/-! ## 3. Rows -/

/-- The children of a record are registered under it, each for itself. -/
structure Enrolled (q : Place) (s : Session) : Prop where
  rows {owner child : Record} {slot : Slot} : s.root.get? q = some owner →
    owner.kind ≠ .module → s.root.get? (q ++ [slot]) = some child → child.kind ≠ .module →
    s.lineage.kind? child.id = some child.kind ∧ s.lineage.parent? child.id = some owner.id
  distinct {owner child child' : Record} {slot slot' : Slot} : s.root.get? q = some owner →
    owner.kind ≠ .module → s.root.get? (q ++ [slot]) = some child → child.kind ≠ .module →
    s.root.get? (q ++ [slot']) = some child' → child.id = child'.id → slot = slot'

theorem Enrolled.isRegistered (h : Enrolled q s) (howner : s.root.get? q = some owner)
    (hclosed : owner.kind ≠ .module) (hget : s.root.get? (q ++ [slot]) = some child)
    (hkind : child.kind ≠ .module) : s.lineage.isRegistered child.id :=
  isRegistered_of_kind? (h.rows howner hclosed hget hkind).1

theorem Enrolled.advance (h : Enrolled q s) (hadvance : s.Advance step s') : Enrolled q s' := by
  -- the owner was there before
  have hback : ∀ {owner' owner : Record}, s'.root.get? q = some owner' →
      s.root.get? q = some owner → owner'.kind ≠ .module →
      owner.kind ≠ .module ∧ owner'.id = owner.id := by
    intro owner' owner howner' howner hclosed
    obtain ⟨r, hr, hkind, hid⟩ := hadvance.exists_same_identity howner
    obtain rfl := Option.some.inj (howner'.symm.trans hr)
    rw [hkind] at hclosed
    exact ⟨hclosed, hid hclosed⟩
  constructor
  case rows =>
    intro owner' child slot howner' hclosed' hget' hkind
    obtain ⟨owner, howner, horigin⟩ := hadvance.child_origin hget' hkind
    obtain ⟨hclosed, hid⟩ := hback howner' howner hclosed'
    rcases horigin with ⟨old, hold, hsame, hsameId⟩ | ⟨d, handle, -, -, hmade, hlineage⟩
    · obtain ⟨hrow, hparent⟩ := h.rows howner hclosed hold (hsame ▸ hkind)
      obtain ⟨hkinds, hparents⟩ := hadvance.rows_eq (isRegistered_of_kind? hrow)
      rw [hsameId, hkinds, hparents, hid, hsame]
      exact ⟨hrow, hparent⟩
    · have hnext : child.id = s.lineage.next := by rw [hmade, Record.id_withId]
      rw [hlineage, kind?_attach, if_pos hnext, parent?_attach, if_pos hnext, hid]
      exact ⟨rfl, rfl⟩
  case distinct =>
    intro owner' child child' slot slot' howner' hclosed' hget hkind hget' heq
    have hkind' : child'.kind ≠ .module := by
      rw [Record.get?_concat howner'] at hget hget'
      rwa [ne_eq, ← Record.kind_eq_program_iff hget', Record.kind_eq_program_iff hget]
    obtain ⟨owner, howner, horigin⟩ := hadvance.child_origin hget hkind
    obtain ⟨owner₁, howner₁, horigin'⟩ := hadvance.child_origin hget' hkind'
    obtain rfl := Option.some.inj (howner.symm.trans howner₁)
    obtain ⟨hclosed, -⟩ := hback howner' howner hclosed'
    -- an old child has a row already, and a new one the next
    have hnew : ∀ {slot old child}, s.root.get? (q ++ [slot]) = some old → old.kind ≠ .module →
        ∀ {d : Declaration} {handle}, child = (d.bare handle).withId s.lineage.next →
        old.id ≠ child.id := by
      rintro slot old child hold hkind d handle rfl
      rw [Record.id_withId]
      exact next_ne_of_isRegistered (h.isRegistered howner hclosed hold hkind)
    rcases horigin with ⟨old, hold, hsame, hid⟩ | ⟨d, handle, hdeclares, -, hmade, -⟩ <;>
      rcases horigin' with ⟨old', hold', hsame', hid'⟩ | ⟨d', handle', hdeclares', -, hmade', -⟩
    · exact h.distinct howner hclosed hold (hsame ▸ hkind) hold' (hid.symm.trans (heq.trans hid'))
    · exact absurd (hid.symm.trans heq) (hnew hold (hsame ▸ hkind) hmade')
    · exact absurd (hid'.symm.trans heq.symm) (hnew hold' (hsame' ▸ hkind') hmade)
    · exact hdeclares.slot_unique hdeclares'

/-- **What is declared in a new record is registered under it.** -/
theorem enrolled_of_run? (hnew : start.root.get? q = none) (hrun : start.run? steps = some s) :
    Enrolled q s := by
  refine invariant_of_run? ?_ (fun h hadvance => h.advance hadvance) hrun
  constructor
  case rows =>
    intro owner child slot howner
    cases hnew.symm.trans howner
  case distinct =>
    intro owner child child' slot slot' howner
    cases hnew.symm.trans howner

end Session

end Declarations
