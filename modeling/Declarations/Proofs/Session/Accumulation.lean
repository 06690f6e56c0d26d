/-
  Declarations/Proofs/Session/Accumulation.lean
  =============================================
  **Parameters accumulate, position by position.**

  A callable can be asked for the parameter at a position as often as one likes, with
  anything done in between.  The first opening makes a new parameter and registers it under
  the callable; every later one opens the same parameter again (`Advance.of_opening`).

  So each position has a history of its own: its parameter is a new one, under the
  identifier of the first opening, with all that was given to it since stored in it in order
  (`parameter_cases_of_run?`).  There are as many parameters as positions were opened, and
  the openings have added as many rows to the lineage (`sum_growths`).
-/
import Declarations.Proofs.Record.Parameters
import Declarations.Proofs.Session.Enrolment
import Declarations.Proofs.Session.History

namespace Declarations

namespace Record

variable {r r' child : Record} {slot : Slot} {d : Declaration} {ps : Parameters} {index : Nat}

/-! ## 1. Callables -/

theorem child?_parameter (h : r.parameters? = some ps) (index : Nat) :
    r.child? (.parameter index) = (ps.get? index).map .parameter := by
  rcases r with _ | _ | e | _ | _ | _ | _
  case entry => cases e <;> cases h; rfl
  case constructor | method => cases h; rfl
  all_goals cases h

theorem slotFor?_parameter (h : r.parameters? = some ps) (index : Nat) :
    r.slotFor? (.parameter index) = some (.parameter index) := by
  rcases r with _ | _ | e | _ | _ | _ | _
  case entry => cases e <;> cases h; rfl
  case constructor | method => cases h; rfl
  all_goals cases h

theorem of_slotFor?_parameter (h : r.slotFor? (.parameter index) = some slot) :
    slot = .parameter index ∧ ∃ ps, r.parameters? = some ps := by
  rcases r with _ | _ | e | _ | _ | _ | _
  case entry => cases e <;> cases h; exact ⟨rfl, _, rfl⟩
  case constructor | method => cases h; exact ⟨rfl, _, rfl⟩
  all_goals cases h

theorem declaration_eq_of_slotFor? (h : r.slotFor? d = some (.parameter index)) :
    d = .parameter index := by
  rcases r with _ | _ | e | _ | _ | _ | _
  case entry => cases e <;> cases d <;> cases h; rfl
  case constructor | method => cases d <;> cases h; rfl
  all_goals cases d <;> cases h

theorem of_child?_parameter (h : r.child? (.parameter index) = some child) :
    ∃ ps p, r.parameters? = some ps ∧ ps.get? index = some p ∧ child = .parameter p := by
  rcases r with _ | _ | e | _ | _ | _ | _
  case entry =>
    cases e with
    | function f =>
      obtain ⟨p, hp, rfl⟩ := Option.map_eq_some_iff.mp h
      exact ⟨_, p, rfl, hp, rfl⟩
    | _ => cases h
  case constructor | method =>
    obtain ⟨p, hp, rfl⟩ := Option.map_eq_some_iff.mp h
    exact ⟨_, p, rfl, hp, rfl⟩
  all_goals cases h

/-- What stands at a position is a parameter, and above it stands a callable. -/
theorem of_get?_parameter {q : Place} (h : r.get? (q ++ [.parameter index]) = some child) :
    ∃ host ps p, r.get? q = some host ∧ host.parameters? = some ps ∧ child = .parameter p := by
  obtain ⟨host, hhost⟩ := exists_get?_of_append h
  obtain ⟨ps, p, hps, -, rfl⟩ := of_child?_parameter ((get?_concat hhost _).symm.trans h)
  exact ⟨host, ps, p, hhost, hps, rfl⟩

theorem isSome_parameters?_iff (r : Record) : r.parameters?.isSome ↔
    r.kind = .function ∨ r.kind = .method ∨ r.kind = .constructor := by
  rcases r with _ | _ | e | _ | _ | _ | _
  case entry => cases e <;> simp [parameters?, kind, Entry.kind]
  all_goals simp [parameters?, kind]

theorem kind_ne_module_of_parameters? (h : r.parameters? = some ps) : r.kind ≠ .module := by
  have hkind := (isSome_parameters?_iff r).mp (by rw [h, Option.isSome_some])
  rcases hkind with hkind | hkind | hkind <;> simp [hkind]

theorem write?_withId (r : Record) (id : EntityId) (a : Attribute) (x : Option a.Value) :
    (r.withId id).write? a x = (r.write? a x).map (withId id) := by
  rcases r with _ | _ | e | _ | _ | _ | _
  case entry => cases e <;> cases a <;> rfl
  all_goals cases a <;> rfl

/-- What is stored in a record does not depend on its identifier. -/
theorem foldlM_store?_withId (settings : List Setting) (r : Record) (id : EntityId) :
    settings.foldlM store? (r.withId id) = (settings.foldlM store? r).map (withId id) := by
  induction settings generalizing r with
  | nil => rfl
  | cons c settings ih =>
    rw [List.foldlM_cons, List.foldlM_cons, store?, write?_withId, store?]
    cases r.write? c.part (some c.stored) with
    | none => rfl
    | some r' => exact ih r'

end Record

namespace Session

open Lineage

variable {start s s' : Session} {step : Step} {steps : List Step} {q : Place} {r r' host : Record}
variable {ps : Parameters} {p : Parameter} {index : Nat} {id : EntityId}

/-! ## 2. Openings -/

/-- The position that a step opens in the callable at a place, and the identifier that a
    parameter which is not there yet is given. -/
def opening? (q : Place) (s : Session) : Step → Option (Nat × EntityId)
  | .declare (.parameter index) => s.drafts.head?.bind fun draft =>
    if draft.place = q then some (index, s.lineage.next) else none
  | _ => none

theorem opening?_eq_some_iff : opening? q s step = some (index, id) ↔
    ∃ draft rest, s.drafts = draft :: rest ∧ draft.place = q ∧
      step = .declare (.parameter index) ∧ id = s.lineage.next := by
  unfold opening?
  split
  next other =>
    cases hdrafts : s.drafts with
    | nil => simp
    | cons draft rest =>
      by_cases hq : draft.place = q
      · simp [hq, eq_comm]
      · simp [hq]
  next hother => simp only [reduceCtorEq, false_iff]; rintro ⟨_, _, -, -, rfl, -⟩; exact hother _ rfl

theorem opening?_parameter {draft : Draft} {rest : List Draft} (hdrafts : s.drafts = draft :: rest)
    (index : Nat) : opening? draft.place s (.declare (.parameter index)) =
      some (index, s.lineage.next) :=
  opening?_eq_some_iff.mpr ⟨draft, rest, hdrafts, rfl, rfl, rfl⟩

/-- What an opening does: the parameter is there, or it is made and registered. -/
theorem Advance.of_opening (hadvance : s.Advance step s')
    (hopening : opening? q s step = some (index, id)) :
    id = s.lineage.next ∧ ∃ host ps, s.root.get? q = some host ∧ host.parameters? = some ps ∧
      ((∃ p, s.root.get? (q ++ [.parameter index]) = some (.parameter p) ∧ s'.root = s.root ∧
          s'.lineage = s.lineage) ∨
        (s.root.get? (q ++ [.parameter index]) = none ∧
          s'.root.get? (q ++ [.parameter index]) =
            some (.parameter { Parameter.ofIndex index with id }) ∧
          s'.lineage = (s.lineage.attach .parameter host.id).2)) := by
  obtain ⟨draft, rest, hdrafts, rfl, rfl, rfl⟩ := opening?_eq_some_iff.mp hopening
  obtain ⟨host, slot, hhost, hslot, hcases⟩ := hadvance.declare_cases hdrafts
  obtain ⟨rfl, ps, hps⟩ := Record.of_slotFor?_parameter hslot
  have hat : s.root.get? (draft.place ++ [.parameter index]) = host.child? (.parameter index) :=
    Record.get?_concat hhost _
  refine ⟨rfl, host, ps, hhost, hps, ?_⟩
  rcases hcases with ⟨child, hchild, hroot, hlineage⟩ | ⟨hempty, hlineage, handle, hmade⟩
  · obtain ⟨-, p, -, -, rfl⟩ := Record.of_child?_parameter hchild
    exact Or.inl ⟨p, hat.trans hchild, hroot, hlineage⟩
  · exact Or.inr ⟨hat.trans hempty, hmade, hlineage⟩

/-- A position that is not opened stays empty. -/
theorem Advance.get?_parameter_eq_none (hadvance : s.Advance step s')
    (hnew : s.root.get? (q ++ [.parameter index]) = none)
    (hopening : ∀ id, opening? q s step ≠ some (index, id)) :
    s'.root.get? (q ++ [.parameter index]) = none := by
  by_contra hthere
  obtain ⟨child, hget'⟩ := Option.ne_none_iff_exists'.mp hthere
  obtain ⟨-, -, p, -, -, rfl⟩ := Record.of_get?_parameter hget'
  obtain ⟨owner, -, ⟨old, hold, -⟩ | ⟨d, handle, hdeclares, -⟩⟩ :=
    hadvance.child_origin hget' (by simp [Record.kind])
  · cases hnew.symm.trans hold
  · obtain rfl := Record.declaration_eq_of_slotFor? hdeclares.slot
    obtain ⟨draft, rest, hdrafts, hplace⟩ := hdeclares.drafts
    exact hopening s.lineage.next
      (opening?_eq_some_iff.mpr ⟨draft, rest, hdrafts, hplace, hdeclares.step, rfl⟩)

/-! ## 3. One position -/

/-- Nothing is set in a record that is not there. -/
theorem Advance.setting?_eq_none (hadvance : s.Advance step s') (hnew : s.root.get? q = none) :
    setting? q s step = none := by
  have hne : ∀ {draft : Draft} {r : Record}, s.record? draft.place = some r → draft.place ≠ q := by
    rintro draft r hrecord rfl
    cases hnew.symm.trans hrecord
  cases hadvance with
  | unchanged _ _ _ draft rest r hdrafts hrecord => exact setting?_of_ne hdrafts (hne hrecord) _
  | edited _ draft rest r r' hdrafts hrecord => exact setting?_of_ne hdrafts (hne hrecord) _
  | _ => rfl

/-- **The history of a position.**  It was not opened and is empty; or its parameter is a
    new one, under the identifier of the first opening, with all that was given to it stored
    in it in order. -/
theorem parameter_cases_of_run? (hrun : s.run? steps = some s')
    (hnew : s.root.get? (q ++ [.parameter index]) = none) :
    ((s.log (opening? q) steps).find? (·.1 = index) = none ∧
      s'.root.get? (q ++ [.parameter index]) = none) ∨
    ∃ p, (s.log (opening? q) steps).find? (·.1 = index) = some (index, p.id) ∧
      s'.root.get? (q ++ [.parameter index]) = some (.parameter p) ∧ p.index = index ∧
      (s.log (setting? (q ++ [.parameter index])) steps).foldlM Record.store?
        (.parameter { Parameter.ofIndex index with id := p.id }) = some (.parameter p) := by
  induction steps generalizing s with
  | nil =>
    obtain rfl := Option.some.inj hrun
    exact Or.inl ⟨rfl, hnew⟩
  | cons step steps ih =>
    obtain ⟨next, hnext, hsteps⟩ := Option.bind_eq_some_iff.mp hrun
    have hadvance := advance_of_step? hnext
    rw [log_cons hnext, log_cons hnext, hadvance.setting?_eq_none hnew]
    by_cases hopened : ∃ id, opening? q s step = some (index, id)
    · -- from here on it is the parameter that is opened now
      obtain ⟨id, hopening⟩ := hopened
      obtain ⟨rfl, host, ps, -, -, ⟨p, hold, -⟩ | ⟨-, hmade, -⟩⟩ := hadvance.of_opening hopening
      · cases hnew.symm.trans hold
      · obtain ⟨p, hget, hid, hindex, hfold⟩ := parameter_of_run? hsteps hmade
        rw [← show p.id = s.lineage.next from hid] at hfold hopening
        exact Or.inr ⟨p, by simp [hopening], hget, hindex, hfold⟩
    · have hother : ∀ id, opening? q s step ≠ some (index, id) := fun id h => hopened ⟨id, h⟩
      have hskip : ((opening? q s step).toList ++ next.log (opening? q) steps).find?
          (·.1 = index) = (next.log (opening? q) steps).find? (·.1 = index) := by
        cases hopening : opening? q s step with
        | none => rfl
        | some opening =>
          obtain ⟨other, id⟩ := opening
          have hne : other ≠ index := fun heq => hother id (heq ▸ hopening)
          simp [hne]
      rw [hskip]
      exact ih hsteps (hadvance.get?_parameter_eq_none hnew hother)

/-- A position has a parameter if it had one before or was opened. -/
theorem isSome_get?_parameter_iff (hrun : s.run? steps = some s') (index : Nat) :
    (s'.root.get? (q ++ [.parameter index])).isSome ↔
      (s.root.get? (q ++ [.parameter index])).isSome ∨
        index ∈ (s.log (opening? q) steps).map Prod.fst := by
  cases hold : s.root.get? (q ++ [.parameter index]) with
  | some r =>
    obtain ⟨-, -, p, -, -, rfl⟩ := Record.of_get?_parameter hold
    obtain ⟨p', hget', -⟩ := parameter_of_run? hrun hold
    simp [hget']
  | none =>
    rcases parameter_cases_of_run? hrun hold with ⟨hfind, hget⟩ | ⟨p, hfind, hget, -⟩
    · have hnot : index ∉ (s.log (opening? q) steps).map Prod.fst := by
        intro hmem
        obtain ⟨opening, hopening, rfl⟩ := List.mem_map.mp hmem
        exact List.find?_eq_none.mp hfind opening hopening (by simp)
      simp [hget, hnot]
    · have hmem := List.mem_map_of_mem (f := Prod.fst) (List.mem_of_find?_eq_some hfind)
      simp only [hget, Option.isSome_some, hmem, or_true]

/-! ## 4. All positions -/

/-- How many rows the opening of a position adds to the lineage. -/
def growth? (q : Place) (s : Session) (step : Step) : Option Nat :=
  (opening? q s step).bind fun _ =>
    (s.step? step).map fun s' => s'.lineage.size - s.lineage.size

/-- An opening adds a row if there is nothing at the position. -/
theorem growth?_of_opening (hstep : s.step? step = some s')
    (hopening : opening? q s step = some (index, id)) :
    growth? q s step =
      some (if (s.root.get? (q ++ [.parameter index])).isNone then 1 else 0) := by
  have hgrowth : growth? q s step = some (s'.lineage.size - s.lineage.size) := by
    simp [growth?, hopening, hstep]
  obtain ⟨-, host, ps, -, -, ⟨p, hold, -, hlineage⟩ | ⟨hempty, -, hlineage⟩⟩ :=
    (advance_of_step? hstep).of_opening hopening
  · rw [hgrowth, hlineage, hold, Nat.sub_self]
    rfl
  · rw [hgrowth, hlineage, hempty]
    simp [attach, size]

/-- One more position counts if it is none of those before. -/
theorem card_filter_insert (positions : Finset Nat) (index : Nat) (counts : Nat → Prop)
    [DecidablePred counts] :
    ((insert index positions).filter counts).card =
      (positions.filter counts).card + if counts index ∧ index ∉ positions then 1 else 0 := by
  rw [Finset.filter_insert]
  by_cases hcounts : counts index
  · by_cases hmem : index ∈ positions
    · rw [if_pos hcounts, Finset.insert_eq_of_mem (Finset.mem_filter.mpr ⟨hmem, hcounts⟩),
        if_neg fun h => h.2 hmem, Nat.add_zero]
    · rw [if_pos hcounts, if_pos ⟨hcounts, hmem⟩,
        Finset.card_insert_of_notMem fun h => hmem (Finset.mem_filter.mp h).1]
  · rw [if_neg hcounts, if_neg fun h => hcounts h.1, Nat.add_zero]

/-- **As many rows are added as different positions are opened that were empty.** -/
theorem sum_growths (hrun : s.run? steps = some s') :
    (s.log (growth? q) steps).sum =
      (((s.log (opening? q) steps).map Prod.fst).toFinset.filter fun index =>
        (s.root.get? (q ++ [.parameter index])).isNone).card := by
  induction steps using List.reverseRecOn generalizing s' with
  | nil => rfl
  | append_singleton steps step ih =>
    rw [run?_append] at hrun
    obtain ⟨before, hbefore, hlast⟩ := Option.bind_eq_some_iff.mp hrun
    obtain ⟨after, hstep, hafter⟩ := Option.bind_eq_some_iff.mp hlast
    rw [log_append hbefore, log_append hbefore, log_cons hstep, log_cons hstep, log_nil, log_nil,
      List.append_nil, List.append_nil, List.sum_append, ih hbefore, List.map_append,
      List.toFinset_append]
    cases hopening : opening? q before step with
    | none => simp [growth?, hopening]
    | some opening =>
      obtain ⟨index, id⟩ := opening
      -- nothing is there yet if nothing was at first and the position was not opened before
      have hnone : (before.root.get? (q ++ [.parameter index])).isNone ↔
          (s.root.get? (q ++ [.parameter index])).isNone ∧
            index ∉ ((s.log (opening? q) steps).map Prod.fst).toFinset := by
        rw [Option.isNone_iff_eq_none, Option.isNone_iff_eq_none, ← Option.not_isSome_iff_eq_none,
          isSome_get?_parameter_iff hbefore, not_or, Option.not_isSome_iff_eq_none,
          List.mem_toFinset]
      rw [growth?_of_opening hstep hopening, Option.toList_some, List.sum_singleton,
        Option.toList_some, List.map_singleton, List.toFinset_cons, List.toFinset_nil,
        Finset.union_insert, Finset.union_empty, card_filter_insert]
      simp only [hnone]

end Session

end Declarations
