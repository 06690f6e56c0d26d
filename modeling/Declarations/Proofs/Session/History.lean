/-
  Declarations/Proofs/Session/History.lean
  ========================================
  **What a run has done to one record.**

  `Session.log` lists what the steps of a run do, in order, as far as an `event` tells it.
  One such event is the setting of an attribute (`Session.setting?`): the value that is
  given, if it is present, and what names mean to the draft at that moment.

  What a record is by its attributes depends on this list alone.  An attribute ends as the
  last value that was stored in it, or as it was (`read?_of_run?`), and a parameter is, as a
  whole, the old parameter with the list stored in it (`parameter_of_run?`).  Whatever else
  was done meanwhile, to the record itself, around it or elsewhere, has no part in it.
-/
import Declarations.Proofs.Record.Attributes
import Declarations.Proofs.Session.Readings

namespace Declarations

/-! ## 1. Settings -/

/-- A value given to an attribute, and what names mean at the time. -/
structure Setting where
  lookup : String → Option TypeHandle
  part : Attribute
  value : part.Value

namespace Setting

variable {c : Setting} {a : Attribute}

/-- An attribute and a value given to it. -/
def given (c : Setting) : (a : Attribute) × a.Value := ⟨c.part, c.value⟩

/-- The value that is stored: references are resolved. -/
def stored (c : Setting) : c.part.Value := c.part.resolve c.lookup c.value

/-- The value that is stored in an attribute, if it is this one that is set. -/
def storedAs? (a : Attribute) (c : Setting) : Option a.Value :=
  if h : c.part = a then some (h ▸ c.stored) else none

theorem storedAs?_self (c : Setting) : c.storedAs? c.part = some c.stored :=
  dif_pos rfl

theorem storedAs?_of_ne (h : a ≠ c.part) : c.storedAs? a = none :=
  dif_neg fun same => h same.symm

end Setting

namespace Record

variable {r r' : Record} {c : Setting} {a : Attribute}

/-- The record with a value stored in the attribute that is set. -/
def store? (r : Record) (c : Setting) : Option Record := r.write? c.part (some c.stored)

theorem read?_of_store? (h : r.store? c = some r') (a : Attribute) :
    r'.read? a = (r.read? a).map fun old => (c.storedAs? a).or old := by
  by_cases hsame : a = c.part
  · subst hsame
    have hhas := isSome_write? r c.part (some c.stored)
    rw [show r.write? c.part (some c.stored) = some r' from h, Option.isSome_some] at hhas
    obtain ⟨old, hold⟩ := Option.isSome_iff_exists.mp hhas.symm
    rw [read?_of_write? h, hold, Option.map_some, Setting.storedAs?_self, Option.some_or]
  · rw [read?_of_write?_of_ne h hsame, Setting.storedAs?_of_ne hsame]
    simp

theorem exists_eq_parameter_of_store? {p : Parameter} (h : (parameter p).store? c = some r') :
    ∃ p', r' = .parameter p' ∧ p'.id = p.id ∧ p'.index = p.index := by
  obtain ⟨lookup, a, value⟩ := c
  cases a <;> simp [store?, write?] at h <;> subst h <;> exact ⟨_, rfl, rfl, rfl⟩

end Record

namespace Session

variable {α β : Type} {event : Session → Step → Option α} {f : Record → α}
variable {s s' : Session} {step : Step} {steps rest : List Step} {draft : Draft}
variable {q : Place} {r r' : Record} {c : Setting}

/-! ## 2. What the steps of a run do -/

/-- What the steps of a run do, in order, as far as `event` tells it. -/
def log (event : Session → Step → Option α) : Session → List Step → List α
  | _, [] => []
  | s, step :: steps =>
    match s.step? step with
    | some s' => (event s step).toList ++ log event s' steps
    | none => []

@[simp]
theorem log_nil (event : Session → Step → Option α) (s : Session) : s.log event [] = [] := rfl

theorem log_cons (h : s.step? step = some s') :
    s.log event (step :: steps) = (event s step).toList ++ s'.log event steps := by
  simp only [log, h]

/-- What a longer run does is what each part of it does. -/
theorem log_append (h : s.run? steps = some s') :
    s.log event (steps ++ rest) = s.log event steps ++ s'.log event rest := by
  induction steps generalizing s with
  | nil =>
    obtain rfl := Option.some.inj h
    rfl
  | cons step steps ih =>
    obtain ⟨next, hnext, hsteps⟩ := Option.bind_eq_some_iff.mp h
    rw [List.cons_append, log_cons hnext, log_cons hnext, ih hsteps, List.append_assoc]

theorem log_eq_nil (h : ∀ step ∈ steps, ∀ s, event s step = none) (s : Session) :
    s.log event steps = [] := by
  induction steps generalizing s with
  | nil => rfl
  | cons step steps ih =>
    cases hstep : s.step? step with
    | none => simp only [log, hstep]
    | some next =>
      rw [log_cons hstep, h step List.mem_cons_self,
        ih (fun other hmem => h other (List.mem_cons_of_mem step hmem))]
      rfl

/-- The value that a step gives to an attribute of the record at a place. -/
def setting? (q : Place) (s : Session) : Step → Option Setting
  | .set a value => s.drafts.head?.bind fun draft =>
    if draft.place = q then
      (value.filter a.isPresent).map fun value => ⟨s.workspace.lookup draft.scope, a, value⟩
    else none
  | _ => none

theorem setting?_of_ne {rest : List Draft} (hdrafts : s.drafts = draft :: rest)
    (hq : draft.place ≠ q) (step : Step) : setting? q s step = none := by
  cases step <;> simp [setting?, hdrafts, hq]

theorem setting?_set {rest : List Draft} (hdrafts : s.drafts = draft :: rest) {a : Attribute}
    (value : Option a.Value) : setting? draft.place s (.set a value) =
      (value.filter a.isPresent).map fun value => ⟨s.workspace.lookup draft.scope, a, value⟩ := by
  simp [setting?, hdrafts]

/-! ## 3. One step -/

/-- A step stores what it sets in the record at a place. -/
theorem Advance.stores (hadvance : s.Advance step s') (hget : s.root.get? q = some r)
    (hsetting : setting? q s step = some c) :
    ∃ r', r.store? c = some r' ∧ s'.root.get? q = some r' := by
  cases hadvance with
  | unchanged a value habsent draft rest r₀ hdrafts hrecord hread =>
    by_cases hq : draft.place = q
    · subst hq
      rw [setting?_set hdrafts, habsent] at hsetting
      cases hsetting
    · rw [setting?_of_ne hdrafts hq] at hsetting
      cases hsetting
  | edited _ draft rest r₀ r₁ hdrafts hrecord houtline hid hchildren htypes hrevise =>
    cases step with
    | set a value =>
      by_cases hq : draft.place = q
      · subst hq
        obtain rfl := Option.some.inj (hrecord.symm.trans hget)
        rw [setting?_set hdrafts] at hsetting
        obtain ⟨given, hgiven, hwrite⟩ := Option.bind_eq_some_iff.mp hrevise
        rw [hgiven, Option.map_some] at hsetting
        obtain rfl := Option.some.inj hsetting
        exact ⟨r₁, hwrite, Record.get?_replace hget houtline⟩
      · rw [setting?_of_ne hdrafts hq] at hsetting
        cases hsetting
    | _ => cases hsetting
  | _ => cases hsetting

/-- A step that sets nothing in the record at a place is not seen by any reading that only
    settings change. -/
theorem Advance.view_settled (hf : Record.Settled f) (hadvance : s.Advance step s')
    (hget : s.root.get? q = some r) (hsetting : setting? q s step = none) :
    s'.root.view f q = some (f r) := by
  obtain ⟨r', hget', ⟨hown, -⟩ | ⟨draft, rest, hdrafts, rfl, hchange⟩⟩ := hadvance.own_cases hget
  · exact Record.view_eq_some_iff.mpr ⟨r', hget', hown hf.own⟩
  refine Record.view_eq_some_iff.mpr ⟨r', hget', ?_⟩
  rcases hchange with ⟨parameters, old, -, -, hnew⟩ | hrevise
  · exact hf.typeParameters hnew
  · -- the step is a change of a list
    have hedit : isEdit step := by
      cases step with
      | set a value =>
        obtain ⟨given, hgiven, -⟩ := Option.bind_eq_some_iff.mp hrevise
        rw [setting?_set hdrafts, hgiven] at hsetting
        cases hsetting
      | addImport | addExport | addImplements | addExtends => rfl
      | _ => simp [Record.revise?] at hrevise
    exact hf.revise hedit hrevise

/-! ## 4. A whole run -/

/-- **A reading that each step changes by what it does ends with all of it added, in
    order.** -/
theorem foldl_of_run? {act : β → α → β} {g : Record → β}
    (hstep : ∀ {s s' step r}, s.Advance step s' → s.root.get? q = some r →
      ∃ r', s'.root.get? q = some r' ∧ g r' = (event s step).toList.foldl act (g r))
    (hrun : s.run? steps = some s') (hget : s.root.get? q = some r) :
    ∃ r', s'.root.get? q = some r' ∧ g r' = (s.log event steps).foldl act (g r) := by
  induction steps generalizing s r with
  | nil =>
    obtain rfl := Option.some.inj hrun
    exact ⟨r, hget, rfl⟩
  | cons step steps ih =>
    obtain ⟨next, hnext, hsteps⟩ := Option.bind_eq_some_iff.mp hrun
    obtain ⟨r₁, hget₁, hread₁⟩ := hstep (advance_of_step? hnext) hget
    obtain ⟨r', hget', hread'⟩ := ih hsteps hget₁
    exact ⟨r', hget', by rw [hread', hread₁, log_cons hnext, List.foldl_append]⟩

/-- A record that was not there at first begins as a new one, and all that is done to it is
    added to that. -/
theorem exists_isNew_foldl_of_run? {act : β → α → β} {g : Record → β}
    (hstep : ∀ {s s' step r}, s.Advance step s' → s.root.get? q = some r →
      ∃ r', s'.root.get? q = some r' ∧ g r' = (event s step).toList.foldl act (g r))
    (habsent : ∀ {s s' step}, s.Advance step s' → s.root.get? q = none → event s step = none)
    (hrun : s.run? steps = some s') (hnew : s.root.get? q = none)
    (hget' : s'.root.get? q = some r') :
    ∃ r, r.IsNew ∧ g r' = (s.log event steps).foldl act (g r) := by
  induction steps generalizing s with
  | nil =>
    obtain rfl := Option.some.inj hrun
    cases hnew.symm.trans hget'
  | cons step steps ih =>
    obtain ⟨next, hnext, hsteps⟩ := Option.bind_eq_some_iff.mp hrun
    have hadvance := advance_of_step? hnext
    rw [log_cons hnext, habsent hadvance hnew]
    cases hget : next.root.get? q with
    | none => exact ih hsteps hget
    | some r =>
      obtain ⟨r₁, hget₁, hread⟩ := foldl_of_run? hstep hsteps hget
      obtain rfl := Option.some.inj (hget'.symm.trans hget₁)
      exact ⟨r, hadvance.isNew hnew hget, hread⟩

/-- The part of a log that is stored in an attribute, its last value. -/
theorem getLast?_filterMap_storedAs? (c : Setting) (settings : List Setting) (a : Attribute)
    (old : Option a.Value) :
    ((c :: settings).filterMap (·.storedAs? a)).getLast?.or old =
      (settings.filterMap (·.storedAs? a)).getLast?.or ((c.storedAs? a).or old) := by
  rw [List.filterMap_cons]
  cases c.storedAs? a with
  | none => rfl
  | some x =>
    rw [List.getLast?_cons]
    cases (settings.filterMap (·.storedAs? a)).getLast? <;> rfl

/-- **The last present value wins, attribute by attribute.** -/
theorem read?_of_run? (hrun : s.run? steps = some s') (hget : s.root.get? q = some r) :
    ∃ r', s'.root.get? q = some r' ∧ ∀ a, r'.read? a = (r.read? a).map fun old =>
      ((s.log (setting? q) steps).filterMap (·.storedAs? a)).getLast?.or old := by
  induction steps generalizing s r with
  | nil =>
    obtain rfl := Option.some.inj hrun
    exact ⟨r, hget, fun a => by simp⟩
  | cons step steps ih =>
    obtain ⟨next, hnext, hsteps⟩ := Option.bind_eq_some_iff.mp hrun
    have hadvance := advance_of_step? hnext
    rw [log_cons hnext]
    cases hsetting : setting? q s step with
    | none =>
      obtain ⟨r₁, hget₁, -⟩ := Record.view_eq_some_iff.mp
        (hadvance.view_settled (Record.settled_read? .name) hget hsetting)
      have hread : ∀ a, r₁.read? a = r.read? a := by
        intro a
        have hview := hadvance.view_settled (Record.settled_read? a) hget hsetting
        rw [Record.view, hget₁] at hview
        exact Option.some.inj hview
      obtain ⟨r', hget', hread'⟩ := ih hsteps hget₁
      refine ⟨r', hget', fun a => ?_⟩
      rw [hread', hread]
      rfl
    | some c =>
      obtain ⟨r₁, hstore, hget₁⟩ := hadvance.stores hget hsetting
      obtain ⟨r', hget', hread'⟩ := ih hsteps hget₁
      refine ⟨r', hget', fun a => ?_⟩
      rw [hread', Record.read?_of_store? hstore, Option.map_map, Option.toList_some,
        List.singleton_append]
      congr 1
      funext old
      exact (getLast?_filterMap_storedAs? c _ a old).symm

/-- **A parameter is what was stored in it, in order.** -/
theorem parameter_of_run? {p : Parameter} (hrun : s.run? steps = some s')
    (hget : s.root.get? q = some (.parameter p)) :
    ∃ p', s'.root.get? q = some (.parameter p') ∧ p'.id = p.id ∧ p'.index = p.index ∧
      (s.log (setting? q) steps).foldlM Record.store? (.parameter p) = some (.parameter p') := by
  induction steps generalizing s p with
  | nil =>
    obtain rfl := Option.some.inj hrun
    exact ⟨p, hget, rfl, rfl, rfl⟩
  | cons step steps ih =>
    obtain ⟨next, hnext, hsteps⟩ := Option.bind_eq_some_iff.mp hrun
    have hadvance := advance_of_step? hnext
    rw [log_cons hnext]
    cases hsetting : setting? q s step with
    | none =>
      obtain ⟨r₁, hget₁, hsame⟩ := Record.view_eq_some_iff.mp
        (hadvance.view_settled Record.settled_asParameter? hget hsetting)
      obtain rfl := Record.asParameter?_eq_some_iff.mp hsame
      exact ih hsteps hget₁
    | some c =>
      obtain ⟨r₁, hstore, hget₁⟩ := hadvance.stores hget hsetting
      obtain ⟨p₁, rfl, hid, hindex⟩ := Record.exists_eq_parameter_of_store? hstore
      obtain ⟨p', hget', hid', hindex', hfold⟩ := ih hsteps hget₁
      refine ⟨p', hget', hid'.trans hid, hindex'.trans hindex, ?_⟩
      rw [Option.toList_some, List.singleton_append, List.foldlM_cons, hstore]
      exact hfold

end Session

end Declarations
