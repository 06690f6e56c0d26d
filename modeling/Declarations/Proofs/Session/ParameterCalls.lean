/-
  Declarations/Proofs/Session/ParameterCalls.lean
  ===============================================
  **The order in which different parameters are declared does not matter.**

  A `ParameterCall` opens the parameter at a position, sets attributes of it and closes it.
  Calls follow one another in any order and always succeed (`exists_carries`).  A callable that
  is built from nothing ends with one parameter for each position that was opened
  (`Session.Accumulated`), and what is at a position depends on the calls for that position
  alone.  So calls for different positions can be exchanged: the parameters stay the same,
  except that their identifiers are given out in another order.
-/
import Declarations.Proofs.Record.Equality
import Declarations.Proofs.Session.Accumulation
import Declarations.Proofs.Session.Setters

namespace Declarations

/-! ## 1. Tables and identifiers -/

/-- A table has as many parameters as there are declared positions. -/
theorem Parameters.size_eq_card {ps : Parameters} {positions : Finset Nat}
    (h : ∀ index, index ∈ positions ↔ (ps.get? index).isSome) : ps.size = positions.card :=
  table_size_eq_card fun index => (h index).trans mem_byIndex.symm

/-- A parameter without its identifier. -/
def Parameter.withoutId (p : Parameter) : Parameter := { p with id := .unassigned }

/-- A parameter that is made from a new one is the same under any identifier. -/
theorem Record.withoutId_eq_of_foldlM_store? {settings : List Setting} {new p p' : Parameter}
    {id id' : EntityId}
    (h : settings.foldlM store? (.parameter { new with id }) = some (.parameter p))
    (h' : settings.foldlM store? (.parameter { new with id := id' }) = some (.parameter p')) :
    p.withoutId = p'.withoutId := by
  have hof : ∀ id : EntityId, settings.foldlM store? (.parameter { new with id }) =
      (settings.foldlM store? (.parameter new)).map (withId id) :=
    foldlM_store?_withId settings (.parameter new)
  rw [hof] at h h'
  obtain ⟨r, hr, hp⟩ := Option.map_eq_some_iff.mp h
  obtain ⟨r', hr', hp'⟩ := Option.map_eq_some_iff.mp h'
  obtain rfl := Option.some.inj (hr.symm.trans hr')
  rcases r with _ | _ | e | _ | _ | _ | made
  case parameter =>
    obtain rfl := Record.parameter.inj hp
    obtain rfl := Record.parameter.inj hp'
    rfl
  case entry => cases e <;> cases hp
  all_goals cases hp

/-- Where names mean the same all along, settings are the values that are given. -/
theorem Setting.eq_of_map_given_eq {names : String → Option TypeHandle} {cs cs' : List Setting}
    (hnames : ∀ c ∈ cs ++ cs', c.lookup = names) (hgiven : cs.map given = cs'.map given) :
    cs = cs' := by
  have hof : ∀ {cs : List Setting}, (∀ c ∈ cs, c.lookup = names) →
      (cs.map given).map (fun x => (⟨names, x.1, x.2⟩ : Setting)) = cs := by
    intro cs hnames
    rw [List.map_map]
    refine (List.map_congr_left fun c hmem => ?_).trans (List.map_id cs)
    rw [Function.comp_apply, ← hnames c hmem]
    rfl
  rw [← hof fun c hmem => hnames c (List.mem_append_left cs' hmem), hgiven,
    hof fun c hmem => hnames c (List.mem_append_right cs hmem)]

namespace Session

variable {start s u u' : Session} {steps steps' : List Step} {q : Place} {host host' : Record}
variable {ps ps' : Parameters} {index : Nat}

/-! ## 2. The parameters of a callable -/

/-- What a run has made of the parameters of a callable that was not there before. -/
structure Accumulated (start : Session) (steps : List Step) (s : Session) (q : Place)
    (host : Record) (ps : Parameters) : Prop where
  -- a parameter is where a position was opened, under the identifier of the first opening
  opened (index : Nat) : (ps.get? index).map Parameter.id =
    ((start.log (opening? q) steps).find? (·.1 = index)).map Prod.snd
  -- it knows its position
  index {index : Nat} {p : Parameter} : ps.get? index = some p → p.index = index
  -- it is a new parameter with all that was given to it stored in it, in order
  settings {index : Nat} {p : Parameter} : ps.get? index = some p →
    (start.log (setting? (q ++ [.parameter index])) steps).foldlM Record.store?
      (.parameter { Parameter.ofIndex index with id := p.id }) = some (.parameter p)
  -- there are as many as different positions were opened
  size : ps.size = ((start.log (opening? q) steps).map Prod.fst).toFinset.card
  -- and the openings have added as many rows
  growth : (start.log (growth? q) steps).sum = ps.size
  -- each is registered under the callable, for itself
  registered {index : Nat} {p : Parameter} : ps.get? index = some p →
    s.lineage.kind? p.id = some .parameter ∧ s.lineage.parent? p.id = some host.id
  distinct {index index' : Nat} {p p' : Parameter} : ps.get? index = some p →
    ps.get? index' = some p' → p.id = p'.id → index = index'

theorem get?_concat_parameter (hhost : s.root.get? q = some host)
    (hparameters : host.parameters? = some ps) (index : Nat) :
    s.root.get? (q ++ [.parameter index]) = (ps.get? index).map .parameter :=
  (Record.get?_concat hhost _).trans (Record.child?_parameter hparameters index)

theorem accumulated (hrun : start.run? steps = some s) (hnew : start.root.get? q = none)
    (hhost : s.root.get? q = some host) (hparameters : host.parameters? = some ps) :
    Accumulated start steps s q host ps := by
  have hempty : ∀ index, start.root.get? (q ++ [.parameter index]) = none := by
    intro index
    rw [Record.get?_append, hnew, Option.bind_none]
  have hat := get?_concat_parameter hhost hparameters
  have henrolled := enrolled_of_run? hnew hrun
  have hclosed := Record.kind_ne_module_of_parameters? hparameters
  -- the parameter at a position is the one of which the history tells
  have hhistory : ∀ {index p}, ps.get? index = some p →
      (start.log (opening? q) steps).find? (·.1 = index) = some (index, p.id) ∧
        p.index = index ∧
        (start.log (setting? (q ++ [.parameter index])) steps).foldlM Record.store?
          (.parameter { Parameter.ofIndex index with id := p.id }) = some (.parameter p) := by
    intro index p hp
    rcases parameter_cases_of_run? hrun (hempty index) with ⟨-, hnone⟩ | ⟨p', hfind, hget, hrest⟩
    · rw [hat, hp] at hnone
      cases hnone
    · rw [hat, hp] at hget
      obtain rfl := Record.parameter.inj (Option.some.inj hget)
      exact ⟨hfind, hrest⟩
  have hget : ∀ {index p}, ps.get? index = some p →
      s.root.get? (q ++ [.parameter index]) = some (.parameter p) := by
    intro index p hp
    rw [hat, hp, Option.map_some]
  have hsize : ps.size = ((start.log (opening? q) steps).map Prod.fst).toFinset.card := by
    apply Parameters.size_eq_card
    intro index
    have hpresent := isSome_get?_parameter_iff (q := q) hrun index
    rw [hempty, hat, Option.isSome_map, Option.isSome_none, Bool.false_eq_true, false_or]
      at hpresent
    rw [List.mem_toFinset, hpresent]
  constructor
  case opened =>
    intro index
    cases hp : ps.get? index with
    | some p => rw [(hhistory hp).1, Option.map_some, Option.map_some]
    | none =>
      rcases parameter_cases_of_run? hrun (hempty index) with ⟨hfind, -⟩ | ⟨p, -, hthere, -⟩
      · rw [hfind, Option.map_none, Option.map_none]
      · rw [hat, hp] at hthere
        cases hthere
  case index => exact fun hp => (hhistory hp).2.1
  case settings => exact fun hp => (hhistory hp).2.2
  case size => exact hsize
  case growth =>
    rw [sum_growths hrun, hsize, Finset.filter_true_of_mem]
    intro index _
    rw [hempty, Option.isNone_none]
  case registered =>
    intro index p hp
    exact henrolled.rows hhost hclosed (hget hp) (by simp [Record.kind])
  case distinct =>
    intro index index' p p' hp hp' heq
    exact Slot.parameter.inj
      (henrolled.distinct hhost hclosed (hget hp) (by simp [Record.kind]) (hget hp') heq)

/-! ## 3. Two runs -/

theorem bind_asParameter?_eq (hhost : s.root.get? q = some host)
    (hparameters : host.parameters? = some ps) (index : Nat) :
    (s.root.get? (q ++ [.parameter index])).bind Record.asParameter? = ps.get? index := by
  rw [get?_concat_parameter hhost hparameters]
  cases ps.get? index <;> rfl

/-- Runs with the same openings and settings of a position lead to the same parameter. -/
theorem withoutId_eq_of_runs (hrun : s.run? steps = some u) (hrun' : s.run? steps' = some u')
    (hhost : u.root.get? q = some host) (hparameters : host.parameters? = some ps)
    (hhost' : u'.root.get? q = some host') (hparameters' : host'.parameters? = some ps')
    (hopened : index ∈ (s.log (opening? q) steps).map Prod.fst ↔
      index ∈ (s.log (opening? q) steps').map Prod.fst)
    (hsettings : s.log (setting? (q ++ [.parameter index])) steps =
      s.log (setting? (q ++ [.parameter index])) steps') :
    (ps.get? index).map Parameter.withoutId = (ps'.get? index).map Parameter.withoutId := by
  rw [← bind_asParameter?_eq hhost hparameters, ← bind_asParameter?_eq hhost' hparameters']
  cases hold : s.root.get? (q ++ [.parameter index]) with
  | some r =>
    -- both go on with the parameter that is there
    obtain ⟨-, -, old, -, -, rfl⟩ := Record.of_get?_parameter hold
    obtain ⟨p, hget, -, -, hfold⟩ := parameter_of_run? hrun hold
    obtain ⟨p', hget', -, -, hfold'⟩ := parameter_of_run? hrun' hold
    rw [hsettings] at hfold
    rw [hget, hget', Option.some.inj (hfold.symm.trans hfold')]
  | none =>
    have hboth := ((isSome_get?_parameter_iff hrun index).trans (or_congr_right hopened)).trans
      (isSome_get?_parameter_iff hrun' index).symm
    rcases parameter_cases_of_run? hrun hold with ⟨-, hget⟩ | ⟨p, -, hget, -, hfold⟩ <;>
      rcases parameter_cases_of_run? hrun' hold with ⟨-, hget'⟩ | ⟨p', -, hget', -, hfold'⟩
    · rw [hget, hget']
    · simp [hget, hget'] at hboth
    · simp [hget, hget'] at hboth
    · rw [hsettings] at hfold
      rw [hget, hget']
      exact congrArg some (Record.withoutId_eq_of_foldlM_store? hfold hfold')

end Session

/-! ## 4. Calls -/

/-- The parameter at a position is opened, attributes of it are set, and it is closed. -/
structure ParameterCall where
  index : Nat
  arguments : List ((a : Attribute) × Option a.Value)
  -- parameters have the attributes
  settable : ∀ argument ∈ arguments, ((Record.parameter {}).read? argument.1).isSome

namespace ParameterCall

/-- The setting of attributes. -/
def sets (arguments : List ((a : Attribute) × Option a.Value)) : List Step :=
  arguments.map fun argument => .set argument.1 argument.2

def steps (call : ParameterCall) : List Step :=
  .declare (.parameter call.index) :: (sets call.arguments ++ [.close])

/-- What is given to the parameter, if names mean what `names` says. -/
def settings (names : String → Option TypeHandle)
    (arguments : List ((a : Attribute) × Option a.Value)) : List Setting :=
  arguments.filterMap fun argument =>
    (argument.2.filter argument.1.isPresent).map fun value => ⟨names, argument.1, value⟩

end ParameterCall

namespace Session

open ParameterCall

variable {s s' u : Session} {steps : List Step} {q : Place} {host : Record} {ps : Parameters}
variable {draft : Draft} {rest : List Draft} {r : Record}
variable {arguments : List ((a : Attribute) × Option a.Value)}

theorem isSome_read?_parameter (p : Parameter) (a : Attribute) :
    ((Record.parameter p).read? a).isSome = ((Record.parameter {}).read? a).isSome := by
  cases a <;> rfl

/-- An attribute of an open record can be set if the record has it, and the record keeps its
    attributes. -/
theorem exists_set (hdrafts : s.drafts = draft :: rest)
    (hrecord : s.record? draft.place = some r) {a : Attribute} (hhas : (r.read? a).isSome)
    (value : Option a.Value) :
    ∃ s' r', s.step? (.set a value) = some s' ∧ s'.drafts = s.drafts ∧
      s'.workspace = s.workspace ∧ s'.lineage = s.lineage ∧ s'.record? draft.place = some r' ∧
      ∀ b, (r'.read? b).isSome = (r.read? b).isSome := by
  have hcurrent := current?_eq_some_iff.mpr ⟨rest, hdrafts, hrecord⟩
  cases hvalue : value.filter a.isPresent with
  | none =>
    exact ⟨s, r, step?_set_of_absent hcurrent hhas hvalue, rfl, rfl, rfl, hrecord, fun _ => rfl⟩
  | some given =>
    obtain ⟨rfl, hpresent⟩ := Option.filter_eq_some_iff.mp hvalue
    obtain ⟨old, hold⟩ := Option.isSome_iff_exists.mp hhas
    obtain ⟨r', hwrite, hstep⟩ := step?_set_of_present hcurrent hold hpresent
    refine ⟨_, r', hstep, rfl, rfl, rfl,
      Record.get?_replace hrecord (Record.write?_keeps hwrite).1, fun b => ?_⟩
    have hread := Record.read?_of_store? (c := ⟨s.workspace.lookup draft.scope, a, given⟩) hwrite b
    rw [hread, Option.isSome_map]

/-- Attributes of an open record can be set, and nothing else happens. -/
theorem run?_sets (hdrafts : s.drafts = draft :: rest)
    (hrecord : s.record? draft.place = some r)
    (hhas : ∀ argument ∈ arguments, (r.read? argument.1).isSome) :
    ∃ s', s.run? (sets arguments) = some s' ∧ s'.drafts = s.drafts ∧ s'.workspace = s.workspace ∧
      s'.lineage = s.lineage ∧ ∀ q, s.log (setting? q) (sets arguments) =
        if draft.place = q then settings (s.workspace.lookup draft.scope) arguments else [] := by
  induction arguments generalizing s r with
  | nil => exact ⟨s, rfl, rfl, rfl, rfl, fun q => by split <;> rfl⟩
  | cons argument arguments ih =>
    obtain ⟨a, value⟩ := argument
    obtain ⟨next, r', hstep, hdrafts', hworkspace, hlineage, hrecord', hsame⟩ :=
      exists_set hdrafts hrecord (hhas ⟨a, value⟩ List.mem_cons_self) value
    obtain ⟨s', hrun, hdrafts'', hworkspace', hlineage', hlog⟩ :=
      ih (hdrafts'.trans hdrafts) hrecord' fun argument hmem => by
        rw [hsame]
        exact hhas argument (List.mem_cons_of_mem _ hmem)
    refine ⟨s', ?_, hdrafts''.trans hdrafts', hworkspace'.trans hworkspace,
      hlineage'.trans hlineage, fun q => ?_⟩
    · rw [sets, List.map_cons, run?_cons, hstep, Option.bind_some]
      exact hrun
    · rw [sets, List.map_cons, log_cons hstep]
      refine (congrArg _ (hlog q)).trans ?_
      by_cases hq : draft.place = q
      · subst hq
        rw [setting?_set hdrafts, if_pos rfl, if_pos rfl, hworkspace, settings, settings,
          List.filterMap_cons]
        cases value.filter a.isPresent <;> rfl
      · rw [setting?_of_ne hdrafts hq, if_neg hq, if_neg hq]
        rfl

/-- A callable can be asked for the parameter at any position. -/
theorem exists_opened (hdrafts : s.drafts = draft :: rest)
    (hhost : s.root.get? draft.place = some host) (hparameters : host.parameters? = some ps)
    (index : Nat) :
    ∃ s' p, s.step? (.declare (.parameter index)) = some s' ∧
      s'.drafts = ⟨draft.place ++ [.parameter index], draft.scope⟩ :: s.drafts ∧
      s'.workspace = s.workspace ∧ s.lineage.size ≤ s'.lineage.size ∧
      s'.record? (draft.place ++ [.parameter index]) = some (.parameter p) := by
  have hslot := Record.slotFor?_parameter hparameters index
  cases hchild : host.child? (.parameter index) with
  | some child =>
    have hadvance : s.Advance (.declare (.parameter index)) _ :=
      .childReopened draft rest (.parameter index) host child _ hdrafts hhost hslot hchild
    obtain ⟨ps, p, -, -, rfl⟩ := Record.of_child?_parameter hchild
    exact ⟨_, p, step?_of_advance hadvance, rfl, rfl, Nat.le_refl _,
      (Record.get?_concat hhost _).trans hchild⟩
  | none =>
    have hadvance : s.Advance (.declare (.parameter index)) _ :=
      .childDeclared draft rest (.parameter index) host _ none s.workspace draft.scope s.workspace
        hdrafts hhost hslot hchild rfl rfl
    obtain ⟨-, owner, ps, -, -, ⟨p, hold, -⟩ | ⟨-, hmade, hlineage⟩⟩ :=
      hadvance.of_opening (opening?_parameter hdrafts index)
    · cases ((Record.get?_concat hhost _).trans hchild).symm.trans hold
    · refine ⟨_, _, step?_of_advance hadvance, rfl, rfl, ?_, hmade⟩
      rw [hlineage]
      simp [Lineage.attach, Lineage.size]

/-- A callable stays one. -/
theorem exists_parameters?_of_run? (hrun : s.run? steps = some s')
    (hhost : s.root.get? q = some host) (hparameters : host.parameters? = some ps) :
    ∃ host' ps', s'.root.get? q = some host' ∧ host'.parameters? = some ps' := by
  refine invariant_of_run? (I := fun s => ∃ host ps, s.root.get? q = some host ∧
    host.parameters? = some ps) ⟨host, ps, hhost, hparameters⟩ ?_ hrun
  rintro s s' step ⟨host, ps, hhost, hparameters⟩ hadvance
  obtain ⟨host', hhost', hkind, -⟩ := hadvance.exists_same_identity hhost
  have hsome : host'.parameters?.isSome := by
    rw [Record.isSome_parameters?_iff, hkind, ← Record.isSome_parameters?_iff, hparameters]
    rfl
  obtain ⟨ps', hparameters'⟩ := Option.isSome_iff_exists.mp hsome
  exact ⟨host', ps', hhost', hparameters'⟩

/-- What calls do to a session with a callable open: they open the positions that they are
    for and give to each parameter what they say, and drafts and names stay. -/
structure Carries (draft : Draft) (calls : List ParameterCall) (s s' : Session) : Prop where
  run : s.run? (calls.flatMap ParameterCall.steps) = some s'
  drafts : s'.drafts = s.drafts
  workspace : s'.workspace = s.workspace
  opened : (s.log (opening? draft.place) (calls.flatMap ParameterCall.steps)).map Prod.fst =
    calls.map ParameterCall.index
  settings (index : Nat) : s.log (setting? (draft.place ++ [.parameter index]))
      (calls.flatMap ParameterCall.steps) =
    (calls.filter (·.index = index)).flatMap fun call =>
      ParameterCall.settings (s.workspace.lookup draft.scope) call.arguments
  rows : s'.lineage.size = s.lineage.size +
    (s.log (growth? draft.place) (calls.flatMap ParameterCall.steps)).sum

theorem Carries.append {calls calls' : List ParameterCall} (h : Carries draft calls s s')
    (h' : Carries draft calls' s' u) : Carries draft (calls ++ calls') s u := by
  constructor
  case run => rw [List.flatMap_append, run?_append, h.run, Option.bind_some, h'.run]
  case drafts => exact h'.drafts.trans h.drafts
  case workspace => exact h'.workspace.trans h.workspace
  case opened =>
    rw [List.flatMap_append, log_append h.run, List.map_append, h.opened, h'.opened,
      List.map_append]
  case settings =>
    intro index
    rw [List.flatMap_append, log_append h.run, h.settings, h'.settings, List.filter_append,
      List.flatMap_append, h.workspace]
  case rows =>
    rw [List.flatMap_append, log_append h.run, List.sum_append, h'.rows, h.rows, Nat.add_assoc]

theorem exists_carries_singleton (hdrafts : s.drafts = draft :: rest)
    (hhost : s.root.get? draft.place = some host) (hparameters : host.parameters? = some ps)
    (call : ParameterCall) : ∃ s', Carries draft [call] s s' := by
  obtain ⟨opened, p, hopen, hopened, hworkspace, hsize, hrecord⟩ :=
    exists_opened hdrafts hhost hparameters call.index
  obtain ⟨done, hsets, hdone, hworkspace', hlineage, hlog⟩ :=
    run?_sets hopened hrecord fun argument hmem => by
      rw [isSome_read?_parameter]
      exact call.settable argument hmem
  let closed : Session := { done with drafts := s.drafts }
  have hclose : done.step? .close = some closed :=
    step?_of_advance (.closed _ _ (hdone.trans hopened))
  have hsteps : [call].flatMap ParameterCall.steps = call.steps := List.flatMap_singleton _ _
  -- what the steps of a call do is what each of its three parts does
  have hparts : ∀ {α : Type} (event : Session → Step → Option α), s.log event call.steps =
      (event s (.declare (.parameter call.index))).toList ++
        (opened.log event (sets call.arguments) ++ (event done .close).toList) := by
    intro α event
    rw [ParameterCall.steps, log_cons hopen, log_append hsets, log_cons hclose, log_nil,
      List.append_nil]
  have hnothing : ∀ {α : Type} {event : Session → Step → Option α},
      (∀ s a value, event s (.set a value) = none) →
      opened.log event (sets call.arguments) = [] := by
    intro α event h
    refine log_eq_nil (fun step hmem s => ?_) opened
    obtain ⟨argument, -, rfl⟩ := List.mem_map.mp hmem
    exact h s _ _
  have hopening := opening?_parameter hdrafts call.index
  refine ⟨closed, ?_⟩
  constructor
  case run =>
    rw [hsteps, ParameterCall.steps, run?_cons, hopen, Option.bind_some, run?_append, hsets,
      Option.bind_some, run?_cons, hclose]
    rfl
  case drafts => rfl
  case workspace => exact hworkspace'.trans hworkspace
  case opened =>
    rw [hsteps, hparts, hopening, hnothing fun _ _ _ => rfl]
    rfl
  case settings =>
    intro index
    rw [hsteps, hparts, hlog, hworkspace]
    by_cases hindex : call.index = index
    · subst hindex
      simp [setting?]
    · simp [setting?, hindex]
  case rows =>
    have hgrowth : growth? draft.place s (.declare (.parameter call.index)) =
        some (opened.lineage.size - s.lineage.size) := by
      simp [growth?, hopening, hopen]
    have hlast : growth? draft.place done .close = none := rfl
    have hsame : closed.lineage = opened.lineage := hlineage
    rw [hsteps, hparts, hgrowth, hnothing fun _ _ _ => rfl, hlast, hsame]
    simp only [Option.toList_some, Option.toList_none, List.append_nil, List.sum_singleton]
    omega

/-- **Calls always succeed.** -/
theorem exists_carries (hdrafts : s.drafts = draft :: rest)
    (hhost : s.root.get? draft.place = some host) (hparameters : host.parameters? = some ps)
    (calls : List ParameterCall) : ∃ s', Carries draft calls s s' := by
  induction calls generalizing s host ps with
  | nil => exact ⟨s, rfl, rfl, rfl, rfl, fun _ => rfl, rfl⟩
  | cons call calls ih =>
    obtain ⟨next, hfirst⟩ := exists_carries_singleton hdrafts hhost hparameters call
    obtain ⟨host', ps', hhost', hparameters'⟩ :=
      exists_parameters?_of_run? hfirst.run hhost hparameters
    obtain ⟨s', hrest⟩ := ih (hfirst.drafts.trans hdrafts) hhost' hparameters'
    exact ⟨s', hfirst.append hrest⟩

theorem mem_map_index_iff {calls calls' : List ParameterCall}
    (h : ∀ index, calls.filter (·.index = index) = calls'.filter (·.index = index))
    (index : Nat) :
    index ∈ calls.map ParameterCall.index ↔ index ∈ calls'.map ParameterCall.index := by
  have hfilter : ∀ calls : List ParameterCall,
      index ∈ calls.map ParameterCall.index ↔ calls.filter (·.index = index) ≠ [] := by
    intro calls
    simp [List.filter_eq_nil_iff]
  rw [hfilter, hfilter, h]

/-- **Parameters accumulate by position.**

    Of a callable that was not there at first, whatever was done since: it has one parameter
    for each position that was opened, under the identifier of the first opening and
    registered under the callable, and the openings have added as many rows to the lineage.
    The parameter is a new one with all that was given to it stored in it, in order.

    So if names mean the same all along, two runs that open the same positions and give the
    same values to each, in any order of positions, end with the same parameters except for
    their identifiers.  In particular calls can be permuted, as long as those for each
    position keep their order: they always succeed and leave drafts and names as they are. -/
theorem parameters_accumulate :
    (∀ (start s : Session) (steps : List Step) (q : Place) (host : Record) (ps : Parameters),
      start.run? steps = some s → start.root.get? q = none → s.root.get? q = some host →
      host.parameters? = some ps → Accumulated start steps s q host ps) ∧
    (∀ (s u u' : Session) (steps steps' : List Step) (q : Place) (host host' : Record)
      (ps ps' : Parameters) (names : String → Option TypeHandle),
      s.run? steps = some u → u.root.get? q = some host → host.parameters? = some ps →
      s.run? steps' = some u' → u'.root.get? q = some host' → host'.parameters? = some ps' →
      (∀ index, index ∈ (s.log (opening? q) steps).map Prod.fst ↔
        index ∈ (s.log (opening? q) steps').map Prod.fst) →
      (∀ index, ∀ c ∈ s.log (setting? (q ++ [.parameter index])) steps ++
        s.log (setting? (q ++ [.parameter index])) steps', c.lookup = names) →
      (∀ index, (s.log (setting? (q ++ [.parameter index])) steps).map Setting.given =
        (s.log (setting? (q ++ [.parameter index])) steps').map Setting.given) →
      ∀ index, (ps.get? index).map Parameter.withoutId =
        (ps'.get? index).map Parameter.withoutId) ∧
    (∀ (s : Session) (draft : Draft) (host : Record) (ps : Parameters)
      (calls calls' : List ParameterCall), s.current? = some (draft, host) →
      host.parameters? = some ps →
      (∀ index, calls.filter (·.index = index) = calls'.filter (·.index = index)) →
      ∃ u u' host₁ host₂ ps₁ ps₂, s.run? (calls.flatMap ParameterCall.steps) = some u ∧
        s.run? (calls'.flatMap ParameterCall.steps) = some u' ∧
        u.drafts = s.drafts ∧ u'.drafts = s.drafts ∧
        u.workspace = s.workspace ∧ u'.workspace = s.workspace ∧
        u.record? draft.place = some host₁ ∧ host₁.parameters? = some ps₁ ∧
        u'.record? draft.place = some host₂ ∧ host₂.parameters? = some ps₂ ∧
        (∀ index, (ps₁.get? index).map Parameter.withoutId =
          (ps₂.get? index).map Parameter.withoutId) ∧
        u.lineage.size = s.lineage.size + ((calls.map ParameterCall.index).toFinset.filter
          fun index => (ps.get? index).isNone).card ∧
        u'.lineage.size = u.lineage.size) := by
  refine ⟨?single, ?two, ?permuted⟩
  case single =>
    intro start s steps q host ps hrun hnew hhost hparameters
    exact accumulated hrun hnew hhost hparameters
  case two =>
    intro s u u' steps steps' q host host' ps ps' names hrun hhost hparameters hrun' hhost'
      hparameters' hopened hnames hgiven index
    exact withoutId_eq_of_runs hrun hrun' hhost hparameters hhost' hparameters' (hopened index)
      (Setting.eq_of_map_given_eq (hnames index) (hgiven index))
  case permuted =>
    intro s draft host ps calls calls' hcurrent hparameters hsame
    obtain ⟨rest, hdrafts, hhost⟩ := current?_eq_some_iff.mp hcurrent
    obtain ⟨u, hcarries⟩ := exists_carries hdrafts hhost hparameters calls
    obtain ⟨u', hcarries'⟩ := exists_carries hdrafts hhost hparameters calls'
    obtain ⟨host₁, ps₁, hhost₁, hparameters₁⟩ :=
      exists_parameters?_of_run? hcarries.run hhost hparameters
    obtain ⟨host₂, ps₂, hhost₂, hparameters₂⟩ :=
      exists_parameters?_of_run? hcarries'.run hhost hparameters
    have hindices := mem_map_index_iff hsame
    have hsize : ∀ {calls v}, Carries draft calls s v → v.lineage.size = s.lineage.size +
        ((calls.map ParameterCall.index).toFinset.filter
          fun index => (ps.get? index).isNone).card := by
      intro calls v h
      rw [h.rows, sum_growths h.run, h.opened]
      simp only [get?_concat_parameter hhost hparameters, Option.isNone_map]
    refine ⟨u, u', host₁, host₂, ps₁, ps₂, hcarries.run, hcarries'.run, hcarries.drafts,
      hcarries'.drafts, hcarries.workspace, hcarries'.workspace, hhost₁, hparameters₁, hhost₂,
      hparameters₂, fun index => ?_, hsize hcarries, ?_⟩
    · refine withoutId_eq_of_runs hcarries.run hcarries'.run hhost₁ hparameters₁ hhost₂
        hparameters₂ ?_ ?_
      · rw [hcarries.opened, hcarries'.opened, hindices]
      · rw [hcarries.settings, hcarries'.settings, hsame]
    · have hset : (calls.map ParameterCall.index).toFinset =
          (calls'.map ParameterCall.index).toFinset := by
        ext index
        rw [List.mem_toFinset, List.mem_toFinset, hindices]
      rw [hsize hcarries, hsize hcarries', hset]

/-- The parameter at the largest position of 64 bits is opened, then the one at 0, then the
    largest again; or the one at 0 first. -/
theorem parameters_accumulate_largest :
    ∃ (a b c : ParameterCall) (s u u' : Session) (host host' : Record) (ps ps' : Parameters),
      a.index = 2 ^ 64 - 1 ∧ b.index = 0 ∧ c.index = 2 ^ 64 - 1 ∧
      (ofProgram ∅ {}).run? [.openModule "app", .declare (.function "log")] = some s ∧
      s.run? ([a, b, c].flatMap ParameterCall.steps) = some u ∧
      s.run? ([b, a, c].flatMap ParameterCall.steps) = some u' ∧
      u.record? [.module "app", .entry 0] = some host ∧ host.parameters? = some ps ∧
      ps.size = 2 ∧ (ps.get? (2 ^ 64 - 1)).map (fun p => (p.id, p.name, p.isRest, p.isOptional)) =
        some (⟨3⟩, some "rest", some true, some false) ∧
      Accumulated (ofProgram ∅ {}) ([.openModule "app", .declare (.function "log")] ++
        [a, b, c].flatMap ParameterCall.steps) u [.module "app", .entry 0] host ps ∧
      u'.record? [.module "app", .entry 0] = some host' ∧ host'.parameters? = some ps' ∧
      ∀ index, (ps.get? index).map Parameter.withoutId =
        (ps'.get? index).map Parameter.withoutId := by
  obtain ⟨a, b, c, s, u, draft, before, host, table, ps, ha, hb, hc, hs, hu, hcurrent, hplace, htable,
      hhost, hps, hsize, hlast⟩ : ∃ (a b c : ParameterCall) (s u : Session) (draft : Draft)
        (before host : Record) (table ps : Parameters),
      a.index = 2 ^ 64 - 1 ∧ b.index = 0 ∧ c.index = 2 ^ 64 - 1 ∧
      (ofProgram ∅ {}).run? [.openModule "app", .declare (.function "log")] = some s ∧
      s.run? ([a, b, c].flatMap ParameterCall.steps) = some u ∧
      s.current? = some (draft, before) ∧ draft.place = [.module "app", .entry 0] ∧
      before.parameters? = some table ∧
      u.record? [.module "app", .entry 0] = some host ∧ host.parameters? = some ps ∧
      ps.size = 2 ∧ (ps.get? (2 ^ 64 - 1)).map (fun p => (p.id, p.name, p.isRest, p.isOptional)) =
        some (⟨3⟩, some "rest", some true, some false) :=
    ⟨⟨2 ^ 64 - 1, [⟨.name, some "rest"⟩, ⟨.isRest, some true⟩], by decide⟩,
      ⟨0, [⟨.type, some (.bare (.name "Level"))⟩], by decide⟩,
      ⟨2 ^ 64 - 1, [⟨.name, some ""⟩, ⟨.isRest, none⟩, ⟨.isOptional, some false⟩], by decide⟩,
      _, _, _, _, _, _, _, rfl, rfl, rfl, rfl, rfl, rfl, rfl, rfl, rfl, rfl,
      by decide +kernel, by decide +kernel⟩
  have hsame : ∀ index, [a, b, c].filter (·.index = index) = [b, a, c].filter (·.index = index) := by
    intro index
    by_cases hindex : index = 0
    · simp [ha, hb, hc, hindex]
    · simp [hb, List.filter_cons, Ne.symm hindex]
  obtain ⟨hsingle, -, hpermuted⟩ := parameters_accumulate
  obtain ⟨v, u', host₁, host', ps₁, ps', hv, hu', -, -, -, -, hhost₁, hps₁, hhost', hps', hequal, -⟩ :=
    hpermuted s draft before table _ _ hcurrent htable hsame
  obtain rfl := Option.some.inj (hu.symm.trans hv)
  rw [hplace] at hhost₁ hhost'
  obtain rfl := Option.some.inj (hhost.symm.trans hhost₁)
  obtain rfl := Option.some.inj (hps.symm.trans hps₁)
  have hrun : (ofProgram ∅ {}).run? ([.openModule "app", .declare (.function "log")] ++
      [a, b, c].flatMap ParameterCall.steps) = some u := by
    rw [run?_append, hs, Option.bind_some, hu]
  exact ⟨a, b, c, s, u, u', host, host', ps, ps', ha, hb, hc, hs, hu, hu', hhost, hps, hsize, hlast,
    hsingle _ _ _ _ _ _ hrun rfl hhost hps, hhost', hps', hequal⟩

end Session

end Declarations
