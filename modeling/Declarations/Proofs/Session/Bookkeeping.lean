/-
  Declarations/Proofs/Session/Bookkeeping.lean
  ============================================
  **Imports and exports are recorded and nothing else.**

  No step but these two reads or writes the imports and exports of a module, so a step does
  the same to a session without them (`step?_unlinked`), and the two that record a link do
  nothing to it (`unlinked_of_link?`).  A run from which all recording of links is taken out
  therefore ends in the same session except for the links (`exists_run?_filter`).

  The links of a module in turn are those that the run records in it, in order
  (`links_of_run?`).  So runs that differ only in the order in which links with different keys
  are recorded end in the same session.
-/
import Declarations.Proofs.Record.Equality
import Declarations.Proofs.Record.Links
import Declarations.Proofs.Session.Setters

namespace Declarations

/-- The link that a step records, if it records one. -/
def Step.link? : Step → Option Link
  | .addImport path asName name => some (.imported path asName name)
  | .addExport asName name => some (.exported asName name)
  | _ => none

theorem Record.revise?_unlinked {step : Step} (hlink : step.link? = none) (r : Record)
    (lookup : String → Option TypeHandle) :
    r.unlinked.revise? lookup step = (r.revise? lookup step).map unlinked := by
  cases step with
  | set a value =>
    rw [revise?, revise?]
    cases value.filter a.isPresent with
    | none => rfl
    | some value => exact r.write?_unlinked a _
  | addImport | addExport => cases hlink
  | _ =>
    rcases r with _ | _ | e | _ | _ | _ | _
    case entry => cases e <;> rfl
    all_goals rfl

theorem Record.own_ledger : Record.Own Record.ledger where
  put r slot child := by
    unfold Record.put
    split <;> rfl
  moduleId _ _ := rfl

theorem Record.ledger_withTypeParameters? {r r' : Record} {handles : Option (List TypeHandle)}
    (h : r.withTypeParameters? handles = some r') : r'.ledger = r.ledger := by
  rcases r with _ | _ | e | _ | _ | _ | _
  case entry => cases e <;> cases h <;> rfl
  case method => cases h; rfl
  all_goals cases h

theorem Record.ledger_write? {r r' : Record} {a : Attribute} {x : Option a.Value}
    (h : r.write? a x = some r') : r'.ledger = r.ledger := by
  rcases r with _ | _ | e | _ | _ | _ | _
  case entry => cases e <;> cases a <;> simp [write?] at h <;> subst h <;> rfl
  all_goals cases a <;> simp [write?] at h <;> subst h <;> rfl

theorem Record.ledger_revise? {step : Step} {r r' : Record} {lookup : String → Option TypeHandle}
    (h : r.revise? lookup step = some r') :
    r'.ledger = step.link?.toList.foldl Module.link r.ledger := by
  unfold revise? at h
  split at h
  case h_3 r a value =>
    obtain ⟨given, -, hwrite⟩ := Option.bind_eq_some_iff.mp h
    exact ledger_write? hwrite
  case h_6 => cases h
  all_goals
    obtain rfl := Option.some.inj h
    rfl

/-! ## 1. Sessions without imports and exports -/

namespace Session

variable {s s' t u u' : Session} {step : Step} {steps steps' : List Step} {q : Place}
variable {r r' : Record} {m m' old : Module}

/-- The session without the imports and exports of its modules. -/
def unlinked (s : Session) : Session := { s with root := s.root.unlinked }

theorem record?_unlinked (s : Session) (place : Place) :
    s.unlinked.record? place = (s.record? place).map .unlinked :=
  Record.get?_unlinked s.root place

theorem replace_unlinked (s : Session) (place : Place) (r : Record) :
    s.unlinked.replace place r.unlinked = (s.replace place r).unlinked := by
  rw [replace, replace, unlinked, unlinked, Record.replace_unlinked]

theorem declareType_unlinked (s : Session) (scope : Scope) (d : Declaration) :
    s.unlinked.declareType scope d =
      ((s.declareType scope d).1, (s.declareType scope d).2.unlinked) := by
  unfold declareType
  cases d.typeName? <;> rfl

theorem adopt_unlinked (s : Session) (place : Place) (owner : Record) (slot : Slot)
    (d : Declaration) (handle : Option TypeHandle) :
    s.unlinked.adopt place owner.unlinked slot (d.bare handle) =
      (s.adopt place owner slot (d.bare handle)).unlinked := by
  simp only [adopt, unlinked, Record.id_unlinked, Record.replace_unlinked, Record.put_unlinked,
    Record.unlinked_withId_bare]

/-- What is asked of the innermost record and done to it. -/
theorem bind_current?_unlinked {f g : Draft × Record → Option Session}
    (hfg : ∀ draft r, g (draft, r.unlinked) = (f (draft, r)).map unlinked) :
    s.unlinked.current?.bind g = (s.current?.bind f).map unlinked := by
  have hcurrent : s.unlinked.current? = s.current?.map (Prod.map id Record.unlinked) := by
    rw [current?, current?, show s.unlinked.drafts = s.drafts from rfl]
    cases s.drafts with
    | nil => rfl
    | cons draft rest =>
      simp only [List.head?_cons, Option.bind_some, record?_unlinked, Option.map_map]
      rfl
  rw [hcurrent]
  cases s.current? with
  | none => rfl
  | some current => exact hfg current.1 current.2

theorem openModule?_unlinked (s : Session) (path : String) :
    s.unlinked.openModule? path = (s.openModule? path).map unlinked := by
  obtain ⟨root, lineage, workspace, moduleScopes, drafts⟩ := s
  cases drafts with
  | cons draft rest => cases root <;> rfl
  | nil =>
    cases root with
    | program p =>
      have hmodule : (p.modules.map fun _ => Module.unlinked)[path]?.getD (.atPath path) =
          (p.modules[path]?.getD (.atPath path)).unlinked := by
        rw [Std.ExtTreeMap.getElem?_map]
        cases p.modules[path]? <;> rfl
      simp only [openModule?, unlinked, Record.unlinked, hmodule, map_insert_map, Option.map_some]
      rfl
    | _ => rfl

theorem declare?_unlinked (s : Session) (d : Declaration) :
    s.unlinked.declare? d = (s.declare? d).map unlinked := by
  rw [declare?, declare?, show s.unlinked.drafts = s.drafts from rfl]
  cases s.drafts with
  | nil => rfl
  | cons draft rest =>
    simp only [List.head?_cons, Option.bind_some, record?_unlinked]
    cases howner : s.record? (d.ownerPlace draft.place) with
    | none => rfl
    | some owner =>
      simp only [Option.map_some, Option.bind_some, Record.slotFor?_unlinked, Option.map_map]
      congr 1
      funext slot
      simp only [Function.comp_apply, declareType_unlinked, Record.child?_unlinked,
        Option.isSome_map, adopt_unlinked]
      split <;> rfl

theorem set?_unlinked (s : Session) (a : Attribute) (value : Option a.Value) :
    s.unlinked.set? a value = (s.set? a value).map unlinked := by
  apply bind_current?_unlinked
  intro draft r
  dsimp only
  cases value.filter a.isPresent with
  | none =>
    dsimp only
    rw [Record.read?_unlinked, Option.map_map]
    rfl
  | some given =>
    dsimp only
    rw [show s.unlinked.workspace = s.workspace from rfl, Record.write?_unlinked, Option.map_map,
      Option.map_map]
    simp only [Function.comp_def, replace_unlinked]

theorem addTypeParameters?_unlinked (s : Session) (parameters : List TypeIdentifier) :
    s.unlinked.addTypeParameters? parameters = (s.addTypeParameters? parameters).map unlinked := by
  apply bind_current?_unlinked
  intro draft r
  dsimp only
  rw [Record.typeParameters?_unlinked]
  cases r.typeParameters? with
  | none => rfl
  | some old =>
    simp only [Option.bind_some, Record.withTypeParameters?_unlinked, Option.map_map]
    congr 1
    funext r'
    exact replace_unlinked { s with
      workspace := (s.workspace.declareTypeParameters draft.scope parameters).2 } draft.place r'

/-- **Steps that record no link do the same without imports and exports.** -/
theorem step?_unlinked (hlink : step.link? = none) (s : Session) :
    s.unlinked.step? step = (s.step? step).map unlinked := by
  cases step with
  | openModule path => exact s.openModule?_unlinked path
  | declare d => exact s.declare?_unlinked d
  | close =>
    rw [step?, step?, show s.unlinked.drafts = s.drafts from rfl]
    cases s.drafts <;> rfl
  | addImport | addExport => cases hlink
  | set a value => exact s.set?_unlinked a value
  | addTypeParameters parameters => exact s.addTypeParameters?_unlinked parameters
  | addImplements | addExtends =>
    rw [step?_eq_edit? rfl, step?_eq_edit? rfl]
    apply bind_current?_unlinked
    intro draft r
    dsimp only
    rw [show s.unlinked.workspace = s.workspace from rfl, Record.revise?_unlinked rfl,
      Option.map_map, Option.map_map]
    simp only [Function.comp_def, replace_unlinked]

/-- **A step that records a link changes nothing else.** -/
theorem unlinked_of_link? (hlink : step.link?.isSome) (h : s.step? step = some s') :
    s'.unlinked = s.unlinked := by
  have hedit : ∀ change : Module → Module, (∀ m, (change m).unlinked = m.unlinked) →
      s.editModule? change = some s' → s'.unlinked = s.unlinked := by
    intro change hchange hedit
    obtain ⟨⟨draft, r⟩, hcurrent, h⟩ := Option.bind_eq_some_iff.mp hedit
    obtain ⟨rest, -, hrecord⟩ := current?_eq_some_iff.mp hcurrent
    obtain ⟨r', hr', rfl⟩ := Option.map_eq_some_iff.mp h
    cases r with
    | module m =>
      obtain rfl := Option.some.inj hr'
      have hsame : (Record.module (change m)).unlinked = (Record.module m).unlinked :=
        congrArg Record.module (hchange m)
      have hget : s.root.unlinked.get? draft.place = some (Record.module m).unlinked := by
        rw [Record.get?_unlinked, show s.root.get? draft.place = some (.module m) from hrecord,
          Option.map_some]
      rw [← replace_unlinked, hsame, replace, unlinked, Record.replace_self hget]
    | _ => cases hr'
  cases step with
  | addImport path asName name =>
    exact hedit (fun m => m.addImport path asName name) (fun _ => rfl) h
  | addExport asName name =>
    exact hedit (fun m => m.addExport asName name) (fun _ => rfl) h
  | _ => cases hlink

/-- Without the steps that record links, a run ends in the same session but for the links. -/
theorem exists_run?_filter (ht : t.unlinked = s.unlinked) (h : s.run? steps = some s') :
    ∃ u, t.run? (steps.filter fun step => step.link?.isNone) = some u ∧
      u.unlinked = s'.unlinked := by
  induction steps generalizing s t with
  | nil =>
    obtain rfl := Option.some.inj h
    exact ⟨t, rfl, ht⟩
  | cons step steps ih =>
    obtain ⟨next, hnext, hsteps⟩ := Option.bind_eq_some_iff.mp h
    cases hlink : step.link? with
    | some l =>
      rw [List.filter_cons_of_neg (by simp [hlink])]
      exact ih (ht.trans (unlinked_of_link? (by simp [hlink]) hnext).symm) hsteps
    | none =>
      rw [List.filter_cons_of_pos (by simp [hlink])]
      have hsame := step?_unlinked hlink t
      rw [ht, step?_unlinked hlink, hnext] at hsame
      obtain ⟨next', hnext', hunlinked⟩ := Option.map_eq_some_iff.mp hsame.symm
      obtain ⟨u, hrun, hu⟩ := ih hunlinked hsteps
      exact ⟨u, by rw [run?_cons, hnext', Option.bind_some, hrun], hu⟩

/-! ## 2. The links of a module -/

/-- The link that a step records in the module at a place. -/
def linking? (q : Place) (s : Session) (step : Step) : Option Link :=
  s.drafts.head?.bind fun draft => if draft.place = q then step.link? else none

theorem linking?_eq_none (h : ∀ draft rest, s.drafts = draft :: rest → draft.place = q →
    step.amends = false) : linking? q s step = none := by
  unfold linking?
  cases hdrafts : s.drafts with
  | nil => rfl
  | cons draft rest =>
    rw [List.head?_cons, Option.bind_some]
    split
    next hq =>
      have hamends := h draft rest hdrafts hq
      cases step <;> first | rfl | cases hamends
    next => rfl

/-- A step records in a module the link that it is for. -/
theorem Advance.exists_ledger_eq (hadvance : s.Advance step s') (hget : s.root.get? q = some r) :
    ∃ r', s'.root.get? q = some r' ∧
      r'.ledger = (linking? q s step).toList.foldl Module.link r.ledger := by
  obtain ⟨r', hget', ⟨hown, hother⟩ | ⟨draft, rest, hdrafts, rfl, hchange⟩⟩ :=
    hadvance.own_cases hget
  · refine ⟨r', hget', ?_⟩
    rw [linking?_eq_none hother]
    exact hown Record.own_ledger
  · refine ⟨r', hget', ?_⟩
    have hlinking : linking? draft.place s step = step.link? := by
      simp [linking?, hdrafts]
    rw [hlinking]
    rcases hchange with ⟨parameters, old, rfl, -, hnew⟩ | hrevise
    · exact Record.ledger_withTypeParameters? hnew
    · exact Record.ledger_revise? hrevise

theorem Advance.linking?_eq_none (hadvance : s.Advance step s') (hnew : s.root.get? q = none) :
    linking? q s step = none := by
  apply Session.linking?_eq_none
  rintro draft rest hdrafts rfl
  by_contra hamends
  obtain ⟨r, hget⟩ := hadvance.exists_get?_of_amends (by simpa using hamends) hdrafts
  cases hnew.symm.trans hget

/-- **The links of a module are those that were recorded in it, in order.** -/
theorem links_of_run? (hrun : s.run? steps = some s') (hget' : s'.root.get? q = some (.module m)) :
    ∃ old, (s.root.get? q = some (.module old) ∨ s.root.get? q = none ∧ old = {}) ∧
      Module.Links (s.log (linking? q) steps) old m := by
  cases hget : s.root.get? q with
  | some r =>
    obtain ⟨r₁, hget₁, houtline⟩ := exists_outline_eq_of_run? hrun hget
    obtain rfl := Option.some.inj (hget'.symm.trans hget₁)
    obtain ⟨old, rfl⟩ := Record.exists_eq_module (Record.kind_eq_of_outline_eq houtline).symm
    obtain ⟨r₂, hget₂, hledger⟩ :=
      foldl_of_run? (fun h hget => h.exists_ledger_eq hget) hrun hget
    obtain rfl := Option.some.inj (hget'.symm.trans hget₂)
    exact ⟨old, Or.inl rfl, Record.links_of_ledger_eq hledger⟩
  | none =>
    obtain ⟨r, hnew, hledger⟩ := exists_isNew_foldl_of_run? (fun h hget => h.exists_ledger_eq hget)
      (fun h hnew => h.linking?_eq_none hnew) hrun hget hget'
    have hempty : r.ledger = (Record.module {}).ledger := by
      cases hnew with
      | module => rfl
      | declared d => cases d <;> rfl
    rw [hempty] at hledger
    exact ⟨{}, Or.inr ⟨rfl, rfl⟩, Record.links_of_ledger_eq hledger⟩

/-- Links that are recorded in a module in the same order for each key make the same imports
    and exports. -/
theorem imports_exports_eq_of_runs (hrun : s.run? steps = some u) (hrun' : s.run? steps' = some u')
    (hget : u.root.get? q = some (.module m)) (hget' : u'.root.get? q = some (.module m'))
    (hsame : ∀ key : Link.Key, (s.log (linking? q) steps).filter (·.key = key) =
      (s.log (linking? q) steps').filter (·.key = key)) :
    m.imports = m'.imports ∧ m.exports = m'.exports := by
  obtain ⟨old, hold, hlinks⟩ := links_of_run? hrun hget
  obtain ⟨old', hold', hlinks'⟩ := links_of_run? hrun' hget'
  obtain rfl : old = old' := by
    rcases hold with hold | ⟨hnone, rfl⟩ <;> rcases hold' with hold' | ⟨hnone', rfl⟩
    · exact Record.module.inj (Option.some.inj (hold.symm.trans hold'))
    · cases hold.symm.trans hnone'
    · cases hnone.symm.trans hold'
    · rfl
  exact hlinks.eq hlinks' hsame

/-! ## 3. Runs -/

/-- Two sessions that differ in the imports and exports of modules at most. -/
structure SameButLinks (s s' : Session) : Prop where
  lineage : s'.lineage = s.lineage
  workspace : s'.workspace = s.workspace
  moduleScopes : s'.moduleScopes = s.moduleScopes
  drafts : s'.drafts = s.drafts
  root : s'.root.unlinked = s.root.unlinked
  modules {q : Place} {m : Module} : s.root.get? q = some (.module m) →
    ∃ m', s'.root.get? q = some (.module m') ∧ m'.id = m.id ∧ m'.path = m.path ∧
      m'.entries = m.entries
  -- all other records but a program, which shows its modules, are the same
  records {q : Place} {r : Record} : s.root.get? q = some r → r.kind ≠ .program →
    r.kind ≠ .module → s'.root.get? q = some r

theorem sameButLinks_of_unlinked_eq (h : s'.unlinked = s.unlinked) : SameButLinks s s' := by
  obtain ⟨hroot, hlineage, hworkspace, hscopes, hdrafts⟩ := Session.mk.inj h
  have hget : ∀ {q r}, s.root.get? q = some r →
      ∃ r', s'.root.get? q = some r' ∧ r'.unlinked = r.unlinked := by
    intro q r hget
    have hsame := Record.get?_unlinked s'.root q
    rw [hroot, Record.get?_unlinked, hget] at hsame
    exact Option.map_eq_some_iff.mp hsame.symm
  constructor
  case lineage => exact hlineage
  case workspace => exact hworkspace
  case moduleScopes => exact hscopes
  case drafts => exact hdrafts
  case root => exact hroot
  case modules =>
    intro q m hm
    obtain ⟨r', hget', hsame⟩ := hget hm
    have hkind : r'.kind = .module := by
      rw [← Record.kind_unlinked, hsame, Record.kind_unlinked]
      rfl
    obtain ⟨m', rfl⟩ := Record.exists_eq_module hkind
    obtain ⟨hid, hpath, -, -, hentries⟩ := Module.mk.inj (Record.module.inj hsame)
    exact ⟨m', hget', hid, hpath, hentries⟩
  case records =>
    intro q r hr hprogram hmodule
    obtain ⟨r', hget', hsame⟩ := hget hr
    have hkind : r'.kind = r.kind := by rw [← Record.kind_unlinked, hsame, Record.kind_unlinked]
    rw [Record.unlinked_eq_self hprogram hmodule, Record.unlinked_eq_self (hkind ▸ hprogram)
      (hkind ▸ hmodule)] at hsame
    rw [hget', hsame]

/-- **Imports and exports are pure bookkeeping.**

    A run from which the recording of links is taken out succeeds as well and ends in the same
    session, but for the links.  A module has those links that were recorded in it, under each
    key the last one.  So if two runs differ only in the order in which links are recorded, and
    not in the order for any one key, they end in the same session, with modules that are
    equal. -/
theorem links_are_bookkeeping :
    (∀ (s s' : Session) (steps : List Step), s.run? steps = some s' →
      ∃ u, s.run? (steps.filter fun step => step.link?.isNone) = some u ∧ SameButLinks s' u) ∧
    (∀ (s s' : Session) (steps : List Step) (q : Place) (m : Module), s.run? steps = some s' →
      s'.root.get? q = some (.module m) → ∃ old,
        (s.root.get? q = some (.module old) ∨ s.root.get? q = none ∧ old = {}) ∧
        Module.Links (s.log (linking? q) steps) old m) ∧
    (∀ (s u u' : Session) (steps steps' : List Step), s.run? steps = some u →
      s.run? steps' = some u' →
      steps.filter (fun step => step.link?.isNone) =
        steps'.filter (fun step => step.link?.isNone) →
      (∀ (q : Place) (key : Link.Key), (s.log (linking? q) steps).filter (·.key = key) =
        (s.log (linking? q) steps').filter (·.key = key)) →
      u = u' ∧ ∀ q m m', u.root.get? q = some (.module m) → u'.root.get? q = some (.module m') →
        m == m') := by
  refine ⟨?erased, ?recorded, ?interleaved⟩
  case erased =>
    intro s s' steps hrun
    obtain ⟨u, hrun', hunlinked⟩ := exists_run?_filter rfl hrun
    exact ⟨u, hrun', sameButLinks_of_unlinked_eq hunlinked⟩
  case recorded => exact fun s s' steps q m => links_of_run?
  case interleaved =>
    intro s u u' steps steps' hrun hrun' hrest hsame
    obtain ⟨v, hv, hunlinked⟩ := exists_run?_filter rfl hrun
    obtain ⟨v', hv', hunlinked'⟩ := exists_run?_filter rfl hrun'
    rw [hrest] at hv
    obtain rfl := Option.some.inj (hv.symm.trans hv')
    have heq : u.unlinked = u'.unlinked := hunlinked.symm.trans hunlinked'
    have hroot : u.root = u'.root := Record.eq_of_unlinked_eq (congrArg Session.root heq)
      fun q m m' hget hget' => imports_exports_eq_of_runs hrun hrun' hget hget' (hsame q)
    obtain rfl : u = u' := by
      cases u; cases u'
      simp_all [unlinked]
    refine ⟨rfl, fun q m m' hget hget' => ?_⟩
    obtain rfl := Record.module.inj (Option.some.inj (hget.symm.trans hget'))
    exact beq_self_eq_true m

/-- An alias is imported twice and another one exported, before a class is declared or after
    it.  The class, named like the alias, is its own superclass. -/
theorem links_are_bookkeeping_in_two_orders :
    ∃ steps steps' u u' v m m' r,
      steps = [.openModule "app", .addImport "lib" "A" "a", .addExport "X" "x",
        .addImport "lib" "A" "b", .declare (.class "A"), .set .superclass (some (.bare (.name "A"))),
        .close] ∧
      steps' = [.openModule "app", .addExport "X" "x", .declare (.class "A"),
        .set .superclass (some (.bare (.name "A"))), .close, .addImport "lib" "A" "a",
        .addImport "lib" "A" "b"] ∧
      (ofProgram ∅ {}).run? steps = some u ∧ (ofProgram ∅ {}).run? steps' = some u' ∧
      (ofProgram ∅ {}).run? [.openModule "app", .declare (.class "A"),
        .set .superclass (some (.bare (.name "A"))), .close] = some v ∧
      u.root.get? [.module "app"] = some (.module m) ∧
      u'.root.get? [.module "app"] = some (.module m') ∧
      u.root.get? [.module "app", .entry 0] = some r ∧
      r.references.map TypeReference.handles = [[⟨1, "app::A"⟩]] ∧
      m.import? "lib" "A" = some "b" ∧ m.export? "X" = some "x" ∧
      SameButLinks u v ∧ u = u' ∧ m == m' ∧
      Module.Links ((ofProgram ∅ {}).log (linking? [.module "app"]) steps) {} m := by
  obtain ⟨steps, steps', u, u', v, m, m', r, hsteps, hsteps', hrun, hrun', herased, hget, hget', hr,
      hhandles, himport, hexport⟩ : ∃ steps steps' u u' v m m' r,
      steps = [.openModule "app", .addImport "lib" "A" "a", .addExport "X" "x",
        .addImport "lib" "A" "b", .declare (.class "A"), .set .superclass (some (.bare (.name "A"))),
        .close] ∧
      steps' = [.openModule "app", .addExport "X" "x", .declare (.class "A"),
        .set .superclass (some (.bare (.name "A"))), .close, .addImport "lib" "A" "a",
        .addImport "lib" "A" "b"] ∧
      (ofProgram ∅ {}).run? steps = some u ∧ (ofProgram ∅ {}).run? steps' = some u' ∧
      (ofProgram ∅ {}).run? [.openModule "app", .declare (.class "A"),
        .set .superclass (some (.bare (.name "A"))), .close] = some v ∧
      u.root.get? [.module "app"] = some (.module m) ∧
      u'.root.get? [.module "app"] = some (.module m') ∧
      u.root.get? [.module "app", .entry 0] = some r ∧
      r.references.map TypeReference.handles = [[⟨1, "app::A"⟩]] ∧
      m.import? "lib" "A" = some "b" ∧ m.export? "X" = some "x" :=
    ⟨_, _, _, _, _, _, _, _, rfl, rfl, rfl, rfl, rfl, rfl, rfl, rfl, rfl, by decide +kernel,
      by decide +kernel⟩
  -- what either run does at a place, step by step
  have hlog : ∀ q, (ofProgram ∅ {}).log (linking? q) steps =
      ([([.module "app"], some (.imported "lib" "A" "a")),
        ([.module "app"], some (.exported "X" "x")),
        ([.module "app"], some (.imported "lib" "A" "b")), ([.module "app"], none),
        ([.module "app", .entry 0], none), ([.module "app", .entry 0], none)] :
          List (Place × Option Link)).flatMap fun (place, l) =>
        (if place = q then l else none).toList := by
    rintro q
    rw [hsteps]
    rfl
  have hlog' : ∀ q, (ofProgram ∅ {}).log (linking? q) steps' =
      ([([.module "app"], some (.exported "X" "x")), ([.module "app"], none),
        ([.module "app", .entry 0], none), ([.module "app", .entry 0], none),
        ([.module "app"], some (.imported "lib" "A" "a")),
        ([.module "app"], some (.imported "lib" "A" "b"))] :
          List (Place × Option Link)).flatMap fun (place, l) =>
        (if place = q then l else none).toList := by
    rintro q
    rw [hsteps']
    rfl
  have hsame : ∀ (q : Place) (key : Link.Key),
      ((ofProgram ∅ {}).log (linking? q) steps).filter (·.key = key) =
        ((ofProgram ∅ {}).log (linking? q) steps').filter (·.key = key) := by
    intro q key
    rw [hlog, hlog']
    by_cases hq : [.module "app"] = q
    · subst hq
      cases key <;> simp [List.filter_cons, Link.key]
    · simp [hq]
  have hrest : steps.filter (fun step => step.link?.isNone) =
      steps'.filter (fun step => step.link?.isNone) := by
    rw [hsteps, hsteps']
    rfl
  obtain ⟨herasure, hrecorded, hinterleaved⟩ := links_are_bookkeeping
  obtain ⟨v', hv', hbut⟩ := herasure _ _ _ hrun
  obtain rfl : v = v' := by
    rw [hsteps] at hv'
    exact Option.some.inj (herased.symm.trans hv')
  obtain ⟨hequal, hmodules⟩ := hinterleaved _ _ _ _ _ hrun hrun' hrest hsame
  obtain ⟨old, hold, hlinks⟩ := hrecorded _ _ _ _ _ hrun hget
  obtain rfl : old = {} := by
    rcases hold with hold | ⟨-, rfl⟩
    · cases hold
    · rfl
  exact ⟨steps, steps', u, u', v, m, m', r, hsteps, hsteps', hrun, hrun', herased, hget, hget', hr,
    hhandles, himport, hexport, hbut, hequal, hmodules _ _ _ hget hget', hlinks⟩

end Session

end Declarations
