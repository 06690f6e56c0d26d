/-
  Declarations/Proofs/Session/Openings.lean
  =========================================
  **A program is built opening by opening.**

  An `Opening` opens a module, does something in it and closes it.  What it does
  closes all that it has declared, so that openings follow one another in any order,
  and a module may be opened as often as one likes.

  What an opening does is seen in its own module and nowhere else
  (`surfaces_of_body`).  So each module becomes what it would have become alone,
  if all that its openings do had been done in a single one (`followsAlone_of_run?`).
-/
import Declarations.Proofs.Session.Bodies

namespace Declarations

/-! ## 1. Openings -/

/-- A module is opened, worked on and closed. -/
structure Opening where
  path : String
  body : List Step
  -- the body closes what it declares, and opens no module
  nested : depthAfter? body 0 = some 0

namespace Opening

def steps (o : Opening) : List Step := .openModule o.path :: (o.body ++ [.close])

/-- All that is done in the module at a path, in order. -/
def bodyOf (path : String) (openings : List Opening) : List Step :=
  (openings.filter fun o => o.path = path).flatMap body

theorem bodyOf_append (path : String) (first second : List Opening) :
    bodyOf path (first ++ second) = bodyOf path first ++ bodyOf path second := by
  rw [bodyOf, List.filter_append, List.flatMap_append]
  rfl

theorem bodyOf_concat_self (openings : List Opening) (o : Opening) :
    bodyOf o.path (openings ++ [o]) = bodyOf o.path openings ++ o.body := by
  rw [bodyOf_append]
  simp [bodyOf]

theorem bodyOf_concat_of_ne {path : String} {o : Opening} (h : o.path ≠ path)
    (openings : List Opening) : bodyOf path (openings ++ [o]) = bodyOf path openings := by
  rw [bodyOf_append]
  simp [bodyOf, h]

theorem bodyOf_eq_nil {path : String} {openings : List Opening}
    (h : path ∉ openings.map Opening.path) : bodyOf path openings = [] := by
  rw [bodyOf, List.filter_eq_nil_iff.mpr, List.flatMap_nil]
  intro o hmem hpath
  exact h (of_decide_eq_true hpath ▸ List.mem_map_of_mem hmem)

theorem mem_bodyOf {path : String} {openings : List Opening} {step : Step} :
    step ∈ bodyOf path openings ↔ ∃ o ∈ openings, o.path = path ∧ step ∈ o.body := by
  simp [bodyOf, and_assoc]

/-- All that is done in a module could be done in one opening. -/
theorem nested_bodyOf (path : String) (openings : List Opening) :
    depthAfter? (bodyOf path openings) 0 = some 0 := by
  induction openings using List.reverseRecOn with
  | nil => rfl
  | append_singleton openings o ih =>
    by_cases hpath : o.path = path
    · subst hpath
      rw [bodyOf_concat_self, depthAfter?_append, ih, Option.bind_some, o.nested]
    · rw [bodyOf_concat_of_ne hpath, ih]

end Opening

namespace Session

variable {α : Type} {f : Record → α} {s s' u u' : Session} {step : Step} {steps body : List Step}
variable {path path' : String} {place q : Place} {depth depth' : Nat} {draft : Draft}
variable {rest : List Draft} {w w' : Workspace}

/-! ## 2. Within a module -/

/-- The places of a module and all that is in it. -/
def Within (path : String) (place : Place) : Prop := [.module path] <+: place

theorem ne_nil_of_within (h : Within path q) : q ≠ [] := by
  rintro rfl
  simp [Within] at h

theorem path_eq_of_within (h : Within path q) (h' : Within path' q) : path = path' := by
  obtain ⟨rest, rfl⟩ := h
  simpa using (List.cons_prefix_cons.mp h').1.symm

/-- The module is open, and so are as many declarations in it. -/
def Inside (path : String) (depth : Nat) (s : Session) : Prop :=
  InsideOf ([.module path], path) [] depth s

/-- After the body of an opening the module is open as before, and nothing outside
    of it has changed. -/
theorem surfaces_of_body (hinside : Inside path depth s)
    (hdepth : depthAfter? body depth = some depth') (hrun : s.run? body = some s') :
    Inside path depth' s' ∧ ∀ q, ¬ Within path q → s'.surfaces q = s.surfaces q := by
  obtain ⟨hafter, hsame⟩ := hinside.of_body (by simp) hdepth hrun
  exact ⟨hafter, fun q hq => hsame Record.shallow_surface hq⟩

/-- Sessions that are in step within a module can do the same in it. -/
theorem InStep.run_body (h : InStep (Within path) s u) (hinside : Inside path depth s)
    (hdepth : depthAfter? body depth = some depth') (hnames : ∀ step ∈ body, step.UsesNames)
    (hrun : s.run? body = some s') :
    ∃ u', u.run? body = some u' ∧ InStep (Within path) s' u' := by
  induction body generalizing s u depth with
  | nil =>
    obtain rfl := Option.some.inj hrun
    exact ⟨u, rfl, h⟩
  | cons step body ih =>
    rw [run?_cons] at hrun
    obtain ⟨next, hnext, hrest⟩ := Option.bind_eq_some_iff.mp hrun
    rw [depthAfter?_cons] at hdepth
    obtain ⟨between, hbetween, hdepth⟩ := Option.bind_eq_some_iff.mp hdepth
    have hadvance := advance_of_step? hnext
    obtain ⟨draft, rest, hdrafts, hwithin⟩ := hinside.exists_draft
    obtain ⟨v, hv, hstep⟩ := h.advance (hnames _ List.mem_cons_self) hdrafts hwithin hadvance
    obtain ⟨u', hu', hinstep⟩ := ih hstep (hinside.advance (by simp) hadvance hbetween) hdepth
      (fun step hmem => hnames step (List.mem_cons_of_mem _ hmem)) hrest
    refine ⟨u', ?_, hinstep⟩
    rw [run?_cons, step?_of_advance hv, Option.bind_some, hu']

/-! ## 3. Opening a module -/

/-- The root scope of a module has the path of the module. -/
def Named (s : Session) : Prop :=
  ∀ ⦃path : String⦄ ⦃scope : Scope⦄, s.moduleScopes[path]? = some scope → scope.modulePath = path

theorem Named.advance (h : s.Named) (hadvance : s.Advance step s') : s'.Named := by
  cases hadvance with
  | moduleOpened p path m id lineage scope workspace hdrafts hroot hmodule hregister hscope =>
    intro other scope' hother
    by_cases hpath : path = other
    · subst hpath
      obtain rfl : scope = scope' := by simpa using hother
      rcases hscope with ⟨hopened, -⟩ | ⟨-, hnew⟩
      · exact h hopened
      · rw [(Prod.mk.inj hnew).1]
    · exact h (by simpa [Std.ExtTreeMap.getElem?_insert, hpath] using hother)
  | _ => exact h

theorem Blank.named (hblank : s.Blank) : s.Named := by
  intro path scope hscope
  rcases hblank with ⟨w, rfl⟩ | ⟨w, other, rfl⟩ <;> simp [ofProgram, ofModule] at hscope

theorem Named.of_run? (h : s.Named) (hrun : s.run? steps = some s') : s'.Named :=
  invariant_of_run? h (fun h hadvance => h.advance hadvance) hrun

/-- What a module is when it is opened: what it was, or empty. -/
structure Opens (path : String) (s s' : Session) : Prop where
  drafts : s.drafts = []
  inside : s.Named → s'.drafts.map Draft.address = [([.module path], path)]
  handles : s'.handleAt? = s.handleAt?
  here : s'.surfaces [.module path] =
    some ((s.surfaces [.module path]).getD (Record.module (.atPath path)).surface)
  elsewhere {q : Place} : q ≠ [] → q ≠ [.module path] → s'.surfaces q = s.surfaces q

theorem Advance.opens (hadvance : s.Advance (.openModule path) s') : Opens path s s' := by
  cases hadvance with
  | moduleOpened p path m id lineage scope workspace hdrafts hroot hmodule hregister hscope =>
    have hview := Record.view_insertModule Record.shallow_surface p path m hmodule id
    constructor
    case drafts => exact hdrafts
    case inside =>
      intro hnamed
      have hpath : scope.modulePath = path := by
        rcases hscope with ⟨hopened, -⟩ | ⟨-, hnew⟩
        · exact hnamed hopened
        · rw [(Prod.mk.inj hnew).1]
      rw [List.map_singleton, Draft.address, hpath]
    case handles => exact handleAt?_moduleOpened hmodule hroot rfl
    case here =>
      rw [surfaces, surfaces, hview, Function.update_self, hroot, Record.view,
        Record.get?_singleton, Record.child?, hmodule]
      cases p.modules[path]? <;> rfl
    case elsewhere =>
      intro q hnil hq
      rw [surfaces, surfaces, hview, Function.update_of_ne hq, Function.update_of_ne hnil, hroot]
  | edited _ draft rest r r' hdrafts hrecord houtline hid hchildren htypes hrevise =>
    simp [Record.revise?] at hrevise

theorem exists_of_close (hadvance : s.Advance .close s') :
    ∃ draft rest, s.drafts = draft :: rest ∧ s' = { s with drafts := rest } := by
  cases hadvance with
  | closed draft rest hdrafts => exact ⟨draft, rest, hdrafts, rfl⟩
  | edited _ draft rest r r' hdrafts hrecord houtline hid hchildren htypes hrevise =>
    simp [Record.revise?] at hrevise

theorem Inside.drafts_eq (h : Inside path 0 s) :
    s.drafts.map Draft.address = [([.module path], path)] := by
  obtain ⟨inner, haddresses, hlength, -⟩ := h
  rw [haddresses, List.eq_nil_of_length_eq_zero hlength, List.nil_append]

theorem Inside.of_drafts_eq (h : s.drafts.map Draft.address = [([.module path], path)]) :
    Inside path 0 s := ⟨[], h, rfl, by simp⟩

/-- An opening is the step that opens, the body and the step that closes. -/
theorem exists_of_opening {o : Opening} (hrun : s.run? o.steps = some s') :
    ∃ opened done, s.Advance (.openModule o.path) opened ∧ opened.run? o.body = some done ∧
      done.Advance .close s' := by
  rw [Opening.steps, run?_cons] at hrun
  obtain ⟨opened, hopen, hrun⟩ := Option.bind_eq_some_iff.mp hrun
  rw [run?_append] at hrun
  obtain ⟨done, hbody, hrun⟩ := Option.bind_eq_some_iff.mp hrun
  rw [run?_cons] at hrun
  obtain ⟨closed, hclose, hrun⟩ := Option.bind_eq_some_iff.mp hrun
  obtain rfl := Option.some.inj hrun
  exact ⟨opened, done, advance_of_step? hopen, hbody, advance_of_step? hclose⟩

theorem kept_of_run? (hnames : ∀ step ∈ steps, step.UsesNames) (hrun : s.run? steps = some s')
    {site : Site} {h : TypeHandle} (hsite : s.handleAt? site = some h) :
    s'.handleAt? site = some h :=
  invariant_of_run?_of_mem (I := fun s => s.handleAt? site = some h) hsite
    (fun hmem hsite hadvance => (hadvance.grows (hnames _ hmem)).kept hsite) hrun

theorem Renames.of_run? {τ : Nat → Nat} (hnames : ∀ step ∈ steps, step.UsesNames)
    (hrun : s.run? steps = some s') (hτ : Renames region τ s' u) : Renames region τ s u :=
  fun _ _ _ hregion hsite hsite' => hτ hregion (kept_of_run? hnames hrun hsite) hsite'

/-! ## 4. Each module as if alone -/

theorem surrounds_within (hroot : s.root.kind = .program) : Surrounds (Within path) s := by
  intro q slot hq
  rcases List.prefix_concat_iff.mp hq with hq | hq
  · obtain ⟨rfl, -⟩ : q = [] ∧ slot = .module path := by
      simpa [List.append_eq_singleton_iff] using hq.symm
    exact Or.inr ⟨rfl, hroot⟩
  · exact Or.inl hq

/-- Sessions that are built from nothing by steps that are given names are in step
    within a module if they are alike there and open at the same places. -/
theorem InStep.of_runs {steps steps' : List Step} (hrun : (ofProgram w {}).run? steps = some s)
    (hnames : ∀ step ∈ steps, step.UsesNames) (hrun' : (ofProgram w' {}).run? steps' = some u)
    (hdrafts : s.drafts.map Draft.address = u.drafts.map Draft.address)
    (halike : Alike (Within path) s u) : InStep (Within path) s u where
  scoping := scoped_of_run? (Or.inl ⟨w, rfl⟩) hrun
  scoping' := scoped_of_run? (Or.inl ⟨w', rfl⟩) hrun'
  surrounds := surrounds_within (kind_root_of_run? hrun)
  surrounds' := surrounds_within (kind_root_of_run? hrun')
  distinct := (distinct_of_run? (Or.inl ⟨w, rfl⟩) hrun hnames).distinctIn _
  drafts := hdrafts
  alike := halike

theorem exists_get?_of_drafts_eq {steps : List Step} (hrun : (ofProgram w {}).run? steps = some s)
    (hdrafts : s.drafts.map Draft.address = [([.module path], path)]) :
    ∃ r, s.root.get? [.module path] = some r := by
  obtain ⟨frames, hscoped⟩ := scoped_of_run? (Or.inl ⟨w, rfl⟩) hrun
  obtain ⟨draft, rest, hdraft, haddress, -⟩ := List.map_eq_cons_iff.mp hdrafts
  obtain ⟨label, hlabel⟩ := (hscoped.drafts (hdraft ▸ List.mem_cons_self)).1
  rw [(Prod.mk.inj haddress).1] at hlabel
  obtain ⟨r, hget, -⟩ := exists_get?_of_labels hlabel
  exact ⟨r, hget⟩

theorem Blank.surfaces_eq_none (hblank : s.Blank) (hplace : place ≠ []) :
    s.surfaces place = none :=
  Record.view_eq_none_iff.mpr (hblank.get?_eq_none hplace)

/-- The module at a path is what all the work done in it makes of a module alone;
    without any such work there is no module. -/
structure FollowsAlone (path : String) (openings : List Opening) (s : Session) : Prop where
  opened : path ∈ openings.map Opening.path → ∃ u,
    (ofProgram ∅ {}).run? (.openModule path :: Opening.bodyOf path openings) = some u ∧
      u.drafts.map Draft.address = [([.module path], path)] ∧ Alike (Within path) s u
  unopened : path ∉ openings.map Opening.path → ∀ q, Within path q → s.surfaces q = none

theorem usesNames_openModule (path : String) : (Step.openModule path).UsesNames := by
  simp [Step.UsesNames, Step.references, Step.typeParameters]

theorem usesNames_steps {o : Opening} (hnames : ∀ step ∈ o.body, step.UsesNames) :
    ∀ step ∈ o.steps, step.UsesNames := by
  intro step hmem
  simp only [Opening.steps, List.mem_cons, List.mem_append, List.not_mem_nil, or_false] at hmem
  rcases hmem with rfl | hmem | rfl
  · exact usesNames_openModule o.path
  · exact hnames step hmem
  · simp [Step.UsesNames, Step.references, Step.typeParameters]

theorem usesNames_alone {openings : List Opening}
    (hnames : ∀ o ∈ openings, ∀ step ∈ o.body, step.UsesNames) (path : String) :
    ∀ step ∈ .openModule path :: Opening.bodyOf path openings, step.UsesNames := by
  intro step hmem
  rcases List.mem_cons.mp hmem with rfl | hmem
  · exact usesNames_openModule path
  · obtain ⟨o, ho, -, hmem⟩ := Opening.mem_bodyOf.mp hmem
    exact hnames o ho step hmem

theorem usesNames_flatMap {openings : List Opening}
    (hnames : ∀ o ∈ openings, ∀ step ∈ o.body, step.UsesNames) :
    ∀ step ∈ openings.flatMap Opening.steps, step.UsesNames := by
  intro step hmem
  obtain ⟨o, ho, hmem⟩ := List.mem_flatMap.mp hmem
  exact usesNames_steps (hnames o ho) step hmem

/-- A module that is opened next, in the run so far. -/
theorem run?_openModule {openings : List Opening} {opened : Session}
    (hrun : (ofProgram w {}).run? (openings.flatMap Opening.steps) = some s)
    (hopen : s.step? (.openModule path) = some opened)
    (hnames : ∀ o ∈ openings, ∀ step ∈ o.body, step.UsesNames) :
    (ofProgram w {}).run? (openings.flatMap Opening.steps ++ [.openModule path]) = some opened ∧
      ∀ step ∈ openings.flatMap Opening.steps ++ [.openModule path], step.UsesNames := by
  constructor
  · rw [run?_append, hrun, Option.bind_some, run?_cons, hopen]
    rfl
  · exact List.forall_mem_append.mpr
      ⟨usesNames_flatMap hnames, List.forall_mem_singleton.mpr (usesNames_openModule path)⟩

/-- Work in one module leaves the others as they are. -/
theorem FollowsAlone.of_other {openings : List Opening} {o : Opening}
    (h : FollowsAlone path openings s) (hpath : o.path ≠ path)
    (hnames : ∀ step ∈ o.steps, step.UsesNames) (hrun : s.run? o.steps = some s')
    (hsame : ∀ q, Within path q → s'.surfaces q = s.surfaces q) :
    FollowsAlone path (openings ++ [o]) s' := by
  have hmem : path ∈ (openings ++ [o]).map Opening.path ↔ path ∈ openings.map Opening.path := by
    simp [Ne.symm hpath]
  constructor
  case opened =>
    rw [hmem, Opening.bodyOf_concat_of_ne hpath]
    intro hopened
    obtain ⟨u, hu, hdrafts, halike⟩ := h.opened hopened
    refine ⟨u, hu, hdrafts, fun τ hτ q hq => ?_⟩
    rw [hsame q hq]
    exact halike (hτ.of_run? hnames hrun) hq
  case unopened =>
    rw [hmem]
    exact fun hopened q hq => (hsame q hq).trans (h.unopened hopened q hq)

/-- A module that is opened is alike the module that is built alone so far. -/
theorem FollowsAlone.exists_alike {openings : List Opening} (h : FollowsAlone path openings s)
    (hopens : Opens path s s') :
    ∃ u, (ofProgram ∅ {}).run? (.openModule path :: Opening.bodyOf path openings) = some u ∧
      u.drafts.map Draft.address = [([.module path], path)] ∧ Alike (Within path) s' u := by
  by_cases hopened : path ∈ openings.map Opening.path
  · obtain ⟨u, hu, hdrafts, halike⟩ := h.opened hopened
    refine ⟨u, hu, hdrafts, fun τ hτ q hq => ?_⟩
    have hτs : Renames (Within path) τ s u := by rwa [Renames, ← hopens.handles]
    rw [halike hτs hq]
    congr 1
    by_cases hhere : q = [.module path]
    · -- the module was there, since it is open in the other session
      subst hhere
      obtain ⟨r', hget'⟩ := exists_get?_of_drafts_eq hu hdrafts
      obtain ⟨r, hget, -⟩ := (halike hτs).exists_get?_source hq hget'
      rw [hopens.here, surfaces_eq_some hget, Option.getD_some]
    · exact (hopens.elsewhere (ne_nil_of_within hq) hhere).symm
  · obtain ⟨u, hu⟩ : ∃ u, (ofProgram ∅ {}).step? (.openModule path) = some u := ⟨_, rfl⟩
    have hopens' := (advance_of_step? hu).opens
    have hblank : (ofProgram ∅ {}).Blank := Or.inl ⟨∅, rfl⟩
    refine ⟨u, ?_, hopens'.inside (Blank.named (Or.inl ⟨∅, rfl⟩)), fun τ hτ q hq => ?_⟩
    · rw [Opening.bodyOf_eq_nil hopened, run?_cons, hu]
      rfl
    · have hnone := h.unopened hopened q hq
      have hnone' := hblank.surfaces_eq_none (ne_nil_of_within hq)
      by_cases hhere : q = [.module path]
      · subst hhere
        rw [hopens.here, hopens'.here, hnone, hnone']
        rfl
      · have hnil := ne_nil_of_within hq
        rw [hopens.elsewhere hnil hhere, hopens'.elsewhere hnil hhere, hnone, hnone',
          Option.map_none]

theorem followsAlone_nil (w : Workspace) (path : String) :
    FollowsAlone path [] (ofProgram w {}) where
  opened hmem := absurd hmem List.not_mem_nil
  unopened _ _ hq := Blank.surfaces_eq_none (Or.inl ⟨w, rfl⟩) (ne_nil_of_within hq)

/-- **What a program is built from nothing to, its modules would have been built to
    alone.** -/
theorem followsAlone_of_run? {openings : List Opening}
    (hnames : ∀ o ∈ openings, ∀ step ∈ o.body, step.UsesNames)
    (hrun : (ofProgram w {}).run? (openings.flatMap Opening.steps) = some s) :
    s.drafts = [] ∧ ∀ path, FollowsAlone path openings s := by
  induction openings using List.reverseRecOn generalizing s with
  | nil =>
    obtain rfl := Option.some.inj hrun
    exact ⟨rfl, followsAlone_nil w⟩
  | append_singleton openings o ih =>
    rw [List.flatMap_append, List.flatMap_singleton, run?_append] at hrun
    obtain ⟨before, hbefore, hrun⟩ := Option.bind_eq_some_iff.mp hrun
    have hearlier : ∀ o' ∈ openings, ∀ step ∈ o'.body, step.UsesNames :=
      fun o' hmem => hnames o' (List.mem_append_left _ hmem)
    have hlast : ∀ step ∈ o.body, step.UsesNames := hnames o (by simp)
    obtain ⟨-, hfollows⟩ := ih hearlier hbefore
    obtain ⟨opened, done, hopen, hbody, hclose⟩ := exists_of_opening hrun
    have hopens := hopen.opens
    have hinside := Inside.of_drafts_eq (hopens.inside ((Blank.named (Or.inl ⟨w, rfl⟩)).of_run? hbefore))
    obtain ⟨hafter, hsame⟩ := surfaces_of_body hinside o.nested hbody
    obtain ⟨draft, rest, hdone, rfl⟩ := exists_of_close hclose
    refine ⟨?_, fun path => ?_⟩
    · have hdrafts := hafter.drafts_eq
      rw [hdone, List.map_cons] at hdrafts
      exact List.map_eq_nil_iff.mp (List.cons.inj hdrafts).2
    by_cases hpath : o.path = path
    · subst hpath
      obtain ⟨u, hu, hdrafts, halike⟩ := (hfollows o.path).exists_alike hopens
      obtain ⟨hopened, hnames⟩ := run?_openModule hbefore (step?_of_advance hopen) hearlier
      have hinstep := InStep.of_runs hopened hnames hu
        (hinside.drafts_eq.trans hdrafts.symm) halike
      obtain ⟨u', hu', hinstep'⟩ := hinstep.run_body hinside o.nested hlast hbody
      refine ⟨fun _ => ⟨u', ?_, hinstep'.drafts.symm.trans hafter.drafts_eq, hinstep'.alike⟩,
        fun hmem => absurd hmem (by simp)⟩
      rw [Opening.bodyOf_concat_self, ← List.cons_append, run?_append, hu, Option.bind_some, hu']
    · apply (hfollows path).of_other hpath (usesNames_steps hlast) hrun
      intro q hq
      have hne : ¬ Within o.path q := fun hq' => hpath (path_eq_of_within hq' hq)
      exact (hsame q hne).trans
        (hopens.elsewhere (ne_nil_of_within hq) fun heq => hne (heq ▸ List.prefix_rfl))

end Session

end Declarations
