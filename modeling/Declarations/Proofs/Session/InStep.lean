/-
  Declarations/Proofs/Session/InStep.lean
  =======================================
  **In step through a run.**

  Sessions that are in step in a region can take the same steps there and stay in step
  (`InStep.advance`).  If the region has the root in it, they can also open the same
  modules, and so they can run all that works in the region (`InStep.run`).

  A session that is built from nothing with names alone is in step with itself
  (`inStep_self`): whatever permutation keeps the types that it declares keeps its records.
-/
import Declarations.Proofs.Session.Openings

namespace Declarations

namespace Record

variable {τ : Nat → Nat} {r : Record}

/-- Of its modules, the surface of a program shows where they are. -/
theorem surface_program_eq {p p' : Program}
    (h : ∀ path : String, (p'.modules[path]?).isSome = (p.modules[path]?).isSome) :
    (program p').surface = (program p).surface.rename (fun i => i) τ := by
  rw [show (program p).surface.rename (fun i => i) τ =
    ((program p).rename (fun i => i) τ).surface from (surface_rename _).symm]
  apply congrArg program
  apply congrArg (Program.mk .unassigned)
  apply Std.ExtTreeMap.ext_getElem?
  intro path
  rw [Std.ExtTreeMap.getElem?_map, Std.ExtTreeMap.getElem?_map, Program.rename,
    Std.ExtTreeMap.getElem?_map, Option.map_map]
  have hpath := h path
  cases hp : p.modules[path]? <;> cases hp' : p'.modules[path]? <;> simp_all

end Record

namespace Session

variable {start s s' u u' : Session} {step : Step} {steps : List Step}
variable {region : Place → Prop} {path : String}

theorem exists_step?_openModule (hdrafts : s.drafts = []) (hroot : s.root.kind = .program)
    (path : String) : ∃ opened, s.step? (.openModule path) = some opened := by
  obtain ⟨root, lineage, workspace, scopes, drafts⟩ := s
  obtain ⟨p, rfl⟩ := Record.exists_eq_program hroot
  subst hdrafts
  exact ⟨_, rfl⟩

theorem Advance.unique (hadvance : s.Advance step s') (hadvance' : s.Advance step u) : s' = u :=
  Option.some.inj ((step?_of_advance hadvance).symm.trans (step?_of_advance hadvance'))

/-- A step opens a module where nothing is open, or it works where something is. -/
theorem Advance.openModule_or_drafts (hadvance : s.Advance step s') :
    (∃ path, step = .openModule path) ∨ ∃ draft rest, s.drafts = draft :: rest := by
  cases hadvance with
  | moduleOpened p path => exact Or.inl ⟨path, rfl⟩
  | childReopened draft rest d owner child slot hdrafts => exact Or.inr ⟨draft, rest, hdrafts⟩
  | childDeclared draft rest d owner slot handle declared scope workspace hdrafts =>
    exact Or.inr ⟨draft, rest, hdrafts⟩
  | closed draft rest hdrafts => exact Or.inr ⟨draft, rest, hdrafts⟩
  | typeParametersAdded draft rest r r' old parameters handles workspace hdrafts =>
    exact Or.inr ⟨draft, rest, hdrafts⟩
  | unchanged a value habsent draft rest r hdrafts => exact Or.inr ⟨draft, rest, hdrafts⟩
  | edited _ draft rest r r' hdrafts => exact Or.inr ⟨draft, rest, hdrafts⟩

theorem exists_program_of_openModule (hadvance : s.Advance (.openModule path) s') :
    ∃ p m, s.root = .program p ∧
      s'.root = .program { p with modules := p.modules.insert path m } := by
  cases hadvance with
  | moduleOpened p path m id lineage scope workspace hdrafts hroot => exact ⟨p, _, hroot, rfl⟩
  | edited _ draft rest r r' hdrafts hrecord houtline hid hchildren htypes hrevise =>
    simp [Record.revise?] at hrevise

/-- Sessions in step can open the same module, and stay in step. -/
theorem InStep.moduleOpened (h : InStep region s u) (hregion : region []) (hs : s.Named)
    (hu : u.Named) (hadvance : s.Advance (.openModule path) s') :
    ∃ u', u.Advance (.openModule path) u' ∧ InStep region s' u' := by
  have hopens := hadvance.opens
  obtain ⟨p, m, hroot, hroot'⟩ := exists_program_of_openModule hadvance
  obtain ⟨x, hx, hsurface⟩ := h.exists_get? hregion (Record.get?_nil s.root)
  obtain rfl := Option.some.inj hx
  obtain ⟨τ₀, hτ₀⟩ := exists_renames h.distinct u
  have hkind : u.root.kind = .program := by
    rw [← Record.kind_surface, hsurface τ₀ hτ₀, Record.kind_rename, Record.kind_surface, hroot]
    rfl
  have hnone : u.drafts = [] := by
    have hdrafts := h.drafts
    rw [hopens.drafts] at hdrafts
    exact List.map_eq_nil_iff.mp hdrafts.symm
  obtain ⟨u', hu'⟩ := exists_step?_openModule hnone hkind path
  have hadvance' := advance_of_step? hu'
  have hopens' := hadvance'.opens
  obtain ⟨p', m', hrootU, hrootU'⟩ := exists_program_of_openModule hadvance'
  refine ⟨u', hadvance', h.of_advance (usesNames_openModule path) hadvance hadvance'
    ((hopens.inside hs).trans (hopens'.inside hu).symm) ?_⟩
  intro τ _ hτ halike q hq
  by_cases hnil : q = []
  · -- the programs have modules at the same paths
    subst hnil
    rw [surfaces_eq_some (Record.get?_nil _), surfaces_eq_some (Record.get?_nil _), hroot', hrootU',
      Option.map_some, Record.surface_program_eq fun other => ?_]
    have hmodules := congrArg (fun r : Record => (r.child? (.module other)).isSome) (hsurface τ hτ)
    simp only [hroot, hrootU, Record.child?_rename, Record.child?_surface, Option.isSome_map]
      at hmodules
    simp only [Record.child?, Option.isSome_map] at hmodules
    rw [Std.ExtTreeMap.getElem?_insert, Std.ExtTreeMap.getElem?_insert]
    split
    · rfl
    · exact hmodules
  by_cases hhere : q = [.module path]
  · subst hhere
    rw [hopens.here, hopens'.here, halike hq]
    cases s.surfaces [.module path] <;> rfl
  · rw [hopens.elsewhere hnil hhere, hopens'.elsewhere hnil hhere, halike hq]

/-- **Sessions in step can run the same steps, as long as these work in the region, and
    stay in step.** -/
theorem InStep.run {I : Session → Prop} (h : InStep region s u) (hregion : region [])
    (hs : s.Named) (hu : u.Named) (hinit : I s)
    (hstep : ∀ {s s' step}, I s → s.Advance step s' → I s')
    (hinside : ∀ {s}, I s → ∀ draft ∈ s.drafts, region draft.place)
    (hnames : ∀ step ∈ steps, step.UsesNames) (hrun : s.run? steps = some s') :
    ∃ u', u.run? steps = some u' ∧ InStep region s' u' := by
  induction steps generalizing s u with
  | nil =>
    obtain rfl := Option.some.inj hrun
    exact ⟨u, rfl, h⟩
  | cons step steps ih =>
    rw [run?_cons] at hrun
    obtain ⟨next, hnext, hrest⟩ := Option.bind_eq_some_iff.mp hrun
    obtain ⟨hfirst, hnames⟩ := List.forall_mem_cons.mp hnames
    have hadvance := advance_of_step? hnext
    obtain ⟨v, hv, hinstep⟩ : ∃ v, u.Advance step v ∧ InStep region next v := by
      rcases hadvance.openModule_or_drafts with ⟨path, rfl⟩ | ⟨draft, rest, hdrafts⟩
      · exact h.moduleOpened hregion hs hu hadvance
      · have hdraft := hinside hinit draft (hdrafts ▸ List.mem_cons_self)
        exact h.advance hfirst hdrafts hdraft hadvance
    obtain ⟨u', hu', hdone⟩ := ih hinstep (hs.advance hadvance) (hu.advance hv)
      (hstep hinit hadvance) hnames hrest
    refine ⟨u', ?_, hdone⟩
    rw [run?_cons, step?_of_advance hv, Option.bind_some, hu']

/-- A session that is built from nothing by steps that are given names is in step with
    itself: its types are all that it refers to. -/
theorem inStep_self (hblank : start.Blank) (hrun : start.run? steps = some s)
    (hnames : ∀ step ∈ steps, step.UsesNames) : InStep (fun _ => True) s s := by
  have halike : Alike (fun _ => True) start start := by
    intro τ _ q _
    by_cases hq : q = []
    · subst hq
      rw [surfaces_eq_some (Record.get?_nil _), Option.map_some]
      congr 1
      rcases hblank with ⟨w, rfl⟩ | ⟨w, path, rfl⟩
      · exact Record.surface_program_eq fun _ => rfl
      · rfl
    · rw [hblank.surfaces_eq_none hq, Option.map_none]
  have hstart : InStep (fun _ => True) start start :=
    { scoping := hblank.scoped
      scoping' := hblank.scoped
      surrounds := fun _ _ _ => Or.inl trivial
      surrounds' := fun _ _ _ => Or.inl trivial
      distinct := hblank.distinct.distinctIn _
      drafts := rfl
      alike := halike }
  obtain ⟨s', hrun', hinstep⟩ := hstart.run (I := fun _ => True) trivial hblank.named hblank.named
    trivial (fun _ _ => trivial) (fun _ _ _ => trivial) hnames hrun
  obtain rfl := Option.some.inj (hrun.symm.trans hrun')
  exact hinstep

end Session

end Declarations
