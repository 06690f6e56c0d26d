/-
  Declarations/Proofs/Session/Interleaving.lean
  =============================================
  **Modules do not interact.**

  Two programs are built from nothing.  The same is done in each module, in the same
  order, but in other openings, and the openings of different modules follow each
  other in another order.  Then the programs and their lineages are the same, up to a
  permutation of identifiers and one of handles (`sameUpTo_of_run?`).

  Each module is what it would have become alone, in both programs, so the two are
  alike in it (`alike_of_followsAlone`).  Outside of modules there is nothing but the
  program itself.  The identifiers correspond since each lineage mirrors its program.

  That there is a second program is shown in the same way: a module that is opened is
  alike the module alone, so all that can be done there can be done here
  (`exists_run?_of_alone`).
-/
import Declarations.Proofs.Lineage.Renaming
import Declarations.Proofs.Session.InStep
import Declarations.Proofs.Session.Places

namespace Declarations

namespace Record

variable {ρ : EntityId → EntityId} {τ : Nat → Nat} {r root : Record} {place : Place}

/-- All that a program holds is in its modules. -/
theorem place_of_kind_root_eq_program (hroot : root.kind = .program)
    (hget : root.get? place = some r) : place = [] ∨ ∃ path, [.module path] <+: place := by
  obtain ⟨p, rfl⟩ := exists_eq_program hroot
  cases place with
  | nil => exact Or.inl rfl
  | cons slot rest =>
    rw [get?_cons] at hget
    obtain ⟨child, hchild, -⟩ := Option.bind_eq_some_iff.mp hget
    cases slot with
    | module path => exact Or.inr ⟨path, rest, rfl⟩
    | _ => cases hchild

theorem handleAt?_of_kind_eq_program (h : r.kind = .program) (position : Option Nat) :
    r.handleAt? position = none := by
  obtain ⟨p, rfl⟩ := exists_eq_program h
  cases position <;> rfl

theorem isSome_view {α : Type} (f : Record → α) (r : Record) (place : Place) :
    (r.view f place).isSome = (r.get? place).isSome := by
  rw [view, Option.isSome_map]

theorem view_surface_rename (r : Record) (place : Place) :
    (r.rename ρ τ).view surface place = (r.view surface place).map (.rename (fun i => i) τ) := by
  rw [view, view, get?_rename, Option.map_map, Option.map_map]
  exact congrArg (Option.map · _) (funext surface_rename)

theorem view_id_rename (r : Record) (place : Place) :
    (r.rename ρ τ).view id place = (r.view id place).map ρ := by
  rw [view, view, get?_rename, Option.map_map, Option.map_map]
  exact congrArg (Option.map · _) (funext id_rename)

end Record

namespace Session

variable {region : Place → Prop} {τ : Nat → Nat} {s u v : Session} {path : String} {site : Site}
variable {h : TypeHandle} {w w' : Workspace} {first second openings : List Opening}

/-! ## 1. Sessions that are alike a third one -/

theorem Alike.exists_handle (halike : Alike region s u) (hdistinct : s.Distinct)
    (hplace : region site.place) (hsite : u.handleAt? site = some h) :
    ∃ h', s.handleAt? site = some h' := by
  obtain ⟨τ, hτ⟩ := exists_renames (hdistinct.distinctIn region) u
  obtain ⟨r', hget', hhandle⟩ := Option.bind_eq_some_iff.mp hsite
  obtain ⟨r, hget, hsurface⟩ := (halike hτ).exists_get?_source hplace hget'
  rw [← Record.handleAt?_surface, hsurface, Record.handleAt?_rename, Record.handleAt?_surface]
    at hhandle
  obtain ⟨h', hh', -⟩ := Option.map_eq_some_iff.mp hhandle
  exact ⟨h', (handleAt?_eq_of_get? hget).trans hh'⟩

/-- Two sessions are alike in a region if both are alike a third one that declares
    types there and nowhere else. -/
theorem Alike.of_common (hs : Alike region s v) (hu : Alike region u v) (hdistinct : u.Distinct)
    (hdistinct' : v.Distinct)
    (honly : ∀ {site h}, v.handleAt? site = some h → region site.place) : Alike region s u := by
  intro τ hτ q hq
  obtain ⟨π, hπ⟩ := exists_perm_renames (hdistinct.distinctIn region) (hdistinct'.distinctIn region)
  have hthrough : Renames region (π ∘ τ) s v := by
    intro site h h'' hregion hsite hsite''
    obtain ⟨h', hsite'⟩ := hu.exists_handle hdistinct (honly hsite'') hsite''
    rw [Function.comp_apply, hτ hregion hsite hsite', hπ hregion hsite' hsite'']
  have hcomp : Record.rename (fun i => i) (π ∘ τ) =
      Record.rename (fun i => i) π ∘ Record.rename (fun i => i) τ := by
    funext r
    rw [Function.comp_apply, Record.rename_rename]
    rfl
  apply Option.map_injective (Record.rename_injective π.injective)
  calc (u.surfaces q).map (.rename (fun i => i) π)
      = v.surfaces q := (hu hπ hq).symm
    _ = (s.surfaces q).map (.rename (fun i => i) (π ∘ τ)) := hs hthrough hq
    _ = ((s.surfaces q).map (.rename (fun i => i) τ)).map (.rename (fun i => i) π) := by
      rw [Option.map_map, hcomp]

/-! ## 2. The same modules -/

/-- A module that is built alone declares all types in it. -/
theorem within_of_handleAt? (hrun : (ofProgram ∅ {}).run?
      (.openModule path :: Opening.bodyOf path openings) = some u)
    (hsite : u.handleAt? site = some h) : Within path site.place := by
  by_contra hwithin
  have hroot : u.root.kind = .program := kind_root_of_run? hrun
  rw [run?_cons] at hrun
  obtain ⟨opened, hopen, hbody⟩ := Option.bind_eq_some_iff.mp hrun
  have hopens := (advance_of_step? hopen).opens
  have hinside := Inside.of_drafts_eq (hopens.inside (Blank.named (Or.inl ⟨∅, rfl⟩)))
  have hsame := (surfaces_of_body hinside (Opening.nested_bodyOf path openings) hbody).2 _ hwithin
  obtain ⟨r, hget, hhandle⟩ := Option.bind_eq_some_iff.mp hsite
  by_cases hplace : site.place = []
  · rw [hplace] at hget
    obtain rfl := Option.some.inj hget
    rw [Record.handleAt?_of_kind_eq_program hroot] at hhandle
    cases hhandle
  · have hblank : (ofProgram ∅ {}).Blank := Or.inl ⟨∅, rfl⟩
    rw [hopens.elsewhere hplace fun heq => hwithin (heq ▸ List.prefix_rfl),
      hblank.surfaces_eq_none hplace, surfaces_eq_some hget] at hsame
    cases hsame

theorem within_owner_of_handleAt? (hrun : (ofProgram ∅ {}).run?
      (.openModule path :: Opening.bodyOf path openings) = some u)
    (hsite : u.handleAt? site = some h) : Within path site.owner := by
  have hwithin := within_of_handleAt? hrun hsite
  obtain ⟨q, position⟩ := site
  cases position with
  | some i => exact hwithin
  | none =>
    obtain ⟨r, hget, hhandle⟩ := Option.bind_eq_some_iff.mp hsite
    obtain ⟨other, i, rfl⟩ := Record.place_of_handle? (kind_root_of_run? hrun) hget hhandle
    obtain rfl := path_eq_of_within hwithin ⟨[.entry i], rfl⟩
    exact List.prefix_rfl

/-- A module that is built alone is alike itself: its types are all that it refers to. -/
theorem alike_self_of_alone (hrun : (ofProgram ∅ {}).run?
      (.openModule path :: Opening.bodyOf path openings) = some u)
    (hnames : ∀ o ∈ openings, ∀ step ∈ o.body, step.UsesNames) : Alike (Within path) u u := by
  have hself := inStep_self (Or.inl ⟨∅, rfl⟩) hrun (usesNames_alone hnames path)
  intro τ hτ q hq
  refine hself.alike ?_ trivial
  exact fun _ _ _ _ hsite hsite' => hτ (within_owner_of_handleAt? hrun hsite) hsite hsite'

/-- **What can be done in each module alone can be done in all of them, one opening after
    the other.** -/
theorem exists_run?_of_alone (w : Workspace)
    (hnames : ∀ o ∈ openings, ∀ step ∈ o.body, step.UsesNames)
    (halone : ∀ path ∈ openings.map Opening.path, ∃ v,
      (ofProgram ∅ {}).run? (.openModule path :: Opening.bodyOf path openings) = some v) :
    ∃ s, (ofProgram w {}).run? (openings.flatMap Opening.steps) = some s := by
  induction openings using List.reverseRecOn with
  | nil => exact ⟨_, rfl⟩
  | append_singleton openings o ih =>
    have hearlier : ∀ o' ∈ openings, ∀ step ∈ o'.body, step.UsesNames :=
      fun o' hmem => hnames o' (List.mem_append_left _ hmem)
    have hlast : ∀ step ∈ o.body, step.UsesNames := hnames o (by simp)
    obtain ⟨before, hbefore⟩ := ih hearlier fun path hmem => by
      obtain ⟨v, hv⟩ := halone path (by
        rw [List.map_append]
        exact List.mem_append_left _ hmem)
      rw [Opening.bodyOf_append, ← List.cons_append, run?_append] at hv
      obtain ⟨v, hv, -⟩ := Option.bind_eq_some_iff.mp hv
      exact ⟨v, hv⟩
    obtain ⟨hdrafts, hfollows⟩ := followsAlone_of_run? hearlier hbefore
    obtain ⟨opened, hopen⟩ := exists_step?_openModule hdrafts (kind_root_of_run? hbefore) o.path
    have hopens := (advance_of_step? hopen).opens
    obtain ⟨hopened, hopenedNames⟩ := run?_openModule hbefore hopen hearlier
    obtain ⟨v, hv, hvdrafts, halike⟩ := (hfollows o.path).exists_alike hopens
    -- the module that is open is in step with the one alone, and so can do the body as well
    have hvnames := usesNames_alone hearlier o.path
    have hback : Alike (Within o.path) v opened := (alike_self_of_alone hv hearlier).of_common halike
      (distinct_of_run? (Or.inl ⟨w, rfl⟩) hopened hopenedNames)
      (distinct_of_run? (Or.inl ⟨∅, rfl⟩) hv hvnames) (within_of_handleAt? hv)
    have hinside := Inside.of_drafts_eq (hopens.inside ((Blank.named (Or.inl ⟨w, rfl⟩)).of_run? hbefore))
    have hinstep := InStep.of_runs hv hvnames hopened
      (hvdrafts.trans hinside.drafts_eq.symm) hback
    obtain ⟨v', hbody⟩ : ∃ v', v.run? o.body = some v' := by
      obtain ⟨v', hv'⟩ := halone o.path (by simp)
      rw [Opening.bodyOf_concat_self, ← List.cons_append, run?_append, hv] at hv'
      exact ⟨v', hv'⟩
    obtain ⟨done, hdone, -⟩ :=
      hinstep.run_body (Inside.of_drafts_eq hvdrafts) o.nested hlast hbody
    obtain ⟨draft, rest, hdraft, -⟩ := (surfaces_of_body hinside o.nested hdone).1.exists_draft
    refine ⟨{ done with drafts := rest }, ?_⟩
    rw [List.flatMap_append, List.flatMap_singleton, run?_append, hbefore, Option.bind_some,
      Opening.steps, run?_cons, hopen, Option.bind_some, run?_append, hdone, Option.bind_some,
      run?_cons, step?_of_advance (Advance.closed draft rest hdraft)]
    rfl

/-- What was built in the same way alone is alike. -/
theorem alike_of_followsAlone (hs : FollowsAlone path first s) (hu : FollowsAlone path second u)
    (hdistinct : u.Distinct) (hnames : ∀ o ∈ first, ∀ step ∈ o.body, step.UsesNames)
    (hopened : path ∈ first.map Opening.path ↔ path ∈ second.map Opening.path)
    (hbody : Opening.bodyOf path first = Opening.bodyOf path second) :
    Alike (Within path) s u := by
  by_cases hmem : path ∈ first.map Opening.path
  · obtain ⟨v, hrun, -, halike⟩ := hs.opened hmem
    obtain ⟨v', hrun', -, halike'⟩ := hu.opened (hopened.mp hmem)
    rw [← hbody] at hrun'
    obtain rfl := Option.some.inj (hrun.symm.trans hrun')
    have hdistinct' := distinct_of_run? (Or.inl ⟨∅, rfl⟩) hrun (usesNames_alone hnames path)
    exact halike.of_common halike' hdistinct hdistinct' (within_of_handleAt? hrun)
  · intro τ hτ q hq
    rw [hu.unopened (hopened.not.mp hmem) q hq, hs.unopened hmem q hq, Option.map_none]

/-- Programs that are alike in every module are alike. -/
theorem alike_of_modules (hs : s.root.kind = .program) (hu : u.root.kind = .program)
    (halike : ∀ path, Alike (Within path) s u) : Alike (fun _ => True) s u := by
  intro τ hτ q _
  have hτ : ∀ path, Renames (Within path) τ s u := fun path => hτ.of_subset fun _ _ => trivial
  by_cases hwithin : ∃ path, Within path q
  · obtain ⟨path, hq⟩ := hwithin
    exact halike path (hτ path) hq
  by_cases hnil : q = []
  · subst hnil
    obtain ⟨p, hp⟩ := Record.exists_eq_program hs
    obtain ⟨p', hp'⟩ := Record.exists_eq_program hu
    rw [surfaces_eq_some (Record.get?_nil _), surfaces_eq_some (Record.get?_nil _), hp, hp',
      Option.map_some, Record.surface_program_eq fun path => ?_]
    have hmodule := congrArg Option.isSome (halike path (hτ path) List.prefix_rfl)
    simpa [surfaces, Record.view, Record.get?_singleton, Record.child?, hp, hp'] using hmodule
  · -- a program holds nothing but modules
    have hnone : ∀ s : Session, s.root.kind = .program → s.surfaces q = none := by
      intro s hroot
      apply Record.view_eq_none_iff.mpr
      by_contra hget
      obtain ⟨r, hget⟩ := Option.ne_none_iff_exists'.mp hget
      exact (Record.place_of_kind_root_eq_program hroot hget).elim hnil hwithin
    rw [hnone s hs, hnone u hu, Option.map_none]

/-! ## 3. The same program -/

/-- The second session has built the program of the first, under other identifiers and
    handles. -/
structure SameUpTo (ρ : EntityId → EntityId) (τ : Nat → Nat) (s u : Session) : Prop where
  root : u.root = s.root.rename ρ τ
  lineage : s.lineage.Renames ρ u.lineage

theorem tags_eq_of_surfaces {ρ : EntityId → EntityId}
    (hunder : Under τ region s.surfaces u.surfaces)
    (hρ : ∀ q tag tag', s.tags q = some tag → u.tags q = some tag' → ρ tag.id = tag'.id)
    (q : Place) (hq : region q) : u.tags q = (s.tags q).map (.rename ρ) := by
  cases hget : s.root.get? q with
  | none =>
    have hnone := hunder hq
    rw [surfaces, surfaces, Record.view_eq_none_iff.mpr hget, Option.map_none] at hnone
    rw [tags, tags, Record.view_eq_none_iff.mpr hget,
      Record.view_eq_none_iff.mpr (Record.view_eq_none_iff.mp hnone), Option.map_none]
  | some r =>
    obtain ⟨r', hget', hsurface⟩ := hunder.exists_get? hq hget
    have hkind : r'.kind = r.kind := by
      rw [← Record.kind_surface, hsurface, Record.kind_rename, Record.kind_surface]
    have hid : ρ r.id = r'.id := hρ q r.tag r'.tag (tags_eq_some hget) (tags_eq_some hget')
    rw [tags_eq_some hget, tags_eq_some hget', Option.map_some, Record.tag, Record.tag, hkind,
      ← hid]
    rfl

/-- Sessions that are alike everywhere have built the same program. -/
theorem sameUpTo_of_alike {start start' : Session} (halike : Alike (fun _ => True) s u)
    (hdistinct : s.Distinct) (hdistinct' : u.Distinct) (hblank : start.Blank)
    (hblank' : start'.Blank) (htracks : Tracks start s) (htracks' : Tracks start' u) :
    ∃ (ρ : Equiv.Perm EntityId) (τ : Equiv.Perm Nat), SameUpTo ρ τ s u := by
  obtain ⟨τ, hτ⟩ := exists_perm_renames hdistinct hdistinct'
  have hentered : ∀ q tag, s.tags q = some tag → Entered start.tags s.tags q :=
    fun _ _ htag => hblank.entered_of_tags htag
  have hentered' : ∀ q tag, u.tags q = some tag → Entered start'.tags u.tags q :=
    fun _ _ htag => hblank'.entered_of_tags htag
  obtain ⟨ρ, hρ⟩ := (htracks.mirrors.numbered hentered).exists_perm_ids
    (htracks'.mirrors.numbered hentered')
  have htags := fun q => tags_eq_of_surfaces (halike hτ) hρ q trivial
  refine ⟨ρ, τ, ?_, htracks.mirrors.renames htracks'.mirrors hentered hentered' htags⟩
  apply Record.eq_of_view_surface_eq
  · intro place
    rw [Record.view_surface_rename]
    exact halike hτ trivial
  · intro place
    have hid : ∀ r : Record, r.view Record.id place = (r.view Record.tag place).map Record.Tag.id :=
      fun r => by rw [Record.view, Record.view, Option.map_map]; rfl
    rw [Record.view_id_rename, hid, hid, show u.root.view Record.tag place = _ from htags place,
      Option.map_map, Option.map_map]
    rfl

theorem places_eq_of_alike (halike : Alike (fun _ => True) s u) (hdistinct : s.Distinct) :
    u.places = s.places := by
  obtain ⟨τ, hτ⟩ := exists_renames hdistinct u
  ext q
  have hsurface := congrArg Option.isSome (halike hτ (q := q) trivial)
  rw [Option.isSome_map, surfaces, surfaces, Record.isSome_view, Record.isSome_view] at hsurface
  rw [mem_places, mem_places, tags, tags, Record.isSome_view, Record.isSome_view, hsurface]

/-! ## 4. Opening a module again -/

/-- Opening a module again and leaving it as it is changes nothing. -/
theorem run?_reopen {start : Session} (htracks : Tracks start s) (hdrafts : s.drafts = [])
    (hroot : s.root.kind = .program) (hopened : path ∈ s.moduleScopes) :
    s.run? [.openModule path, .close] = some s := by
  obtain ⟨tag, htag, hassigned⟩ := htracks.opened hopened
  obtain ⟨r, hget, rfl⟩ := exists_get?_of_tags htag
  obtain ⟨scope, hscope⟩ := Option.isSome_iff_exists.mp
    (Std.ExtTreeMap.isSome_getElem?_iff_mem.mpr hopened)
  obtain ⟨root, lineage, workspace, scopes, drafts⟩ := s
  obtain ⟨p, rfl⟩ := Record.exists_eq_program hroot
  subst hdrafts
  rw [Record.get?_singleton] at hget
  obtain ⟨m, hm, rfl⟩ := Option.map_eq_some_iff.mp hget
  have hstep : openModule? ⟨.program p, lineage, workspace, scopes, []⟩ path =
      some ⟨.program p, lineage, workspace, scopes, [⟨[.module path], scope⟩]⟩ := by
    have hid : m.id.isAssigned := hassigned
    simp only [openModule?, hm, hscope, hid, Option.getD_some, if_true]
    rw [insert_self_of_getElem? hm, insert_self_of_getElem? hscope]
  rw [run?_cons, step?, hstep]
  rfl

/-- A module that has been opened has a scope. -/
theorem FollowsAlone.mem_moduleScopes {start : Session} (h : FollowsAlone path openings s)
    (hopened : path ∈ openings.map Opening.path) (hdistinct : s.Distinct) (hblank : start.Blank)
    (htracks : Tracks start s) : path ∈ s.moduleScopes := by
  obtain ⟨u, hrun, hdrafts, halike⟩ := h.opened hopened
  obtain ⟨τ, hτ⟩ := exists_renames (hdistinct.distinctIn (Within path)) u
  obtain ⟨r', hget'⟩ := exists_get?_of_drafts_eq hrun hdrafts
  obtain ⟨r, hget, -⟩ := (halike hτ).exists_get?_source List.prefix_rfl hget'
  exact htracks.openedFirst (hblank.entered hget)

/-! ## 5. All interleavings -/

/-- **What is done in the modules of a program decides what the program is, up to a
    permutation of identifiers and one of handles, however it is cut into openings and
    in whatever order these follow one another.**  If one way of doing it goes through,
    as long as there are identifiers to hand out, so does every other way.  To open a
    module once more and leave it as it is changes nothing. -/
theorem sameUpTo_of_run? (hrun : (ofProgram w {}).run? (first.flatMap Opening.steps) = some s)
    (hnames : ∀ o ∈ first, ∀ step ∈ o.body, step.UsesNames)
    (hsize : s.lineage.size ≤ EntityId.unassigned.raw)
    (hopened : ∀ path, path ∈ first.map Opening.path ↔ path ∈ second.map Opening.path)
    (hbody : ∀ path, Opening.bodyOf path first = Opening.bodyOf path second) (w' : Workspace) :
    (∃ u, (ofProgram w' {}).run? (second.flatMap Opening.steps) = some u ∧
      ∃ (ρ : Equiv.Perm EntityId) (τ : Equiv.Perm Nat), SameUpTo ρ τ s u) ∧
      ∀ path ∈ first.map Opening.path, s.run? [.openModule path, .close] = some s := by
  have hnames' : ∀ o ∈ second, ∀ step ∈ o.body, step.UsesNames := by
    intro o ho step hmem
    have hmem' := Opening.mem_bodyOf.mpr ⟨o, ho, rfl, hmem⟩
    rw [← hbody] at hmem'
    obtain ⟨o', ho', -, hmem'⟩ := Opening.mem_bodyOf.mp hmem'
    exact hnames o' ho' step hmem'
  obtain ⟨hdrafts, hfollows⟩ := followsAlone_of_run? hnames hrun
  have hblank : (ofProgram w {}).Blank := Or.inl ⟨w, rfl⟩
  have hblank' : (ofProgram w' {}).Blank := Or.inl ⟨w', rfl⟩
  have hroot : s.root.kind = .program := kind_root_of_run? hrun
  have hdistinct := distinct_of_run? hblank hrun (usesNames_flatMap hnames)
  have htracks := tracks_of_run? hblank.begins hrun hsize
  constructor
  · obtain ⟨u, hrun'⟩ := exists_run?_of_alone w' hnames' fun path hpath => by
      obtain ⟨v, hv, -⟩ := (hfollows path).opened ((hopened path).mpr hpath)
      exact ⟨v, hbody path ▸ hv⟩
    obtain ⟨-, hfollows'⟩ := followsAlone_of_run? hnames' hrun'
    have hdistinct' := distinct_of_run? hblank' hrun' (usesNames_flatMap hnames')
    have halike := alike_of_modules hroot (kind_root_of_run? hrun') fun path =>
      alike_of_followsAlone (hfollows path) (hfollows' path) hdistinct' hnames (hopened path)
        (hbody path)
    -- the second run has made as many records as the first
    have hplaces := places_eq_of_alike halike hdistinct
    have hsize' : u.lineage.size ≤ EntityId.unassigned.raw := by
      apply size_le_of_ncard_places_le hblank' hrun'
      · rw [hplaces]
        exact htracks.finite_places hblank
      · rwa [hplaces, htracks.ncard_places hblank]
    have htracks' := tracks_of_run? hblank'.begins hrun' hsize'
    exact ⟨u, hrun', sameUpTo_of_alike halike hdistinct hdistinct' hblank hblank' htracks htracks'⟩
  · intro path hpath
    apply run?_reopen htracks hdrafts hroot
    exact (hfollows path).mem_moduleScopes hpath hdistinct hblank htracks

/-- Of two modules with a class each, one is opened for its class and once more for a
    variable, or for both at once and after the other. -/
theorem sameUpTo_reopened_module :
    ∃ s u, (ofProgram ∅ {}).run? (List.flatMap Opening.steps
        [⟨"app", [.declare (.class "User"), .close], rfl⟩,
          ⟨"lib", [.declare (.class "User"), .close], rfl⟩,
          ⟨"app", [.declare (.variable "admin"), .close], rfl⟩]) = some s ∧
      (ofProgram ∅ {}).run? (List.flatMap Opening.steps
        [⟨"lib", [.declare (.class "User"), .close], rfl⟩,
          ⟨"app", [.declare (.class "User"), .close, .declare (.variable "admin"), .close],
            rfl⟩]) = some u ∧
      s.handleAt? ⟨[.module "app", .entry 0], none⟩ = some ⟨1, "app::User"⟩ ∧
      u.handleAt? ⟨[.module "app", .entry 0], none⟩ = some ⟨2, "app::User"⟩ ∧
      (∃ (ρ : Equiv.Perm EntityId) (τ : Equiv.Perm Nat), SameUpTo ρ τ s u) ∧
      s.run? [.openModule "app", .close] = some s := by
  obtain ⟨s, hrun, hhandle, hsize⟩ : ∃ s, (ofProgram ∅ {}).run? (List.flatMap Opening.steps
        [⟨"app", [.declare (.class "User"), .close], rfl⟩,
          ⟨"lib", [.declare (.class "User"), .close], rfl⟩,
          ⟨"app", [.declare (.variable "admin"), .close], rfl⟩]) = some s ∧
      s.handleAt? ⟨[.module "app", .entry 0], none⟩ = some ⟨1, "app::User"⟩ ∧
      s.lineage.size = 6 := ⟨_, rfl, rfl, rfl⟩
  obtain ⟨u, hrun', hhandle'⟩ : ∃ u, (ofProgram ∅ {}).run? (List.flatMap Opening.steps
        [⟨"lib", [.declare (.class "User"), .close], rfl⟩,
          ⟨"app", [.declare (.class "User"), .close, .declare (.variable "admin"), .close],
            rfl⟩]) = some u ∧
      u.handleAt? ⟨[.module "app", .entry 0], none⟩ = some ⟨2, "app::User"⟩ := ⟨_, rfl, rfl⟩
  have hbody : ∀ path, Opening.bodyOf path
        [⟨"app", [.declare (.class "User"), .close], rfl⟩,
          ⟨"lib", [.declare (.class "User"), .close], rfl⟩,
          ⟨"app", [.declare (.variable "admin"), .close], rfl⟩] =
      Opening.bodyOf path [⟨"lib", [.declare (.class "User"), .close], rfl⟩,
        ⟨"app", [.declare (.class "User"), .close, .declare (.variable "admin"), .close], rfl⟩] := by
    intro path
    by_cases happ : "app" = path <;> by_cases hlib : "lib" = path <;> simp_all [Opening.bodyOf]
  obtain ⟨⟨u', hu', hsame⟩, hreopen⟩ :=
    sameUpTo_of_run? hrun (by decide) (by rw [hsize]; decide) (by simp [or_comm]) hbody ∅
  obtain rfl := Option.some.inj (hrun'.symm.trans hu')
  exact ⟨s, u, hrun, hrun', hhandle, hhandle', hsame, hreopen "app" (by simp)⟩

end Session

end Declarations
