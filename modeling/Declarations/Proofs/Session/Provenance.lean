/-
  Declarations/Proofs/Session/Provenance.lean
  ===========================================
  **Where the handles of a session come from.**

  A handle gets into a record or a frame because a step declares a type or type
  parameters, because a step is given it, or because a name is resolved to it that a
  frame binds.  So all handles of a session come from mints, as long as those that it is
  given do (`Advance.sound`).
-/
import Declarations.Proofs.Record.Handles
import Declarations.Proofs.Session.Persistence

namespace Declarations

/-- The handles that a step is given. -/
def Step.handles (step : Step) : List TypeHandle :=
  step.references.flatMap TypeReference.handles ++
    step.typeParameters.filterMap TypeIdentifier.handle?

namespace Record

variable {r r' : Record} {k : TypeHandle} {d : Declaration} {handle : Option TypeHandle}

theorem mem_ownHandles_withId_bare {id : EntityId}
    (hmem : k ∈ ((d.bare handle).withId id).ownHandles) : handle = some k := by
  cases d with
  | «class» | interface => simpa [ownHandles, Declaration.bare, withId, outline, Entry.handle?,
      Class.named, Interface.named, typeParameters?, references, eq_comm] using hmem
  | _ => exact absurd hmem List.not_mem_nil

/-- New type parameters are all that a record with new type parameters gains. -/
theorem mem_ownHandles_of_withTypeParameters? {old : Option (List TypeHandle)}
    {handles : List TypeHandle} (hold : r.typeParameters? = some old)
    (hnew : r.withTypeParameters? (appendTo old handles) = some r') (hmem : k ∈ r'.ownHandles) :
    k ∈ r.ownHandles ∨ k ∈ handles := by
  obtain ⟨houtline, -, -, htypes⟩ := withTypeParameters?_keeps hnew
  simp only [ownHandles, houtline, htypes, hold, references_withTypeParameters? hnew,
    Option.join_some, getD_appendTo, List.mem_append] at hmem ⊢
  tauto

/-- What a revision adds was given, or a name was resolved to it. -/
theorem mem_ownHandles_of_revise? {lookup : String → Option TypeHandle} {step : Step}
    (houtline : r'.outline = r.outline) (htypes : r'.typeParameters? = r.typeParameters?)
    (hrevise : r.revise? lookup step = some r') (hmem : k ∈ r'.ownHandles) :
    k ∈ r.ownHandles ∨ k ∈ step.handles ∨ ∃ name, lookup name = some k := by
  rw [ownHandles, houtline, htypes] at hmem
  rcases List.mem_append.mp hmem with hmem | hmem
  · exact Or.inl (List.mem_append_left _ hmem)
  obtain ⟨reference, hreference, hk⟩ := List.mem_flatMap.mp hmem
  rcases mem_references_of_revise? hrevise hreference with hold | ⟨given, hgiven, rfl⟩
  · exact Or.inl (List.mem_append_right _ (List.mem_flatMap.mpr ⟨reference, hold, hk⟩))
  · refine Or.inr ((TypeReference.mem_handles_resolve given hk).imp_left fun hk => ?_)
    exact List.mem_append_left _ (List.mem_flatMap.mpr ⟨given, hgiven, hk⟩)

end Record

namespace Session

variable {s s' : Session} {step : Step}

/-- The handles in the frames and records of a session come from mints. -/
structure Sound (s : Session) : Prop where
  workspace : s.workspace.Sound
  root : ∀ h ∈ s.root.handles, s.workspace.Minted h

/-- A change of one record adds only the handles that the record then holds. -/
theorem Sound.of_update (hsound : s.Sound) {place : Place} {list : List TypeHandle}
    (hworkspace : s'.workspace.Sound) (hextends : s.workspace.Extends s'.workspace)
    (hview : s'.root.view Record.ownHandles =
      Function.update (s.root.view Record.ownHandles) place (some list))
    (hlist : ∀ h ∈ list, h ∈ s.root.handles ∨ s'.workspace.Minted h) : s'.Sound where
  workspace := hworkspace
  root := by
    intro h hmem
    have hold : h ∈ s.root.handles → s'.workspace.Minted h := fun hmem =>
      (hsound.root h hmem).of_extends hextends
    rcases Record.mem_handles_of_update hview hmem with hmem | hmem
    · exact hold hmem
    · exact (hlist h hmem).elim hold id

theorem sound_of_declareType {scope : Scope} {d : Declaration} {handle : Option TypeHandle}
    {declared : Workspace} (hsound : s.workspace.Sound)
    (hdeclared : s.declareType scope d = (handle, { s with workspace := declared })) :
    declared.Sound ∧ ∀ h, handle = some h → declared.Minted h := by
  rw [declareType_eq] at hdeclared
  obtain ⟨hhandle, hsession⟩ := Prod.mk.inj hdeclared
  have hworkspace := congrArg Session.workspace hsession
  cases hname : d.typeName? with
  | none =>
    rw [hname] at hhandle hworkspace
    obtain rfl : s.workspace = declared := hworkspace
    refine ⟨hsound, ?_⟩
    rintro h rfl
    cases hhandle
  | some name =>
    rw [hname] at hhandle hworkspace
    obtain rfl : (s.workspace.declareNominal scope name).2 = declared := hworkspace
    refine ⟨hsound.declareNominal scope name, ?_⟩
    rintro h rfl
    obtain rfl := Option.some.inj hhandle
    exact (s.workspace.minted_mint _).of_extends (Workspace.extends_bind _ _ _ _)

/-- **A step that is given handles from mints keeps all handles of a session so.** -/
theorem Advance.sound (hadvance : s.Advance step s') (hsound : s.Sound)
    (hgiven : ∀ h ∈ step.handles, s.workspace.Minted h) : s'.Sound := by
  have hextends := hadvance.extends
  cases hadvance with
  | moduleOpened p path m id lineage scope workspace hdrafts hroot hmodule hregister hscope =>
    have hworkspace : workspace.Sound := by
      rcases hscope with ⟨-, rfl⟩ | ⟨-, hnew⟩
      · exact hsound.workspace
      · rw [(Prod.mk.inj hnew).2]
        exact hsound.workspace.root path
    have hprogram : (Record.program { p with modules := p.modules.insert path { m with id } }
        ).ownHandles = (Record.program p).ownHandles := rfl
    have hview := Record.view_insertModule Record.shallow_ownHandles p path m hmodule id
    rw [hprogram, Record.update_view_self _ (Record.get?_nil (.program p)), ← hroot] at hview
    exact hsound.of_update hworkspace hextends hview (List.forall_mem_nil _)
  | childDeclared draft rest d owner slot handle declared scope workspace hdrafts howner hslot
      hempty hdeclared henter =>
    obtain ⟨hnamed, hhandle⟩ := sound_of_declareType hsound.workspace hdeclared
    have hworkspace := hnamed.enter draft.scope d.kind
    have hentered := declared.extends_enter draft.scope d.kind
    rw [henter] at hworkspace hentered
    have hview := Record.view_replace_put Record.shallow_ownHandles howner
      (Record.hasSlot_of_slotFor? hslot) hempty (Record.accepts_of_slotFor? hslot (by simp))
      (Record.child?_withId_bare d handle s.lineage.next)
    rw [Record.ownHandles_put, Record.update_view_self _ howner] at hview
    refine hsound.of_update hworkspace hextends hview fun h hmem => Or.inr ?_
    exact (hhandle h (Record.mem_ownHandles_withId_bare hmem)).of_extends hentered
  | typeParametersAdded draft rest r r' old parameters handles workspace hdrafts hrecord hold
      hdeclared hnew =>
    obtain ⟨houtline, -, hchildren, -⟩ := Record.withTypeParameters?_keeps hnew
    have hparameters : ∀ parameter ∈ parameters, ∀ h, parameter.handle? = some h →
        s.workspace.Minted h := fun parameter hmem h hh =>
      hgiven h (List.mem_append_right _ (List.mem_filterMap.mpr ⟨parameter, hmem, hh⟩))
    obtain ⟨hworkspace, hminted⟩ :=
      hsound.workspace.declareTypeParameters hparameters draft.scope
    rw [hdeclared] at hworkspace hminted
    refine hsound.of_update hworkspace hextends
      (Record.view_replace_edited Record.shallow_ownHandles hrecord houtline hchildren) ?_
    intro h hmem
    exact (Record.mem_ownHandles_of_withTypeParameters? hold hnew hmem).imp
      (Record.mem_handles_of_get? hrecord) (hminted h)
  | edited _ draft rest r r' hdrafts hrecord houtline hid hchildren htypes hrevise =>
    refine hsound.of_update hsound.workspace hextends
      (Record.view_replace_edited Record.shallow_ownHandles hrecord houtline hchildren) ?_
    intro h hmem
    refine (Record.mem_ownHandles_of_revise? houtline htypes hrevise hmem).imp
      (Record.mem_handles_of_get? hrecord) ?_
    rintro (hmem | ⟨name, hlookup⟩)
    · exact hgiven h hmem
    · exact hsound.workspace h (Workspace.bound_of_lookup hlookup)
  | _ => exact ⟨hsound.workspace, hsound.root⟩

end Session

end Declarations
