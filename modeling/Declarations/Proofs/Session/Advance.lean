/-
  Declarations/Proofs/Session/Advance.lean
  ========================================
  **What one step of building can do.**

  `Session.Advance` lists the ways in which a step changes a session, with all
  that the step has checked and all that it has changed:

  * a module of the program is opened (`moduleOpened`),
  * a constructor or parameter that is there already is opened (`childReopened`),
  * a child is registered, put into an empty slot and opened (`childDeclared`),
  * the innermost record is closed (`closed`),
  * the innermost record gains type parameters (`typeParametersAdded`),
  * an attribute is set to nothing (`unchanged`),
  * the innermost record is changed in other ways (`edited`); its children, its
    type parameters and its outline stay.

  `advance_of_step?` says that there is nothing else, and `step?_of_advance` that
  all of it can happen.  What is true of sessions is proved by cases on `Advance`,
  and no such proof unfolds a step.
-/
import Declarations.Proofs.Record.Declaring
import Declarations.Proofs.Record.Revision

namespace Declarations

namespace Session

/-! ## 1. The ways to advance -/

variable {s s' : Session} {step : Step} {d : Declaration}

/-- One step of building. -/
inductive Advance (s : Session) : Step → Session → Prop where
  -- the module is registered if it has no identifier, and given a root scope if
  -- it was not opened before
  | moduleOpened (p : Program) (path : String) (m : Module) (id : EntityId)
      (lineage : Lineage) (scope : Scope) (workspace : Workspace)
      (hdrafts : s.drafts = []) (hroot : s.root = .program p)
      (hmodule : m = p.modules[path]?.getD (.atPath path))
      (hregister : (m.id.isAssigned ∧ id = m.id ∧ lineage = s.lineage) ∨
        (¬ m.id.isAssigned ∧ (id, lineage) = s.lineage.attach .module p.id))
      (hscope : (s.moduleScopes[path]? = some scope ∧ workspace = s.workspace) ∨
        (s.moduleScopes[path]? = none ∧ (scope, workspace) = s.workspace.root path)) :
      Advance s (.openModule path)
        { root := .program { p with modules := p.modules.insert path { m with id } }
          lineage, workspace
          moduleScopes := s.moduleScopes.insert path scope
          drafts := [⟨[.module path], scope⟩] }
  | childReopened (draft : Draft) (rest : List Draft) (d : Declaration) (owner child : Record)
      (slot : Slot) (hdrafts : s.drafts = draft :: rest)
      (howner : s.record? (d.ownerPlace draft.place) = some owner)
      (hslot : owner.slotFor? d = some slot) (hchild : owner.child? slot = some child) :
      Advance s (.declare d)
        { s with drafts := ⟨d.ownerPlace draft.place ++ [slot], draft.scope⟩ :: s.drafts }
  | childDeclared (draft : Draft) (rest : List Draft) (d : Declaration) (owner : Record)
      (slot : Slot) (handle : Option TypeHandle) (declared : Workspace) (scope : Scope)
      (workspace : Workspace) (hdrafts : s.drafts = draft :: rest)
      (howner : s.record? (d.ownerPlace draft.place) = some owner)
      (hslot : owner.slotFor? d = some slot) (hempty : owner.child? slot = none)
      (hdeclared : s.declareType draft.scope d = (handle, { s with workspace := declared }))
      (henter : declared.enter draft.scope d.kind = (scope, workspace)) :
      Advance s (.declare d)
        { s with
          root := s.root.replace (d.ownerPlace draft.place)
            (owner.put slot ((d.bare handle).withId s.lineage.next))
          lineage := (s.lineage.attach d.kind owner.id).2
          workspace
          drafts := ⟨d.ownerPlace draft.place ++ [slot], scope⟩ :: s.drafts }
  | closed (draft : Draft) (rest : List Draft) (hdrafts : s.drafts = draft :: rest) :
      Advance s .close { s with drafts := rest }
  | typeParametersAdded (draft : Draft) (rest : List Draft) (r r' : Record)
      (old : Option (List TypeHandle)) (parameters : List TypeIdentifier)
      (handles : List TypeHandle) (workspace : Workspace) (hdrafts : s.drafts = draft :: rest)
      (hrecord : s.record? draft.place = some r) (hold : r.typeParameters? = some old)
      (hdeclared : s.workspace.declareTypeParameters draft.scope parameters =
        (handles, workspace))
      (hnew : r.withTypeParameters? (appendTo old handles) = some r') :
      Advance s (.addTypeParameters parameters)
        { s with root := s.root.replace draft.place r', workspace }
  | unchanged (a : Attribute) (value : Option a.Value)
      (habsent : value.filter a.isPresent = none) (draft : Draft) (rest : List Draft) (r : Record)
      (hdrafts : s.drafts = draft :: rest) (hrecord : s.record? draft.place = some r)
      (hread : (r.read? a).isSome) : Advance s (.set a value) s
  | edited (step : Step) (draft : Draft) (rest : List Draft) (r r' : Record)
      (hdrafts : s.drafts = draft :: rest) (hrecord : s.record? draft.place = some r)
      (houtline : r'.outline = r.outline) (hid : r'.id = r.id) (hchildren : r'.child? = r.child?)
      (htypes : r'.typeParameters? = r.typeParameters?)
      (hrevise : r.revise? (s.workspace.lookup draft.scope) step = some r') :
      Advance s step { s with root := s.root.replace draft.place r' }

/-! ## 2. There are no others -/

theorem current?_eq_some_iff {draft : Draft} {r : Record} :
    s.current? = some (draft, r) ↔
      ∃ rest, s.drafts = draft :: rest ∧ s.record? draft.place = some r := by
  unfold current?
  cases hdrafts : s.drafts with
  | nil => simp
  | cons first rest =>
    simp only [List.head?_cons, Option.bind_some, Option.map_eq_some_iff, Prod.mk.injEq,
      List.cons.injEq]
    constructor
    · rintro ⟨_, hrecord, rfl, rfl⟩
      exact ⟨rest, ⟨rfl, rfl⟩, hrecord⟩
    · rintro ⟨_, ⟨rfl, rfl⟩, hrecord⟩
      exact ⟨r, hrecord, rfl, rfl⟩

theorem advance_of_openModule? {path : String} (h : s.openModule? path = some s') :
    s.Advance (.openModule path) s' := by
  unfold openModule? at h
  split at h
  next p hdrafts hroot =>
    have advance := fun id lineage scope workspace => @Advance.moduleOpened s p path _ id lineage
      scope workspace hdrafts hroot rfl
    cases hopened : s.moduleScopes[path]? with
    | some scope =>
      by_cases hassigned : (p.modules[path]?.getD (.atPath path)).id.isAssigned
      · simp only [hopened, if_pos hassigned] at h
        obtain rfl := Option.some.inj h
        exact advance _ _ _ _ (Or.inl ⟨hassigned, rfl, rfl⟩) (Or.inl ⟨hopened, rfl⟩)
      · simp only [hopened, if_neg hassigned] at h
        obtain rfl := Option.some.inj h
        exact advance _ _ _ _ (Or.inr ⟨hassigned, rfl⟩) (Or.inl ⟨hopened, rfl⟩)
    | none =>
      by_cases hassigned : (p.modules[path]?.getD (.atPath path)).id.isAssigned
      · simp only [hopened, if_pos hassigned] at h
        obtain rfl := Option.some.inj h
        exact advance _ _ _ _ (Or.inl ⟨hassigned, rfl, rfl⟩) (Or.inr ⟨hopened, rfl⟩)
      · simp only [hopened, if_neg hassigned] at h
        obtain rfl := Option.some.inj h
        exact advance _ _ _ _ (Or.inr ⟨hassigned, rfl⟩) (Or.inr ⟨hopened, rfl⟩)
  next => simp at h

theorem advance_of_declare? (h : s.declare? d = some s') : s.Advance (.declare d) s' := by
  unfold declare? at h
  obtain ⟨draft, hhead, h⟩ := Option.bind_eq_some_iff.mp h
  obtain ⟨rest, hdrafts⟩ := List.head?_eq_some_iff.mp hhead
  obtain ⟨owner, howner, h⟩ := Option.bind_eq_some_iff.mp h
  obtain ⟨slot, hslot, h⟩ := Option.map_eq_some_iff.mp h
  cases hchild : owner.child? slot with
  | some child =>
    obtain ⟨hname, hscope⟩ := Record.opens_nothing_of_child? hslot hchild
    obtain rfl : { s with drafts := ⟨d.ownerPlace draft.place ++ [slot], draft.scope⟩ ::
        s.drafts } = s' := by
      simpa [declareType, hname, hchild, openDraft, Workspace.enter, hscope] using h
    exact Advance.childReopened draft rest d owner child slot hdrafts howner hslot hchild
  | none =>
    obtain ⟨handle, declared, hdeclared⟩ : ∃ handle declared,
        s.declareType draft.scope d = (handle, { s with workspace := declared }) := by
      unfold declareType
      cases d.typeName? with
      | none => exact ⟨_, _, rfl⟩
      | some name => exact ⟨_, _, rfl⟩
    obtain rfl := h
    simp only [hdeclared, hchild, Option.isSome_none, Bool.false_eq_true, if_false, openDraft,
      adopt, Declaration.kind_bare]
    exact Advance.childDeclared draft rest d owner slot handle declared _ _ hdrafts howner hslot
      hchild hdeclared rfl

theorem advance_of_revise? {draft : Draft} {r r' : Record} (hcurrent : s.current? = some (draft, r))
    (hrevise : r.revise? (s.workspace.lookup draft.scope) step = some r') :
    s.Advance step (s.replace draft.place r') := by
  obtain ⟨rest, hdrafts, hrecord⟩ := current?_eq_some_iff.mp hcurrent
  obtain ⟨houtline, hid, hchildren, htypes⟩ := Record.revise?_keeps hrevise
  exact Advance.edited step draft rest r r' hdrafts hrecord houtline hid hchildren htypes hrevise

theorem advance_of_set? {a : Attribute} {value : Option a.Value} (h : s.set? a value = some s') :
    s.Advance (.set a value) s' := by
  unfold set? at h
  obtain ⟨⟨draft, r⟩, hcurrent, h⟩ := Option.bind_eq_some_iff.mp h
  cases hvalue : value.filter a.isPresent with
  | none =>
    simp only [hvalue, Option.map_eq_some_iff] at h
    obtain ⟨_, hread, rfl⟩ := h
    obtain ⟨rest, hdrafts, hrecord⟩ := current?_eq_some_iff.mp hcurrent
    exact Advance.unchanged a value hvalue draft rest r hdrafts hrecord
      (Option.isSome_iff_exists.mpr ⟨_, hread⟩)
  | some given =>
    simp only [hvalue, Option.map_eq_some_iff] at h
    obtain ⟨r', hwrite, rfl⟩ := h
    exact advance_of_revise? hcurrent (by rw [Record.revise?, hvalue]; exact hwrite)

theorem advance_of_addTypeParameters? {parameters : List TypeIdentifier}
    (h : s.addTypeParameters? parameters = some s') :
    s.Advance (.addTypeParameters parameters) s' := by
  unfold addTypeParameters? at h
  obtain ⟨⟨draft, r⟩, hcurrent, h⟩ := Option.bind_eq_some_iff.mp h
  obtain ⟨old, hold, h⟩ := Option.bind_eq_some_iff.mp h
  obtain ⟨r', hnew, rfl⟩ := Option.map_eq_some_iff.mp h
  obtain ⟨rest, hdrafts, hrecord⟩ := current?_eq_some_iff.mp hcurrent
  exact Advance.typeParametersAdded draft rest r r' old parameters _ _ hdrafts hrecord hold rfl
    hnew

/-- The steps other than `set` that change the innermost record alone. -/
def isEdit : Step → Bool
  | .addImport .. | .addExport .. | .addImplements .. | .addExtends .. => true
  | _ => false

theorem step?_eq_edit? (hedit : isEdit step) : s.step? step =
    s.edit? fun scope r => r.revise? (s.workspace.lookup scope) step := by
  cases step <;> simp only [isEdit, Bool.false_eq_true] at hedit
  all_goals
    simp only [step?, editModule?, addImplements?, addExtends?]
    congr 1
    funext scope r
    rcases r with _ | _ | e | _ | _ | _ | _
    case entry => cases e <;> rfl
    all_goals rfl

theorem advance_of_isEdit (hedit : isEdit step) (h : s.step? step = some s') :
    s.Advance step s' := by
  rw [step?_eq_edit? hedit] at h
  obtain ⟨⟨draft, r⟩, hcurrent, h⟩ := Option.bind_eq_some_iff.mp h
  obtain ⟨r', hrevise, rfl⟩ := Option.map_eq_some_iff.mp h
  exact advance_of_revise? hcurrent hrevise

/-- **Every step is one of the listed ways to advance.** -/
theorem advance_of_step? (h : s.step? step = some s') : s.Advance step s' := by
  cases step with
  | openModule path => exact advance_of_openModule? h
  | declare d => exact advance_of_declare? h
  | close =>
    unfold step? at h
    cases hdrafts : s.drafts with
    | nil => simp [hdrafts] at h
    | cons draft rest =>
      obtain rfl : { s with drafts := rest } = s' := by simpa [hdrafts] using h
      exact Advance.closed draft rest hdrafts
  | set a value => exact advance_of_set? h
  | addTypeParameters parameters => exact advance_of_addTypeParameters? h
  | addImport _ _ _ | addExport _ _ | addImplements _ | addExtends _ =>
    exact advance_of_isEdit rfl h

/-- **All the listed ways to advance are steps.** -/
theorem step?_of_advance (h : s.Advance step s') : s.step? step = some s' := by
  cases h with
  | moduleOpened p path m id lineage scope workspace hdrafts hroot hmodule hregister hscope =>
    subst hmodule
    rw [step?, openModule?, hdrafts, hroot]
    rcases hregister with ⟨hassigned, rfl, rfl⟩ | ⟨hunassigned, hattach⟩ <;>
      rcases hscope with ⟨hopened, rfl⟩ | ⟨hopened, hnew⟩
    · simp [hassigned, hopened]
    · simp [hassigned, hopened, ← hnew]
    · simp [hunassigned, hopened, ← hattach]
    · simp [hunassigned, hopened, ← hattach, ← hnew]
  | childReopened draft rest d owner child slot hdrafts howner hslot hchild =>
    obtain ⟨hname, hscope⟩ := Record.opens_nothing_of_child? hslot hchild
    simp [step?, declare?, hdrafts, howner, hslot, hchild, declareType, hname, openDraft,
      Workspace.enter, hscope]
  | childDeclared draft rest d owner slot handle declared scope workspace hdrafts howner hslot
      hempty hdeclared henter =>
    simp [step?, declare?, hdrafts, howner, hslot, hempty, hdeclared, openDraft, adopt, henter,
      Lineage.attach]
  | closed draft rest hdrafts => simp [step?, hdrafts]
  | typeParametersAdded draft rest r r' old parameters handles workspace hdrafts hrecord hold
      hdeclared hnew =>
    have hcurrent := current?_eq_some_iff.mpr ⟨rest, hdrafts, hrecord⟩
    simp [step?, addTypeParameters?, hcurrent, hold, hdeclared, hnew, replace]
  | unchanged a value habsent draft rest r hdrafts hrecord hread =>
    have hcurrent := current?_eq_some_iff.mpr ⟨rest, hdrafts, hrecord⟩
    obtain ⟨old, hold⟩ := Option.isSome_iff_exists.mp hread
    simp [step?, set?, hcurrent, habsent, hold]
  | edited _ draft rest r r' hdrafts hrecord houtline hid hchildren htypes hrevise =>
    have hcurrent := current?_eq_some_iff.mpr ⟨rest, hdrafts, hrecord⟩
    cases hedit : isEdit step with
    | true => simp [step?_eq_edit? hedit, edit?, hcurrent, hrevise, replace]
    | false =>
      cases step with
      | set a value =>
        obtain ⟨given, hgiven, hwrite⟩ := Option.bind_eq_some_iff.mp hrevise
        simp [step?, set?, hcurrent, hgiven, hwrite, replace]
      | _ => simp [isEdit, Record.revise?] at hedit hrevise

/-! ## 3. From one step to a run -/

/-- What holds at the beginning and is kept by the steps of a run holds after it. -/
theorem invariant_of_run?_of_mem {I : Session → Prop} {steps : List Step} (hinit : I s)
    (hstep : ∀ {s s' step}, step ∈ steps → I s → s.Advance step s' → I s')
    (h : s.run? steps = some s') : I s' := by
  induction steps generalizing s with
  | nil =>
    obtain rfl := Option.some.inj h
    exact hinit
  | cons step steps ih =>
    rw [run?_cons] at h
    obtain ⟨next, hnext, hrest⟩ := Option.bind_eq_some_iff.mp h
    exact ih (hstep List.mem_cons_self hinit (advance_of_step? hnext))
      (fun hmem => hstep (List.mem_cons_of_mem step hmem)) hrest

/-- What holds at the beginning and is kept by every step holds after every run. -/
theorem invariant_of_run? {I : Session → Prop} {steps : List Step} (hinit : I s)
    (hstep : ∀ {s s' step}, I s → s.Advance step s' → I s') (h : s.run? steps = some s') :
    I s' :=
  invariant_of_run?_of_mem hinit (fun _ => hstep) h

end Session

end Declarations
