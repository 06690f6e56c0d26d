/-
  Declarations/Proofs/Session/Scoping.lean
  ========================================
  **The scopes of a session fit its records.**

  In a session built from nothing, every module and every record that opens a
  scope has a frame of its own, which binds what the record declares, and the
  scope of an open record consists of the frames from its place outwards
  (`Session.Scoped`).

  Every step keeps this (`Scoped.advance`).  A declaration binds a type in the
  frame of the module that is its owner and enters a scope for the new record,
  type parameters are bound in the frame of the record that they are added to,
  and a module that is opened again goes on in the scope that it had.
-/
import Declarations.Proofs.Scope.Frames
import Declarations.Proofs.Session.Containment

namespace Declarations

namespace Session

variable {frames : Place → Option Nat} {start s s' : Session} {step : Step} {steps : List Step}
variable {place : Place} {slot : Slot} {scope : Scope} {r owner child : Record} {path : String}

/-! ## 1. What is kept -/

def labels (s : Session) : Labels := s.root.view Record.label

theorem labels_eq_some (h : s.root.get? place = some r) : s.labels place = some r.label :=
  Record.view_eq_some_iff.mpr ⟨r, h, rfl⟩

theorem exists_get?_of_labels {label : Record.Label} (h : s.labels place = some label) :
    ∃ r, s.root.get? place = some r ∧ r.label = label :=
  Record.view_eq_some_iff.mp h

/-- What is true of the scopes throughout a run from nothing. -/
structure Scoped (frames : Place → Option Nat) (s : Session) : Prop where
  -- frames bind what records declare
  bound : Frames s.labels frames s.workspace
  -- an open record has the frames from its place outwards for a scope
  drafts {draft : Draft} : draft ∈ s.drafts → Fits s.labels frames draft.place draft.scope
  -- so has a module that has been opened, open or not
  modules {path : String} {scope : Scope} : s.moduleScopes[path]? = some scope →
    Fits s.labels frames [.module path] scope
  -- all modules of a program have been opened
  opened {path : String} {label : Record.Label} : s.labels [.module path] = some label →
    path ∈ s.moduleScopes

namespace Scoped

theorem isSome_iff (h : Scoped frames s) (hget : s.root.get? place = some r) :
    (frames place).isSome ↔ r.kind = .module ∨ r.kind.opensScope :=
  h.bound.isSome_iff (labels_eq_some hget)

theorem frames_eq_none (h : Scoped frames s) (hget : s.root.get? place = some r)
    (hmodule : r.kind ≠ .module) (hscope : r.kind.opensScope = false) : frames place = none := by
  rw [← Option.not_isSome_iff_eq_none, h.isSome_iff hget, hscope]
  simpa using hmodule

/-- The scope of an open record fits the owner of a declaration as well. -/
theorem fits_ownerPlace (h : Scoped frames s) (d : Declaration)
    (hfits : Fits s.labels frames place scope) :
    Fits s.labels frames (d.ownerPlace place) scope := by
  rcases d.ownerPlace_cases place with heq | heq
  · rwa [heq]
  · generalize d.ownerPlace place = q at heq ⊢
    subst heq
    obtain ⟨label, hlabel⟩ := hfits.1
    obtain ⟨r, hget, -⟩ := exists_get?_of_labels hlabel
    -- a constructor has no frame
    have hkind : r.kind = .constructor := of_decide_eq_true (Record.isFor_of_get?_concat hget)
    have hnone := h.frames_eq_none hget (by simp [hkind]) (by simp [hkind, Kind.opensScope])
    refine ⟨hfits.exists_label (mem_outwards.mpr (List.prefix_append q _)), ?_⟩
    rw [hfits.2, Fits.chain_eq_of_concat hnone]

/-! ## 2. One step -/

theorem of_edit (h : Scoped frames s) (hlabels : s'.labels = s.labels)
    (hworkspace : s'.workspace = s.workspace) (hscopes : s'.moduleScopes = s.moduleScopes)
    (hdrafts : ∀ draft ∈ s'.drafts, Fits s.labels frames draft.place draft.scope) :
    Scoped frames s' := by
  constructor
  case bound => rw [hlabels, hworkspace]; exact h.bound
  case drafts => rw [hlabels]; exact fun hmem => hdrafts _ hmem
  case modules => rw [hlabels, hscopes]; exact h.modules
  case opened => rw [hlabels, hscopes]; exact h.opened

/-- A session in which records and frames were added is scoped if what is open
    and was not fits. -/
theorem of_grown (h : Scoped frames s) {frames' : Place → Option Nat}
    (hbound : Frames s'.labels frames' s'.workspace)
    (hkept : ∀ q label, s.labels q = some label → ∃ label', s'.labels q = some label')
    (hframes : ∀ q label, s.labels q = some label → frames' q = frames q)
    (hdrafts : ∀ draft ∈ s'.drafts, draft ∈ s.drafts ∨
      Fits s'.labels frames' draft.place draft.scope)
    (hmodules : ∀ path scope, s'.moduleScopes[path]? = some scope →
      s.moduleScopes[path]? = some scope ∨ Fits s'.labels frames' [.module path] scope)
    (hopened : ∀ path label, s'.labels [.module path] = some label →
      (∃ label, s.labels [.module path] = some label) ∨ path ∈ s'.moduleScopes)
    (hscopes : ∀ path ∈ s.moduleScopes, path ∈ s'.moduleScopes) : Scoped frames' s' := by
  constructor
  case bound => exact hbound
  case drafts =>
    intro draft hmem
    exact (hdrafts draft hmem).elim (fun hold => (h.drafts hold).mono hkept hframes) id
  case modules =>
    intro path scope hpath
    exact (hmodules path scope hpath).elim (fun hold => (h.modules hold).mono hkept hframes) id
  case opened =>
    intro path label hlabel
    rcases hopened path label hlabel with ⟨label', hold⟩ | hnew
    · exact hscopes path (h.opened hold)
    · exact hnew

/-- Opening a module: one that was opened before goes on in its scope, a new one
    has a new frame. -/
theorem of_moduleOpened (h : Scoped frames s) {p : Program} {m : Module} (id : EntityId)
    (lineage : Lineage) {workspace : Workspace} (hroot : s.root = .program p)
    (hmodule : m = p.modules[path]?.getD (.atPath path))
    (hscope : (s.moduleScopes[path]? = some scope ∧ workspace = s.workspace) ∨
      (s.moduleScopes[path]? = none ∧ (scope, workspace) = s.workspace.root path)) :
    ∃ frames', Scoped frames'
      { root := .program { p with modules := p.modules.insert path { m with id } }
        lineage, workspace
        moduleScopes := s.moduleScopes.insert path scope
        drafts := [⟨[.module path], scope⟩] } := by
  have hlabels : (Record.program { p with modules := p.modules.insert path { m with id } }).view
      Record.label = Function.update s.labels [.module path] (some (Record.module m).label) := by
    rw [Record.view_label_insertModule p path m hmodule id, labels, hroot]
  have hget : s.root.get? [.module path] = p.modules[path]?.map .module := by
    rw [hroot, Record.get?_singleton, Record.child?]
  -- a frame for the module is all that is needed
  have hscoped : ∀ frames', Frames (Function.update s.labels [.module path]
        (some (Record.module m).label)) frames' workspace →
      (∀ q label, s.labels q = some label → frames' q = frames q) →
      scope.chain = (outwards [.module path]).filterMap frames' →
      Scoped frames'
        { root := .program { p with modules := p.modules.insert path { m with id } }
          lineage, workspace
          moduleScopes := s.moduleScopes.insert path scope
          drafts := [⟨[.module path], scope⟩] } := by
    intro frames' hbound hframes hchain
    have hfits : Fits (Function.update s.labels [.module path] (some (Record.module m).label))
        frames' [.module path] scope := ⟨⟨_, Function.update_self _ _ _⟩, hchain⟩
    apply h.of_grown
    case hbound => rwa [labels, hlabels]
    case hframes => exact hframes
    case hkept =>
      intro q label hq
      rw [labels, hlabels]
      exact Labels.exists_update_eq_some hq
    case hdrafts =>
      intro draft hmem
      obtain rfl := List.mem_singleton.mp hmem
      rw [labels, hlabels]
      exact Or.inr hfits
    case hmodules =>
      intro other scope' hother
      rw [labels, hlabels]
      by_cases hpath : path = other
      · subst hpath
        obtain rfl : scope = scope' := by simpa using hother
        exact Or.inr hfits
      · exact Or.inl (by simpa [Std.ExtTreeMap.getElem?_insert, hpath] using hother)
    case hopened =>
      intro other label hother
      rw [labels, hlabels] at hother
      by_cases hpath : path = other
      · exact Or.inr (by simp [hpath])
      · have hne : ([.module other] : Place) ≠ [.module path] := by simpa using Ne.symm hpath
        exact Or.inl ⟨label, by rwa [Function.update_of_ne hne] at hother⟩
    case hscopes =>
      intro other hmem
      exact Std.ExtTreeMap.mem_insert.mpr (Or.inr hmem)
  rcases hscope with ⟨hopened, rfl⟩ | ⟨hopened, hnew⟩
  · obtain ⟨⟨label, hlabel⟩, hchain⟩ := h.modules hopened
    obtain ⟨r, hr, rfl⟩ := exists_get?_of_labels hlabel
    obtain rfl : r = .module m := Record.eq_module_of_get? hmodule (hroot ▸ hr)
    refine ⟨frames, hscoped frames ?_ (fun _ _ _ => rfl) hchain⟩
    rw [Function.update_eq_self_iff.mpr hlabel.symm]
    exact h.bound
  · obtain ⟨rfl, rfl⟩ := Prod.mk.inj hnew
    have hnone : s.labels [.module path] = none := by
      cases hlabel : s.labels [.module path] with
      | none => rfl
      | some label =>
        obtain ⟨scope, hscope⟩ := Option.isSome_iff_exists.mp
          (Std.ExtTreeMap.mem_iff_isSome_getElem?.mp (h.opened hlabel))
        exact absurd (hscope.symm.trans hopened) (by simp)
    have hknown : p.modules[path]? = none := by
      rw [labels, Record.view_eq_none_iff, hget] at hnone
      exact Option.map_eq_none_iff.mp hnone
    obtain rfl : m = .atPath path := by rw [hmodule, hknown, Option.getD_none]
    have hrootKind : s.root.kind = .program := by rw [hroot, Record.kind]
    have hrootFrame : frames [] = none :=
      h.frames_eq_none (Record.get?_nil s.root) (by simp [hrootKind])
        (by simp [hrootKind, Kind.opensScope])
    refine ⟨_, hscoped _ (h.bound.insert_scope hnone (Or.inl rfl) (Array.size_push _)
      (Workspace.bindings_root s.workspace path)) ?_ ?_⟩
    · intro q label hq
      exact Function.update_of_ne (Labels.ne_of_eq_some hnone hq) _ _
    · simp [Scope.chain, outwards, hrootFrame]

/-- Declaring a type binds it in the frame of the module that is its owner, and
    nothing else binds anything. -/
theorem bound_declareType (h : Scoped frames s) {d : Declaration} {handle : Option TypeHandle}
    {declared : Workspace} (hfits : Fits s.labels frames place scope)
    (howner : s.root.get? place = some owner) (hslot : owner.slotFor? d = some slot)
    (hdeclared : s.declareType scope d = (handle, { s with workspace := declared }))
    (id : EntityId) :
    Frames (Function.update s.labels place
      (some (owner.put slot ((d.bare handle).withId id)).label)) frames declared := by
  have hlabel : (owner.put slot ((d.bare handle).withId id)).label = ⟨owner.kind, fun name =>
      if d.typeName? = some name then handle else owner.declared? name⟩ := by
    rw [Record.label, Record.kind_put]
    congr 1
    funext name
    exact Record.declared?_put hslot handle id name
  have howner' : s.labels place = some owner.label := labels_eq_some howner
  rw [hlabel]
  cases hname : d.typeName? with
  | none =>
    have hsame : s.declareType scope d = (none, s) := by rw [declareType, hname]
    obtain ⟨rfl, hsession⟩ := Prod.mk.inj (hsame.symm.trans hdeclared)
    obtain rfl : s.workspace = declared := congrArg Session.workspace hsession
    have hsame : Function.update s.labels place (some owner.label) = s.labels :=
      Function.update_eq_self_iff.mpr howner'.symm
    simp only [reduceCtorEq, if_false]
    rw [show (⟨owner.kind, fun name => owner.declared? name⟩ : Record.Label) = owner.label from rfl,
      hsame]
    exact h.bound
  | some name =>
    have hnew : s.declareType scope d = (some (s.workspace.declareNominal scope name).1,
        { s with workspace := (s.workspace.declareNominal scope name).2 }) := by
      rw [declareType, hname]
    obtain ⟨rfl, hsession⟩ := Prod.mk.inj (hnew.symm.trans hdeclared)
    obtain rfl : _ = declared := congrArg Session.workspace hsession
    -- the owner is a module, so the nearest frame is its own
    have hkind := Record.kind_eq_module_of_typeName? hslot hname
    obtain ⟨frame, hframe⟩ :=
      Option.isSome_iff_exists.mp ((h.isSome_iff howner).mpr (Or.inl hkind))
    have hnearest := hfits.frame_eq hframe
    have hmade : scope.frame < s.workspace.frames.size := hnearest ▸ h.bound.made hframe
    apply h.bound.rebind howner' hframe (Workspace.size_frames_declareNominal _ _ _)
    case hothers =>
      intro other hother text
      rw [Workspace.getElem?_bindings_declareNominal hmade, if_neg]
      rintro ⟨heq, -⟩
      exact hother (heq.symm.trans hnearest)
    case hnames =>
      intro text
      rw [Workspace.getElem?_bindings_declareNominal hmade, h.bound.names howner' hframe text]
      simp only [hnearest, true_and, Option.some.injEq]
      rfl

/-- Declaring a child: its type, if it is one, is bound around it, and its scope
    is entered. -/
theorem of_childDeclared (h : Scoped frames s) {d : Declaration} {handle : Option TypeHandle}
    {declared workspace : Workspace} {surrounding : Scope} (lineage : Lineage) (id : EntityId)
    (hfits : Fits s.labels frames place surrounding)
    (howner : s.root.get? place = some owner) (hslot : owner.slotFor? d = some slot)
    (hempty : owner.child? slot = none)
    (hdeclared : s.declareType surrounding d = (handle, { s with workspace := declared }))
    (henter : declared.enter surrounding d.kind = (scope, workspace)) :
    ∃ frames', Scoped frames'
      { s with
        root := s.root.replace place (owner.put slot ((d.bare handle).withId id))
        lineage, workspace
        drafts := ⟨place ++ [slot], scope⟩ :: s.drafts } := by
  have hlabels : (s.root.replace place (owner.put slot ((d.bare handle).withId id))).view
      Record.label = Function.update (Function.update s.labels place
        (some (owner.put slot ((d.bare handle).withId id)).label)) (place ++ [slot])
        (some ⟨d.kind, fun _ => none⟩) := by
    rw [Record.view_replace_put Record.shallow_label howner
      (Record.hasSlot_of_slotFor? hslot) hempty (Record.accepts_of_slotFor? hslot (by simp)) (Record.child?_withId_bare d handle id),
      Record.label_withId_bare]
    rfl
  have hnone : s.labels (place ++ [slot]) = none := by
    rw [labels, Record.view_eq_none_iff, Record.get?_concat howner, hempty]
  have hmodule : d.kind ≠ .module := by cases d <;> simp [Declaration.kind]
  have hnone' : Function.update s.labels place (some (owner.put slot
      ((d.bare handle).withId id)).label) (place ++ [slot]) = none := by
    rw [Function.update_of_ne (by simp), hnone]
  obtain ⟨frames', hbound, hframes, hchain⟩ :=
    (h.bound_declareType hfits howner hslot hdeclared id).enter hnone' hmodule henter
  have hsame : ∀ q label, s.labels q = some label → frames' q = frames q := by
    intro q label hq
    exact hframes q (Labels.ne_of_eq_some hnone hq)
  refine ⟨frames', ?_⟩
  apply h.of_grown
  case hbound => rwa [labels, hlabels]
  case hframes => exact hsame
  case hkept =>
    intro q label hq
    rw [labels, hlabels]
    obtain ⟨label', hq'⟩ := Labels.exists_update_eq_some hq
    exact Labels.exists_update_eq_some hq'
  case hdrafts =>
    intro draft hmem
    rcases List.mem_cons.mp hmem with rfl | hmem
    · refine Or.inr ⟨⟨_, by rw [labels, hlabels, Function.update_self]⟩, ?_⟩
      have haround : (outwards place).filterMap frames' = (outwards place).filterMap frames := by
        apply List.filterMap_congr
        intro q hq
        obtain ⟨label, hlabel⟩ := hfits.exists_label hq
        exact hsame q label hlabel
      rw [hchain, hfits.2, outwards_concat, List.filterMap_cons, ← haround]
      cases frames' (place ++ [slot]) <;> rfl
    · exact Or.inl hmem
  case hmodules => exact fun other scope hother => Or.inl hother
  case hopened =>
    intro other label hother
    have hne := Record.concat_ne_module_of_slotFor? hslot place other
    rw [labels, hlabels, Function.update_of_ne hne.symm] at hother
    exact Or.inl (Labels.exists_eq_some_of_update (labels_eq_some howner) hother)
  case hscopes => exact fun other hmem => hmem

/-- Type parameters are bound in the scope of the record that they are added to,
    which is its own. -/
theorem of_typeParametersAdded (h : Scoped frames s) {draft : Draft} {r' : Record}
    {old : Option (List TypeHandle)} {parameters : List TypeIdentifier}
    {handles : List TypeHandle} {workspace : Workspace} (hmem : draft ∈ s.drafts)
    (hrecord : s.root.get? draft.place = some r) (hold : r.typeParameters? = some old)
    (hdeclared : s.workspace.declareTypeParameters draft.scope parameters = (handles, workspace))
    (hnew : r.withTypeParameters? (appendTo old handles) = some r') :
    Scoped frames { s with root := s.root.replace draft.place r', workspace } := by
  obtain ⟨houtline, -, hchildren, -⟩ := Record.withTypeParameters?_keeps hnew
  have hlabels : (s.root.replace draft.place r').view Record.label = Function.update s.labels
      draft.place (some ⟨r.kind, fun name => r'.declared? name⟩) := by
    rw [Record.view_replace_edited Record.shallow_label hrecord houtline hchildren, Record.label,
      Record.kind_eq_of_outline_eq houtline]
    rfl
  obtain ⟨frame, hframe⟩ := Option.isSome_iff_exists.mp
    ((h.isSome_iff hrecord).mpr (Or.inr (Record.opensScope_of_typeParameters? hold)))
  have hnearest := (h.drafts hmem).frame_eq hframe
  have hmade : draft.scope.frame < s.workspace.frames.size := hnearest ▸ h.bound.made hframe
  have hsize := Workspace.size_frames_declareTypeParameters s.workspace draft.scope parameters
  have hbind := Workspace.getElem?_bindings_declareTypeParameters hmade parameters
  rw [hdeclared] at hsize hbind
  have hbound : Frames (Function.update s.labels draft.place
      (some ⟨r.kind, fun name => r'.declared? name⟩)) frames workspace := by
    apply h.bound.rebind (labels_eq_some hrecord) hframe hsize
    case hothers =>
      intro other hother name
      rw [hbind, if_neg fun heq => hother (heq.symm.trans hnearest)]
    case hnames =>
      intro name
      rw [hbind, if_pos hnearest, h.bound.names (labels_eq_some hrecord) hframe name]
      exact (Record.declared?_of_withTypeParameters? hold hnew name).symm
  apply h.of_grown
  case hbound => rwa [labels, hlabels]
  case hframes => exact fun q label hq => rfl
  case hkept =>
    intro q label hq
    rw [labels, hlabels]
    exact Labels.exists_update_eq_some hq
  case hdrafts => exact fun opened hmem => Or.inl hmem
  case hmodules => exact fun path scope hpath => Or.inl hpath
  case hopened =>
    intro path label hpath
    rw [labels, hlabels] at hpath
    exact Or.inl (Labels.exists_eq_some_of_update (labels_eq_some hrecord) hpath)
  case hscopes => exact fun path hmem => hmem

/-- **Every step keeps a session scoped.** -/
theorem advance (h : Scoped frames s) (hadvance : s.Advance step s') :
    ∃ frames', Scoped frames' s' := by
  cases hadvance with
  | moduleOpened p path m id lineage scope workspace hdrafts hroot hmodule hregister hscope =>
    exact h.of_moduleOpened id lineage hroot hmodule hscope
  | childReopened draft rest d owner child slot hdrafts howner hslot hchild =>
    refine ⟨frames, h.of_edit rfl rfl rfl ?_⟩
    intro opened hmem
    rcases List.mem_cons.mp hmem with rfl | hmem
    · -- a constructor or parameter has no frame
      have hfits := h.fits_ownerPlace d (h.drafts (hdrafts ▸ List.mem_cons_self))
      have hget := (Record.get?_concat howner slot).trans hchild
      obtain ⟨hkind, hkinds⟩ := Record.kind_of_slotFor?_of_child? hslot hchild
      rw [← hkind] at hkinds
      have hnone : frames (d.ownerPlace draft.place ++ [slot]) = none := by
        refine h.frames_eq_none hget ?_ ?_ <;>
          rcases hkinds with hkinds | hkinds <;> simp [hkinds, Kind.opensScope]
      exact ⟨⟨_, labels_eq_some hget⟩, by rw [hfits.2, Fits.chain_eq_of_concat hnone]⟩
    · exact h.drafts hmem
  | childDeclared draft rest d owner slot handle declared scope workspace hdrafts howner hslot
      hempty hdeclared henter =>
    exact h.of_childDeclared _ _ (h.fits_ownerPlace d (h.drafts (hdrafts ▸ List.mem_cons_self)))
      howner hslot hempty hdeclared henter
  | closed draft rest hdrafts =>
    exact ⟨frames, h.of_edit rfl rfl rfl fun opened hmem =>
      h.drafts (hdrafts ▸ List.mem_cons_of_mem draft hmem)⟩
  | typeParametersAdded draft rest r r' old parameters handles workspace hdrafts hrecord hold
      hdeclared hnew =>
    exact ⟨frames, h.of_typeParametersAdded (hdrafts ▸ List.mem_cons_self) hrecord hold hdeclared
      hnew⟩
  | unchanged => exact ⟨frames, h⟩
  | edited _ draft rest r r' hdrafts hrecord houtline hid hchildren htypes =>
    have hlabel := Record.label_eq_of_edit houtline hchildren htypes
    have hsame : (s.replace draft.place r').labels = s.labels := by
      rw [labels, replace,
        Record.view_replace_edited Record.shallow_label hrecord houtline hchildren, hlabel]
      exact Record.update_view_self Record.label hrecord
    exact ⟨frames, h.of_edit hsame rfl rfl fun opened hmem => h.drafts hmem⟩

end Scoped

/-! ## 3. Runs -/

theorem Blank.scoped (h : start.Blank) : ∃ frames, Scoped frames start := by
  have hlabels : start.labels = Function.update (fun _ => none) [] (some start.root.label) := by
    funext place
    by_cases hplace : place = []
    · subst hplace
      rw [Function.update_self]
      rfl
    · rw [Function.update_of_ne hplace, labels, Record.view_eq_none_iff]
      exact Record.view_eq_none_iff.mp (h.tags_eq_none hplace)
  rcases h with ⟨w, rfl⟩ | ⟨w, path, rfl⟩
  · refine ⟨fun _ => none, ?_⟩
    constructor
    case bound =>
      rw [hlabels]
      exact (Frames.empty w).insert_plain rfl (by simp [ofProgram, Record.kind]) rfl
    case drafts => simp [ofProgram]
    case modules => simp [ofProgram]
    case opened => simp [hlabels]
  · refine ⟨Function.update (fun _ => none) [] (some w.frames.size), ?_⟩
    constructor
    case bound =>
      rw [hlabels]
      exact (Frames.empty w).insert_scope rfl (Or.inl rfl) (Array.size_push _)
        (Workspace.bindings_root w path)
    case drafts =>
      intro draft hmem
      obtain rfl := List.mem_singleton.mp hmem
      exact ⟨⟨_, labels_eq_some (Record.get?_nil _)⟩, rfl⟩
    case modules => simp [ofModule]
    case opened => simp [hlabels]

theorem scoped_of_run? (hblank : start.Blank) (hrun : start.run? steps = some s) :
    ∃ frames, Scoped frames s :=
  invariant_of_run? (I := fun s => ∃ frames, Scoped frames s) hblank.scoped
    (fun ⟨_, h⟩ hadvance => h.advance hadvance) hrun

end Session

end Declarations
