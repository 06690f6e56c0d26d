/-
  Declarations/Proofs/Session/Chains.lean
  =======================================
  **The shape of scopes and what their frames bind.**

  In a session built from nothing, the scope of an open record is a chain of frames: one for
  each class, interface, function or method from the record outwards, and the frame of its
  module at the end.  All other records share the frame of the record around them, and no two
  records or modules have one frame in common.

  A frame is a table of the names that its record declares, each with the handle that was
  declared last: a record declares its type parameters under their display names, a module
  its classes and interfaces under theirs.  For the table to have no other keys than these,
  whatever declares a type must have a handle (`Session.Handled`).

  `Session.Chains` says all of this, and `exists_chains_of_run?` that it is true after every
  run from nothing.
-/
import Declarations.Proofs.Record.Equality
import Declarations.Proofs.Session.Integrity
import Declarations.Proofs.Session.Readings

namespace Declarations

namespace Record

variable {root r child : Record} {place : Place} {slot : Slot} {name : String}

/-! ## 1. What a record declares -/

/-- The names under which a record declares types, with repetitions: the display names of
    type parameters, or the names of classes and interfaces unless they are empty. -/
def declaredNames : Record → List String
  | .module m => m.entries.filterMap Entry.typeName?
  | r => (r.typeParameters?.join.getD []).map TypeHandle.display

theorem declaredNames_of_kind_ne_module (h : r.kind ≠ .module) :
    r.declaredNames = (r.typeParameters?.join.getD []).map TypeHandle.display := by
  cases r with
  | module => exact absurd rfl h
  | _ => rfl

/-- A name means something to a record that declares it, if what declares a type has a
    handle. -/
theorem isSome_declared?_iff (hhandled : ∀ m, r = .module m → ∀ e ∈ m.entries,
    e.typeName?.isSome → e.handle?.isSome) :
    (r.declared? name).isSome ↔ name ∈ r.declaredNames := by
  rcases Decidable.em (r.kind = .module) with hkind | hkind
  · obtain ⟨m, rfl⟩ := exists_eq_module hkind
    rw [declared?, Module.nominal?, declaredNames, List.mem_filterMap]
    constructor
    · intro hsome
      obtain ⟨h, hbind⟩ := Option.isSome_iff_exists.mp hsome
      obtain ⟨e, hfind, -⟩ := Option.bind_eq_some_iff.mp hbind
      exact ⟨e, List.mem_reverse.mp (List.mem_of_find?_eq_some hfind),
        by simpa using List.find?_some hfind⟩
    · rintro ⟨e, hmem, hname⟩
      have hfound : (m.entries.reverse.find? fun e => e.typeName? = some name).isSome :=
        List.find?_isSome.mpr ⟨e, List.mem_reverse.mpr hmem, by simpa using hname⟩
      obtain ⟨last, hlast⟩ := Option.isSome_iff_exists.mp hfound
      have hlastName : last.typeName? = some name := by simpa using List.find?_some hlast
      rw [hlast, Option.bind_some]
      exact hhandled m rfl last (List.mem_reverse.mp (List.mem_of_find?_eq_some hlast))
        (by rw [hlastName, Option.isSome_some])
  · rw [declared?_of_kind_ne_module hkind, declaredNames_of_kind_ne_module hkind,
      List.find?_isSome, List.mem_map]
    simp only [List.mem_reverse, decide_eq_true_eq]

/-! ## 2. The places around a record -/

/-- From a record outwards there are records of a module, then the module, and then the
    program if there is one. -/
theorem exists_home (hroot : root.kind = .program ∨ root.kind = .module)
    (hget : root.get? place = some r) (hkind : r.kind ≠ .program) :
    ∃ inner home outer m, outwards place = inner ++ home :: outer ∧
      (∀ q ∈ inner, ∃ r, root.get? q = some r ∧ r.kind ≠ .module ∧ r.kind ≠ .program) ∧
      root.get? home = some (.module m) ∧
      ∀ q ∈ outer, ∃ r, root.get? q = some r ∧ r.kind = .program := by
  induction place using List.reverseRecOn generalizing r with
  | nil =>
    obtain rfl := Option.some.inj hget
    obtain ⟨m, rfl⟩ := exists_eq_module (hroot.resolve_left hkind)
    exact ⟨[], [], [], m, rfl, List.forall_mem_nil _, rfl, List.forall_mem_nil _⟩
  | append_singleton above slot ih =>
    obtain ⟨owner, howner⟩ := exists_get?_of_append hget
    have howned := kind_eq_program_iff ((get?_concat howner slot).symm.trans hget)
    rw [outwards_concat]
    by_cases hmodule : r.kind = .module
    · obtain ⟨m, rfl⟩ := exists_eq_module hmodule
      have hprogram := howned.mpr hmodule
      obtain rfl := eq_nil_of_kind_eq_program howner hprogram
      refine ⟨[], [] ++ [slot], [[]], m, rfl, List.forall_mem_nil _, hget, fun q hq => ?_⟩
      obtain rfl := List.mem_singleton.mp hq
      exact ⟨owner, howner, hprogram⟩
    · obtain ⟨inner, home, outer, m, houtwards, hinner, hhome, houter⟩ :=
        ih howner fun hprogram => hmodule (howned.mp hprogram)
      refine ⟨(above ++ [slot]) :: inner, home, outer, m, by rw [houtwards, List.cons_append],
        ?_, hhome, houter⟩
      intro q hq
      rcases List.mem_cons.mp hq with rfl | hq
      · exact ⟨r, hget, hmodule, hkind⟩
      · exact hinner q hq

theorem IsNew.isSome_handle? (h : r.IsNew) (hname : r.outline.typeName?.isSome) :
    r.outline.handle?.isSome := by
  cases h with
  | module path id => cases hname
  | declared d handle id hhandle =>
    cases d with
    | «class» name => exact hhandle.trans hname
    | interface name => exact hhandle.trans hname
    | _ => cases hname

end Record

namespace Session

variable {frames : Place → Option Nat} {start s s' : Session} {step : Step} {steps : List Step}
variable {place q : Place} {r : Record} {draft : Draft} {frame : Nat} {scope : Scope}

/-! ## 3. What declares a type has a handle -/

/-- Whatever declares a type has a handle. -/
def Handled (s : Session) : Prop :=
  ∀ q r, s.root.get? q = some r → r.outline.typeName?.isSome → r.outline.handle?.isSome

theorem Handled.advance (h : s.Handled) (hadvance : s.Advance step s') : s'.Handled := by
  intro q r' hget' hname
  cases hget : s.root.get? q with
  | none => exact (hadvance.isNew hget hget').isSome_handle? hname
  | some r =>
    obtain ⟨r₁, hget₁, houtline⟩ := hadvance.exists_outline_eq hget
    obtain rfl := Option.some.inj (hget'.symm.trans hget₁)
    rw [houtline] at hname ⊢
    exact h q r hget hname

theorem Blank.handled (h : start.Blank) : start.Handled := by
  intro q r hget hname
  obtain rfl := h.place_eq_nil hget
  obtain rfl := Option.some.inj hget
  rcases h with ⟨w, rfl⟩ | ⟨w, path, rfl⟩ <;> cases hname

theorem Handled.isSome_declared?_iff (h : s.Handled) (hget : s.root.get? q = some r)
    {name : String} : (r.declared? name).isSome ↔ name ∈ r.declaredNames := by
  apply Record.isSome_declared?_iff
  rintro m rfl e hmem hname
  obtain ⟨i, hi⟩ := List.getElem?_of_mem hmem
  have hentry : s.root.get? (q ++ [.entry i]) = some (.entry e) := by
    rw [Record.get?_concat hget, Record.child?, hi, Option.map_some]
  exact h _ _ hentry hname

/-! ## 4. Scopes -/

/-- Which frames the scopes of a session consist of, and what these frames bind. -/
structure Chains (frames : Place → Option Nat) (s : Session) : Prop where
  -- each module has a frame, and so has each class, interface, function and method
  owners {q : Place} {r : Record} : s.root.get? q = some r →
    ((frames q).isSome ↔ r.kind = .module ∨ r.kind.opensScope)
  -- two records, or modules at two paths, have different frames
  distinct {p q : Place} {frame : Nat} : frames p = some frame → frames q = some frame → p = q
  -- the scope of an open record: the frames of the records from it outwards that have one,
  -- up to its module, and then that of the module
  chain {draft : Draft} : draft ∈ s.drafts → ∃ inner home outer m frame,
    outwards draft.place = inner ++ home :: outer ∧
    (∀ q ∈ inner, ∃ r, s.root.get? q = some r ∧ r.kind ≠ .module ∧ r.kind ≠ .program) ∧
    s.root.get? home = some (.module m) ∧ frames home = some frame ∧
    draft.scope.chain = inner.filterMap frames ++ [frame]
  -- a record without a frame has the scope of the record around it
  shared {draft : Draft} {r : Record} : draft ∈ s.drafts → s.root.get? draft.place = some r →
    r.kind ≠ .module → r.kind.opensScope = false → ∃ owner slot,
    draft.place = owner ++ [slot] ∧ draft.scope.chain = (outwards owner).filterMap frames ∧
    ∀ other ∈ s.drafts, other.place = owner → draft.scope.chain = other.scope.chain
  -- a module that was opened, open or not, has its own frame for a scope
  modules {path : String} {scope : Scope} : s.moduleScopes[path]? = some scope →
    ∃ frame, frames [.module path] = some frame ∧ scope.chain = [frame]
  -- a frame binds the names that its record declares, each to the last of the handles
  binding {q : Place} {r : Record} {scope : Scope} : s.root.get? q = some r →
    frames q = some scope.frame → ∀ name, s.workspace.localBinding? scope name = r.declared? name
  -- and it binds no others
  names {q : Place} {r : Record} {scope : Scope} : s.root.get? q = some r →
    frames q = some scope.frame → ∀ name,
    s.workspace.isBoundLocally scope name ↔ name ∈ r.declaredNames
  count {q : Place} {r : Record} {scope : Scope} : s.root.get? q = some r →
    frames q = some scope.frame → s.workspace.localCount scope = r.declaredNames.toFinset.card

theorem Scoped.frames_of_kind_eq_program (h : Scoped frames s) (hget : s.root.get? q = some r)
    (hkind : r.kind = .program) : frames q = none :=
  h.frames_eq_none hget (by simp [hkind]) (by simp [hkind, Kind.opensScope])

/-- No program is open as a record: its scope would have no frame. -/
theorem Scoped.kind_ne_program (h : Scoped frames s) (hmem : draft ∈ s.drafts)
    (hget : s.root.get? draft.place = some r) : r.kind ≠ .program := by
  intro hkind
  have hchain := (h.drafts hmem).2
  have hnone := h.frames_of_kind_eq_program hget hkind
  rw [Record.eq_nil_of_kind_eq_program hget hkind] at hnone hchain
  rw [outwards_nil, List.filterMap_cons_none hnone] at hchain
  cases hchain

theorem Scoped.exists_chain (h : Scoped frames s)
    (hroot : s.root.kind = .program ∨ s.root.kind = .module) (hmem : draft ∈ s.drafts) :
    ∃ inner home outer m frame, outwards draft.place = inner ++ home :: outer ∧
      (∀ q ∈ inner, ∃ r, s.root.get? q = some r ∧ r.kind ≠ .module ∧ r.kind ≠ .program) ∧
      s.root.get? home = some (.module m) ∧ frames home = some frame ∧
      draft.scope.chain = inner.filterMap frames ++ [frame] := by
  obtain ⟨⟨label, hlabel⟩, hchain⟩ := h.drafts hmem
  obtain ⟨r, hget, -⟩ := exists_get?_of_labels hlabel
  obtain ⟨inner, home, outer, m, houtwards, hinner, hhome, houter⟩ :=
    Record.exists_home hroot hget (h.kind_ne_program hmem hget)
  obtain ⟨frame, hframe⟩ := Option.isSome_iff_exists.mp ((h.isSome_iff hhome).mpr (Or.inl rfl))
  refine ⟨inner, home, outer, m, frame, houtwards, hinner, hhome, hframe, ?_⟩
  have hnone : outer.filterMap frames = [] := by
    rw [List.filterMap_eq_nil_iff]
    intro q hq
    obtain ⟨r, hget, hkind⟩ := houter q hq
    exact h.frames_of_kind_eq_program hget hkind
  rw [hchain, houtwards, List.filterMap_append, List.filterMap_cons_some hframe, hnone]

theorem Scoped.chains (h : Scoped frames s)
    (hroot : s.root.kind = .program ∨ s.root.kind = .module) (hhandled : s.Handled) :
    Chains frames s := by
  have hbound : ∀ {q r} {scope : Scope}, s.root.get? q = some r → frames q = some scope.frame →
      ∀ name, s.workspace.localBinding? scope name = r.declared? name :=
    fun hget hframe name => h.bound.names (labels_eq_some hget) hframe name
  have hnames : ∀ {q r} {scope : Scope}, s.root.get? q = some r → frames q = some scope.frame →
      ∀ name, name ∈ s.workspace.bindings scope.frame ↔ name ∈ r.declaredNames := by
    intro q r scope hget hframe name
    rw [Std.ExtTreeMap.mem_iff_isSome_getElem?, ← hhandled.isSome_declared?_iff hget,
      ← hbound hget hframe, Workspace.localBinding?]
  constructor
  case owners => exact h.isSome_iff
  case distinct => exact h.bound.distinct
  case chain => exact h.exists_chain hroot
  case shared =>
    intro draft r hmem hget hmodule hscope
    obtain ⟨owner, slot, hplace⟩ : ∃ owner slot, draft.place = owner ++ [slot] := by
      rcases draft.place.eq_nil_or_concat with hnil | ⟨owner, slot, hplace⟩
      · -- a root is a program or a module
        rw [hnil] at hget
        obtain rfl := Option.some.inj hget
        refine absurd (hroot.resolve_right hmodule) (h.kind_ne_program hmem ?_)
        rw [hnil, Record.get?_nil]
      · exact ⟨owner, slot, hplace.trans List.concat_eq_append⟩
    have hnone := h.frames_eq_none hget hmodule hscope
    have hchain : draft.scope.chain = (outwards owner).filterMap frames := by
      rw [(h.drafts hmem).2, hplace, Fits.chain_eq_of_concat (hplace ▸ hnone)]
    refine ⟨owner, slot, hplace, hchain, ?_⟩
    rintro other hother rfl
    rw [hchain, (h.drafts hother).2]
  case modules =>
    intro path scope hopened
    obtain ⟨⟨label, hlabel⟩, hchain⟩ := h.modules hopened
    obtain ⟨r, hget, -⟩ := exists_get?_of_labels hlabel
    have hplace : ([.module path] : Place) = [] ++ [.module path] := rfl
    rw [hplace] at hget hchain
    have hkind : r.kind = .module := of_decide_eq_true (Record.isFor_of_get?_concat hget)
    obtain ⟨frame, hframe⟩ :=
      Option.isSome_iff_exists.mp ((h.isSome_iff hget).mpr (Or.inl hkind))
    have hprogram : s.root.kind = .program := by
      refine hroot.resolve_right fun hroot => ?_
      obtain ⟨m, hm⟩ := Record.exists_eq_module hroot
      rw [hm] at hget
      cases hget
    have hnone := h.frames_of_kind_eq_program (Record.get?_nil s.root) hprogram
    refine ⟨frame, hframe, ?_⟩
    rw [hchain, outwards_concat, outwards_nil, List.filterMap_cons_some hframe,
      List.filterMap_cons_none hnone, List.filterMap_nil]
  case binding => exact hbound
  case names =>
    intro q r scope hget hframe name
    rw [← hnames hget hframe, Workspace.isBoundLocally, Std.ExtTreeMap.contains_iff_mem]
  case count =>
    intro q r scope hget hframe
    apply table_size_eq_card
    intro name
    rw [List.mem_toFinset, hnames hget hframe]

/-- **After every run from nothing, the scope of an open record consists of the frames of
    the records around it that open a scope and of its module, and each frame binds what its
    record declares.** -/
theorem exists_chains_of_run? (hblank : start.Blank) (hrun : start.run? steps = some s) :
    ∃ frames, Chains frames s := by
  obtain ⟨frames, hscoped⟩ := scoped_of_run? hblank hrun
  have hhandled : s.Handled :=
    invariant_of_run? hblank.handled (fun h hadvance => h.advance hadvance) hrun
  have hroot : s.root.kind = .program ∨ s.root.kind = .module := by
    rw [kind_root_of_run? hrun]
    rcases hblank with ⟨w, rfl⟩ | ⟨w, path, rfl⟩
    · exact Or.inl rfl
    · exact Or.inr rfl
  exact ⟨frames, hscoped.chains hroot hhandled⟩

/-- A parameter of a generic method of a generic class is open.  The class declares one name
    twice. -/
theorem exists_chains_parameter :
    ∃ s draft outer frames, (ofProgram ∅ {}).run? [.openModule "app", .declare (.class "Box"),
        .addTypeParameters [.name "T", .handle ⟨1, "T"⟩], .declare (.method (some "map")),
        .addTypeParameters [.name "U", .name "V"], .declare (.parameter 0)] = some s ∧
      s.drafts.head? = some draft ∧
      draft.place = [.module "app", .entry 0, .method 0, .parameter 0] ∧
      draft.scope.chain = [2, 1, 0] ∧ s.workspace.localCount draft.scope = 2 ∧
      draft.scope.parent? = some outer ∧ s.workspace.localCount outer = 1 ∧
      s.workspace.localBinding? outer "T" = some ⟨1, "T"⟩ ∧ Chains frames s := by
  obtain ⟨s, draft, outer, hrun, hdraft, hplace, hchain, hcount, houter, hcount', hbinding⟩ :
      ∃ s draft outer, (ofProgram ∅ {}).run? [.openModule "app", .declare (.class "Box"),
        .addTypeParameters [.name "T", .handle ⟨1, "T"⟩], .declare (.method (some "map")),
        .addTypeParameters [.name "U", .name "V"], .declare (.parameter 0)] = some s ∧
      s.drafts.head? = some draft ∧
      draft.place = [.module "app", .entry 0, .method 0, .parameter 0] ∧
      draft.scope.chain = [2, 1, 0] ∧ s.workspace.localCount draft.scope = 2 ∧
      draft.scope.parent? = some outer ∧ s.workspace.localCount outer = 1 ∧
      s.workspace.localBinding? outer "T" = some ⟨1, "T"⟩ :=
    ⟨_, _, _, rfl, rfl, rfl, by decide +kernel, by decide +kernel, rfl, by decide +kernel,
      by decide +kernel⟩
  obtain ⟨frames, hchains⟩ := exists_chains_of_run? (Or.inl ⟨∅, rfl⟩) hrun
  exact ⟨s, draft, outer, frames, hrun, hdraft, hplace, hchain, hcount, houter, hcount', hbinding,
    hchains⟩

end Session

end Declarations
