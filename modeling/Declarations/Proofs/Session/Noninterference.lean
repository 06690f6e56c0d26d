/-
  Declarations/Proofs/Session/Noninterference.lean
  ================================================
  **What is done inside a declaration is not seen outside of it.**

  A class, interface, function or method is declared and a body is built in it, whatever
  it is given.  Had another body been built there, then everything outside of the
  declaration would have come out the same: the records with all their references and
  the frames with all their bindings, up to a permutation of identifiers and one of
  handles (`sameOutside_of_run?`).

  Before the bodies there is one run, which is in step with itself (`inStep_self`).  The
  bodies are not seen outside (`Declares.hidden`), so afterwards the two sessions are
  alike outside (`Hidden.alike`).  All that follows works outside, takes the same steps in
  both and keeps them in step (`Declares.exists_run?`).
-/
import Declarations.Proofs.Session.Effects
import Declarations.Proofs.Session.Interleaving
import Declarations.Proofs.Session.Persistence

namespace Declarations

theorem Declaration.ownerPlace_prefix (d : Declaration) (place : Place) :
    d.ownerPlace place <+: place := by
  rcases d.ownerPlace_cases place with heq | heq
  · rw [heq]
  · exact ⟨_, heq.symm⟩

namespace Session

variable {start s s' u u' s₀ s₁ : Session} {step : Step} {steps body body' before tail : List Step}
variable {place q : Place} {r : Record} {region : Place → Prop} {τ : Nat → Nat} {path : String}
variable {d : Declaration} {base : Place × String} {outer : List (Place × String)}
variable {depth depth' : Nat}

/-! ## 1. Outside of a declaration -/

/-- The declaration at a place is closed for good. -/
structure Sealed (place : Place) (s : Session) : Prop where
  -- it opens a scope, so it is not opened again
  present : ∃ r, s.root.get? place = some r ∧ r.kind.opensScope
  -- neither it nor anything in it is open
  drafts : ∀ draft ∈ s.drafts, ¬ place <+: draft.place

theorem Sealed.advance (h : Sealed place s) (hadvance : s.Advance step s') : Sealed place s' := by
  obtain ⟨r, hget, hscope⟩ := h.present
  constructor
  case present =>
    obtain ⟨r', hget', houtline⟩ := hadvance.exists_outline_eq hget
    exact ⟨r', hget', by rwa [Record.kind_eq_of_outline_eq houtline]⟩
  case drafts =>
    -- what is opened below the owner of a declaration is not the record at the place
    have hopened : ∀ {draft : Draft} {rest : List Draft} {d : Declaration} {slot : Slot},
        s.drafts = draft :: rest → place ≠ d.ownerPlace draft.place ++ [slot] →
        ¬ place <+: d.ownerPlace draft.place ++ [slot] := by
      intro draft rest d slot hdrafts hne hbelow
      rcases List.prefix_concat_iff.mp hbelow with heq | hbelow
      · exact hne heq
      · exact h.drafts draft (hdrafts ▸ List.mem_cons_self)
          (hbelow.trans (d.ownerPlace_prefix draft.place))
    cases hadvance with
    | moduleOpened p path m id lineage scope workspace hdrafts hroot =>
      intro draft hmem hbelow
      obtain rfl := List.mem_singleton.mp hmem
      rcases List.prefix_concat_iff.mp (show place <+: [] ++ [.module path] from hbelow) with
        rfl | hbelow
      · have hkind : r.kind = .module := of_decide_eq_true (Record.isFor_of_get?_concat hget)
        rw [hkind] at hscope
        cases hscope
      · obtain rfl := List.prefix_nil.mp hbelow
        obtain rfl := Option.some.inj hget
        rw [hroot] at hscope
        cases hscope
    | childReopened draft rest d owner child slot hdrafts howner hslot hchild =>
      intro opened hmem
      rcases List.mem_cons.mp hmem with rfl | hmem
      · refine hopened hdrafts ?_
        rintro rfl
        rw [Record.get?_concat howner] at hget
        obtain rfl := Option.some.inj (hget.symm.trans hchild)
        obtain ⟨hkind, hkinds⟩ := Record.kind_of_slotFor?_of_child? hslot hchild
        rw [hkind] at hscope
        rcases hkinds with hkind | hkind <;> rw [hkind] at hscope <;> cases hscope
      · exact h.drafts opened hmem
    | childDeclared draft rest d owner slot handle declared scope workspace hdrafts howner hslot
        hempty =>
      intro opened hmem
      rcases List.mem_cons.mp hmem with rfl | hmem
      · refine hopened hdrafts ?_
        rintro rfl
        rw [Record.get?_concat howner, hempty] at hget
        cases hget
      · exact h.drafts opened hmem
    | closed draft rest hdrafts =>
      exact fun opened hmem => h.drafts opened (hdrafts ▸ List.mem_cons_of_mem draft hmem)
    | _ => exact h.drafts

/-! ## 2. Two bodies in one declaration -/

/-- The places that are neither the given one nor in it. -/
def Outside (place q : Place) : Prop := ¬ place <+: q

theorem outside_of_concat {slot : Slot} (h : Outside place (q ++ [slot])) : Outside place q :=
  fun hbelow => h (hbelow.trans (List.prefix_append q _))

/-- A declaration that opens a scope makes a new record, and opens it. -/
structure Declares (place : Place) (d : Declaration) (s s' : Session) : Prop where
  absent : s.root.get? place = none
  present : ∃ handle id, (d.typeName? = none → handle = none) ∧
    s'.root.get? place = some ((d.bare handle).withId id)
  drafts : ∃ scope, s'.drafts = ⟨place, scope⟩ :: s.drafts
  notConstructor : place.getLast? ≠ some .constructor

theorem Declares.ne_nil (h : Declares place d s s') : place ≠ [] := by
  rintro rfl
  exact absurd h.absent (by simp)

theorem Advance.declares (hadvance : s.Advance (.declare d) s') (hscope : d.kind.opensScope) :
    Declares s'.target d s s' := by
  obtain ⟨known, -, id, -, habsent, hpresent⟩ := hadvance.exists_declared hscope
  cases hadvance with
  | childReopened draft rest _ owner child slot hdrafts howner hslot hchild =>
    rw [(Record.opens_nothing_of_child? hslot hchild).2] at hscope
    cases hscope
  | childDeclared draft rest _ owner slot handle declared scope workspace hdrafts howner hslot
      hempty hdeclared =>
    constructor
    case absent => exact habsent
    case present =>
      refine ⟨_, id, fun hname => ?_, hpresent⟩
      rw [declareType_eq, hname]
      rfl
    case drafts => exact ⟨scope, rfl⟩
    case notConstructor =>
      rw [target_eq rfl, List.getLast?_concat]
      rintro ⟨⟩
      have haccepts : Slot.accepts .constructor (d.bare handle) :=
        Record.accepts_of_slotFor? hslot (Declaration.kind_bare handle d)
      have hfor : Slot.isFor .constructor d.kind := by
        rwa [Slot.accepts_eq_isFor, Declaration.kind_bare] at haccepts
      rw [show d.kind = .constructor from of_decide_eq_true hfor] at hscope
      cases hscope
  | edited _ draft rest r r' hdrafts hrecord houtline hid hchildren htypes hrevise =>
    simp [Record.revise?] at hrevise

/-- What is declared at a place or below it, except for the type that the record there
    is, is declared in that record. -/
theorem Site.owner_below_iff {site : Site} (hplace : place ≠ []) :
    place <+: site.owner ↔ place <+: site.place ∧ site ≠ ⟨place, none⟩ := by
  obtain ⟨q, _ | i⟩ := site
  · rcases q.eq_nil_or_concat with rfl | ⟨above, slot, rfl⟩
    · simp [Site.owner, hplace]
    · rw [List.concat_eq_append, Site.owner, List.dropLast_concat, List.prefix_concat_iff]
      constructor
      · intro habove
        refine ⟨Or.inr habove, ?_⟩
        rintro ⟨rfl⟩
        simpa using habove.length_le
      · rintro ⟨rfl | habove, hne⟩
        · exact absurd rfl hne
        · exact habove
  · simp [Site.owner]

/-- A new record declares no type; it is one at most. -/
theorem Declares.outside_of_handleAt? (h : Declares place d s s') {site : Site} {k : TypeHandle}
    (hsite : s'.handleAt? site = some k) : Outside place site.owner := by
  obtain ⟨handle, id, hname, hget⟩ := h.present
  obtain ⟨r, hr, hk⟩ := Option.bind_eq_some_iff.mp hsite
  intro hbelow
  obtain ⟨⟨rest, hrest⟩, hne⟩ := (Site.owner_below_iff h.ne_nil).mp hbelow
  obtain ⟨q, position⟩ := site
  obtain rfl : place ++ rest = q := hrest
  cases rest with
  | nil =>
    rw [List.append_nil, hget] at hr
    obtain rfl := Option.some.inj hr
    rw [Record.handleAt?_withId_bare hname] at hk
    obtain ⟨rfl, -⟩ := Option.ite_none_right_eq_some.mp hk
    exact hne (by rw [List.append_nil])
  | cons slot rest =>
    rw [Record.get?_append, hget, Option.bind_some, Record.get?_cons,
      Record.child?_withId_bare] at hr
    cases hr

/-- What has been done between two sessions is seen at the place and below alone. -/
structure Hidden (place : Place) (s s' : Session) : Prop where
  views {α : Type} {f : Record → α} {q : Place} : Record.Shallow f → Outside place q →
    s'.root.view f q = s.root.view f q
  handles {site : Site} : Outside place site.owner → s'.handleAt? site = s.handleAt? site

/-- A body is hidden in the record that it is built in. -/
theorem Declares.hidden (h : Declares place d s s₁) (hinside : InsideOf (place, path) outer depth s₁)
    (hdepth : depthAfter? body depth = some depth') (hrun : s₁.run? body = some s') :
    Hidden place s₁ s' := by
  have hviews : ∀ {α : Type} {f : Record → α} {q : Place}, Record.Shallow f → Outside place q →
      s'.root.view f q = s₁.root.view f q :=
    fun hf hq => (hinside.of_body h.notConstructor hdepth hrun).2 hf hq
  refine ⟨hviews, ?_⟩
  intro site howner
  by_cases hbelow : place <+: site.place
  · -- the type that the record itself is belongs to its outline
    obtain rfl : site = ⟨place, none⟩ := by
      by_contra hne
      exact howner ((Site.owner_below_iff h.ne_nil).mpr ⟨hbelow, hne⟩)
    obtain ⟨handle, id, -, hget⟩ := h.present
    obtain ⟨r', hget', houtline⟩ := exists_outline_eq_of_run? hrun hget
    rw [handleAt?_eq_of_get? hget', handleAt?_eq_of_get? hget, Record.handleAt?,
      Record.handleAt?, houtline]
  · rw [handleAt?_eq_view, handleAt?_eq_view, hviews Record.shallow_handleAt? hbelow]

/-- Two sessions that have come of one that is in step with itself are alike outside of
    where they differ. -/
theorem Hidden.alike (hs : Hidden place s₁ s) (hu : Hidden place s₁ u)
    (hself : Alike (fun _ => True) s₁ s₁)
    (houtside : ∀ {site k}, s₁.handleAt? site = some k → Outside place site.owner) :
    Alike (Outside place) s u := by
  intro τ hτ q hq
  have hrenames : Renames (fun _ => True) τ s₁ s₁ := by
    intro site k k' _ hsite hsite'
    have howner := houtside hsite
    exact hτ howner ((hs.handles howner).trans hsite) ((hu.handles howner).trans hsite')
  rw [surfaces, surfaces, hs.views Record.shallow_surface hq, hu.views Record.shallow_surface hq]
  exact hself hrenames trivial

theorem Hidden.distinctIn (h : Hidden place s₁ s) (hdistinct : s₁.Distinct)
    (hextends : s₁.workspace.Extends s.workspace) : DistinctIn (Outside place) s where
  minted howner hsite :=
    Nat.le_trans (hdistinct.minted (h.handles howner ▸ hsite)) hextends.size_le
  unique howner howner' hsite hsite' :=
    hdistinct.unique (h.handles howner ▸ hsite) (h.handles howner' ▸ hsite')

theorem InsideOf.closed (h : InsideOf base outer 0 s) (hadvance : s.Advance .close s') :
    ∃ rest, s' = { s with drafts := rest } ∧ rest.map Draft.address = outer := by
  obtain ⟨draft, rest, hdrafts, rfl⟩ := exists_of_close hadvance
  obtain ⟨inner, haddresses, hlength, -⟩ := h
  obtain rfl := List.eq_nil_of_length_eq_zero hlength
  rw [hdrafts, List.map_cons, List.nil_append] at haddresses
  exact ⟨rest, rfl, (List.cons.inj haddresses).2⟩

/-- Where a declaration was made and closed again, nothing is open that is in it. -/
theorem Declares.sealed (h : Declares place d s s₁) (hscope : d.kind.opensScope)
    (hscoped : ∃ frames, Scoped frames s) (hrun : s₁.run? body = some u)
    (hdrafts : u.drafts.map Draft.address = s.drafts.map Draft.address) : Sealed place u := by
  constructor
  case present =>
    obtain ⟨handle, id, -, hget⟩ := h.present
    obtain ⟨r, hget', houtline⟩ := exists_outline_eq_of_run? hrun hget
    refine ⟨r, hget', ?_⟩
    rwa [Record.kind_eq_of_outline_eq houtline, Record.kind_withId, Declaration.kind_bare]
  case drafts =>
    intro draft hmem hbelow
    obtain ⟨frames, hscoped⟩ := hscoped
    obtain ⟨before, hmem', haddress⟩ := List.mem_map.mp
      (hdrafts ▸ List.mem_map_of_mem (f := Draft.address) hmem)
    -- the record was open before, and there was nothing at the place then
    obtain ⟨label, hlabel⟩ := (hscoped.drafts hmem').1
    obtain ⟨r, hget, -⟩ := exists_get?_of_labels hlabel
    rw [(Prod.mk.inj haddress).1] at hget
    obtain ⟨rest, hrest⟩ := hbelow
    rw [← hrest] at hget
    obtain ⟨above, habove⟩ := Record.exists_get?_of_append hget
    rw [h.absent] at habove
    cases habove

/-! ## 3. The same outside -/

/-- The second session has the records and frames of the first, other than those at the
    place and below it, under other identifiers and handles. -/
structure SameOutside (place : Place) (ρ : EntityId → EntityId) (τ : Nat → Nat) (s u : Session) :
    Prop where
  -- the same records with the same references
  surfaces {q : Place} : Outside place q → u.surfaces q = (s.surfaces q).map (.rename (fun i => i) τ)
  -- the same kinds and identifiers
  tags {q : Place} : Outside place q → u.tags q = (s.tags q).map (.rename ρ)
  -- the same frames with the same bindings
  frames : ∃ frames frames', Scoped frames s ∧ Scoped frames' u ∧ ∀ q, Outside place q →
    (frames' q).isSome = (frames q).isSome ∧ ∀ frame frame', frames q = some frame →
      frames' q = some frame' →
        u.workspace.bindings frame' = (s.workspace.bindings frame).map fun _ => .rename τ

/-- Records that are the same have frames that are the same. -/
theorem Under.frames_eq {frames frames' : Place → Option Nat}
    (h : Under τ region s.surfaces u.surfaces) (hs : Scoped frames s) (hu : Scoped frames' u)
    (hq : region q) : (frames' q).isSome = (frames q).isSome ∧ ∀ frame frame',
      frames q = some frame → frames' q = some frame' →
        u.workspace.bindings frame' = (s.workspace.bindings frame).map fun _ => .rename τ := by
  cases hget : s.root.get? q with
  | none =>
    have hnone' : u.root.get? q = none := by
      have hsurface := h hq
      rw [surfaces, surfaces, Record.view_eq_none_iff.mpr hget, Option.map_none] at hsurface
      exact Record.view_eq_none_iff.mp hsurface
    have hframe := hs.bound.eq_none (Record.view_eq_none_iff.mpr hget)
    have hframe' := hu.bound.eq_none (Record.view_eq_none_iff.mpr hnone')
    rw [hframe, hframe']
    exact ⟨rfl, fun _ _ hsome => by cases hsome⟩
  | some r =>
    obtain ⟨r', hget', hsurface⟩ := h.exists_get? hq hget
    have hkind : r'.kind = r.kind := by
      rw [← Record.kind_surface, hsurface, Record.kind_rename, Record.kind_surface]
    constructor
    · rw [Bool.eq_iff_iff, hu.isSome_iff hget', hs.isSome_iff hget, hkind]
    · intro frame frame' hframe hframe'
      apply Std.ExtTreeMap.ext_getElem?
      intro name
      rw [Std.ExtTreeMap.getElem?_map, hu.bound.names (labels_eq_some hget') hframe',
        hs.bound.names (labels_eq_some hget) hframe]
      exact declared?_of_surface_eq hsurface name

theorem sameOutside_of_alike {steps' : List Step} (halike : Alike (Outside place) s u)
    (hdistinct : DistinctIn (Outside place) s) (hdistinct' : DistinctIn (Outside place) u)
    (hblank : start.Blank) (hrun : start.run? steps = some s) (hrun' : start.run? steps' = some u) :
    ∃ (ρ : Equiv.Perm EntityId) (τ : Equiv.Perm Nat), SameOutside place ρ τ s u := by
  obtain ⟨τ, hτ⟩ := exists_perm_renames hdistinct hdistinct'
  obtain ⟨ρ, hρ⟩ :=
    (numbered_of_run? hblank hrun).exists_perm_ids (numbered_of_run? hblank hrun')
  obtain ⟨frames, hscoped⟩ := scoped_of_run? hblank hrun
  obtain ⟨frames', hscoped'⟩ := scoped_of_run? hblank hrun'
  have hunder := halike hτ
  refine ⟨ρ, τ, fun hq => hunder hq, fun hq => tags_eq_of_surfaces hunder hρ _ hq, ?_⟩
  exact ⟨frames, frames', hscoped, hscoped', fun q hq => hunder.frames_eq hscoped hscoped' hq⟩

theorem DistinctIn.of_run? (h : DistinctIn region s) (hnames : ∀ step ∈ steps, step.UsesNames)
    (hrun : s.run? steps = some s') : DistinctIn region s' :=
  invariant_of_run?_of_mem h
    (fun hmem hdistinct hadvance => hdistinct.of_grows (hadvance.grows (hnames _ hmem))) hrun

theorem InsideOf.of_declares {scope : Scope} (hdrafts : s'.drafts = ⟨place, scope⟩ :: s.drafts) :
    InsideOf (place, scope.modulePath) (s.drafts.map Draft.address) 0 s' :=
  ⟨[], by rw [hdrafts]; rfl, rfl, by simp⟩

/-- A body that is closed is hidden as well, and what was open before is open again. -/
theorem Declares.closed {closed : Session} (h : Declares place d s₀ s₁)
    (hdepth : depthAfter? body 0 = some 0) (hclosed : s₁.run? (body ++ [.close]) = some closed) :
    Hidden place s₁ closed ∧ closed.drafts.map Draft.address = s₀.drafts.map Draft.address := by
  obtain ⟨scope, hdrafts⟩ := h.drafts
  have hinside := InsideOf.of_declares hdrafts
  rw [run?_append] at hclosed
  obtain ⟨done, hbody, hclose⟩ := Option.bind_eq_some_iff.mp hclosed
  simp only [run?_cons, run?_nil, Option.bind_fun_some] at hclose
  have hafter := (hinside.of_body h.notConstructor hdepth hbody).1
  obtain ⟨rest, rfl, hrest⟩ := hafter.closed (advance_of_step? hclose)
  have hhidden := h.hidden hinside hdepth hbody
  exact ⟨⟨hhidden.views, hhidden.handles⟩, hrest⟩

/-- After two bodies that are closed, all that is done outside of the one can be done
    outside of the other. -/
theorem Declares.exists_run? {after : List Step} {closed closed' : Session}
    (h : Declares place d s₀ s₁) (hscope : d.kind.opensScope) (hself : InStep (fun _ => True) s₁ s₁)
    (hscoped : ∃ frames, Scoped frames s₀) (hnamed : s₁.Named)
    (hdepth : depthAfter? body 0 = some 0) (hdepth' : depthAfter? body' 0 = some 0)
    (hclosed : s₁.run? (body ++ [.close]) = some closed)
    (hclosed' : s₁.run? (body' ++ [.close]) = some closed')
    (hnames : ∀ step ∈ after, step.UsesNames) (hrun : closed.run? after = some s) :
    ∃ u, closed'.run? after = some u ∧ InStep (Outside place) s u ∧
      DistinctIn (Outside place) u := by
  obtain ⟨hhidden, hopen⟩ := h.closed hdepth hclosed
  obtain ⟨hhidden', hopen'⟩ := h.closed hdepth' hclosed'
  have hscoping : ∀ {steps s}, s₁.run? steps = some s → ∃ frames, Scoped frames s := fun hrun =>
    invariant_of_run? (I := fun s => ∃ frames, Scoped frames s) hself.scoping
      (fun ⟨_, h⟩ hadvance => h.advance hadvance) hrun
  have hstart : InStep (Outside place) closed closed' :=
    { scoping := hscoping hclosed
      scoping' := hscoping hclosed'
      surrounds := fun _ _ hq => Or.inl (outside_of_concat hq)
      surrounds' := fun _ _ hq => Or.inl (outside_of_concat hq)
      distinct := hhidden.distinctIn hself.distinct (extends_of_run? hclosed)
      drafts := hopen.trans hopen'.symm
      alike := hhidden.alike hhidden' hself.alike h.outside_of_handleAt? }
  have hroot : Outside place [] := fun hbelow => h.ne_nil (List.prefix_nil.mp hbelow)
  obtain ⟨u, hu, hinstep⟩ := hstart.run hroot (hnamed.of_run? hclosed) (hnamed.of_run? hclosed')
    (h.sealed hscope hscoped hclosed hopen) (fun hsealed hadvance => hsealed.advance hadvance)
    (fun hsealed => hsealed.drafts) hnames hrun
  have hdistinct' := hhidden'.distinctIn hself.distinct (extends_of_run? hclosed')
  exact ⟨u, hu, hinstep, hdistinct'.of_run? hnames hu⟩

/-- **What is done inside a declaration that opens a scope has no effect outside of it.**
    Two runs from nothing differ in the body of one declaration, where both still are, or
    which both have closed to go on in the same way.  Then what the one can do after the
    body the other can do as well, and outside of the declaration they come to the same
    records and frames, up to a permutation of identifiers and one of handles. -/
theorem sameOutside_of_run? {v : Session} (hblank : start.Blank)
    (hbefore : start.run? before = some s₀) (hopen : s₀.step? (.declare d) = some s₁)
    (hscope : d.kind.opensScope) (hdepth : depthAfter? body 0 = some depth)
    (hdepth' : depthAfter? body' 0 = some depth')
    (htail : tail = [] ∨ (depth = 0 ∧ depth' = 0 ∧ ∃ after, tail = .close :: after))
    (hnames : ∀ step ∈ before ++ tail, step.UsesNames)
    (hrun : s₁.run? (body ++ tail) = some s) (hrun' : s₁.run? body' = some v) :
    ∃ u, s₁.run? (body' ++ tail) = some u ∧
      ∃ (ρ : Equiv.Perm EntityId) (τ : Equiv.Perm Nat), SameOutside s₁.target ρ τ s u := by
  have h := (advance_of_step? hopen).declares hscope
  obtain ⟨hbeforeNames, htailNames⟩ := List.forall_mem_append.mp hnames
  have hopened : start.run? (before ++ [.declare d]) = some s₁ := by
    rw [run?_append, hbefore, Option.bind_some, run?_cons, hopen]
    rfl
  have hself := inStep_self hblank hopened (List.forall_mem_append.mpr
    ⟨hbeforeNames, by simp [Step.UsesNames, Step.references, Step.typeParameters]⟩)
  have hwhole : ∀ {steps s}, s₁.run? steps = some s →
      start.run? (before ++ [.declare d] ++ steps) = some s := by
    intro steps s hrun
    rw [run?_append, hopened, Option.bind_some, hrun]
  obtain ⟨scope, hdrafts⟩ := h.drafts
  have hinside := InsideOf.of_declares hdrafts
  rcases htail with rfl | ⟨rfl, rfl, after, rfl⟩
  · -- both are still in the body
    rw [List.append_nil] at hrun ⊢
    have hhidden := h.hidden hinside hdepth hrun
    have hhidden' := h.hidden hinside hdepth' hrun'
    refine ⟨v, hrun', ?_⟩
    exact sameOutside_of_alike (hhidden.alike hhidden' hself.alike h.outside_of_handleAt?)
      (hhidden.distinctIn hself.distinct (extends_of_run? hrun))
      (hhidden'.distinctIn hself.distinct (extends_of_run? hrun')) hblank (hwhole hrun)
      (hwhole hrun')
  · -- both have closed it
    obtain ⟨hclose, hafterNames⟩ := List.forall_mem_cons.mp htailNames
    have hsplit := hrun
    rw [List.append_cons, run?_append] at hsplit
    obtain ⟨closed, hclosed, hafter⟩ := Option.bind_eq_some_iff.mp hsplit
    obtain ⟨draft, rest, hdraft, -⟩ :=
      (hinside.of_body h.notConstructor hdepth' hrun').1.exists_draft
    have hclosed' : s₁.run? (body' ++ [.close]) = some { v with drafts := rest } := by
      rw [run?_append, hrun', Option.bind_some, run?_cons,
        step?_of_advance (Advance.closed draft rest hdraft)]
      rfl
    have hnamed := hblank.named.of_run? hopened
    obtain ⟨u, hu, hinstep, hdistinct'⟩ := h.exists_run? hscope hself
      (scoped_of_run? hblank hbefore) hnamed hdepth hdepth' hclosed hclosed' hafterNames hafter
    have hu' : s₁.run? (body' ++ .close :: after) = some u := by
      rw [List.append_cons, run?_append, hclosed', Option.bind_some, hu]
    exact ⟨u, hu', sameOutside_of_alike hinstep.alike hinstep.distinct hdistinct' hblank
      (hwhole hrun) (hwhole hu')⟩

/-- Of two methods, the first has a type parameter in one run and none in the other.  The
    second has one as well, and asks for that of the first, which it finds in neither run. -/
theorem sameOutside_sibling_method :
    ∃ s₀ s₁ s u, (ofProgram ∅ {}).run? [.openModule "app", .declare (.class "Box")] = some s₀ ∧
      s₀.step? (.declare (.method "map")) = some s₁ ∧
      s₁.run? [.addTypeParameters [.name "T"], .close, .declare (.method "get"),
        .addTypeParameters [.name "U"], .set .returnType (some ⟨.name "T", none⟩)] = some s ∧
      s₁.run? [.close, .declare (.method "get"), .addTypeParameters [.name "U"],
        .set .returnType (some ⟨.name "T", none⟩)] = some u ∧
      s.handleAt? ⟨[.module "app", .entry 0, .method 1], some 0⟩ = some ⟨3, "U"⟩ ∧
      u.handleAt? ⟨[.module "app", .entry 0, .method 1], some 0⟩ = some ⟨2, "U"⟩ ∧
      ∃ (ρ : Equiv.Perm EntityId) (τ : Equiv.Perm Nat),
        SameOutside [.module "app", .entry 0, .method 0] ρ τ s u := by
  obtain ⟨s₀, s₁, s, u, hbefore, hopen, hrun, hrun', htarget, hhandle, hhandle'⟩ :
      ∃ s₀ s₁ s u, (ofProgram ∅ {}).run? [.openModule "app", .declare (.class "Box")] = some s₀ ∧
      s₀.step? (.declare (.method "map")) = some s₁ ∧
      s₁.run? ([.addTypeParameters [.name "T"]] ++ [.close, .declare (.method "get"),
        .addTypeParameters [.name "U"], .set .returnType (some ⟨.name "T", none⟩)]) = some s ∧
      s₁.run? ([] ++ [.close, .declare (.method "get"), .addTypeParameters [.name "U"],
        .set .returnType (some ⟨.name "T", none⟩)]) = some u ∧
      s₁.target = [.module "app", .entry 0, .method 0] ∧
      s.handleAt? ⟨[.module "app", .entry 0, .method 1], some 0⟩ = some ⟨3, "U"⟩ ∧
      u.handleAt? ⟨[.module "app", .entry 0, .method 1], some 0⟩ = some ⟨2, "U"⟩ :=
    ⟨_, _, _, _, rfl, rfl, rfl, rfl, rfl, rfl, rfl⟩
  have hempty : s₁.run? [] = some s₁ := rfl
  obtain ⟨u', hu', hsame⟩ := sameOutside_of_run? (Or.inl ⟨∅, rfl⟩) hbefore hopen rfl rfl rfl
    (Or.inr ⟨rfl, rfl, _, rfl⟩) (by decide) hrun hempty
  obtain rfl := Option.some.inj (hrun'.symm.trans hu')
  exact ⟨s₀, s₁, s, u, hbefore, hopen, hrun, hrun', hhandle, hhandle', htarget ▸ hsame⟩

end Session

end Declarations
