/-
  Declarations/Proofs/Session/Sites.lean
  ======================================
  **Where types are declared.**

  A type is declared by a class or interface, or in the list of type parameters of a
  record.  A `Site` says which, by the place of the record, and the handle at a site
  (`Session.handleAt?`) is the identity of the type declared there.

  As long as steps are given names alone, every new site has a new handle and every
  old site keeps its own (`Advance.grows`).  So no two sites of a session built from
  nothing have handles of one identity (`Session.Distinct`).
-/
import Declarations.Proofs.Record.References
import Declarations.Proofs.Session.Containment

namespace Declarations

/-- Where a type is declared: by the class or interface at a place, or at a position
    of the list of type parameters there. -/
structure Site where
  place : Place
  position : Option Nat
deriving DecidableEq, Repr

/-- The place of the record that a type is declared in. -/
def Site.owner (site : Site) : Place :=
  match site.position with
  | none => site.place.dropLast
  | some _ => site.place

/-! ## 1. New handles -/

namespace Workspace

theorem size_minted_declareNominal (w : Workspace) (scope : Scope) (name : String) :
    (w.declareNominal scope name).2.minted.size = w.minted.size + 1 := by
  simp [declareNominal, mint, bind]

theorem minted_enter (w : Workspace) (scope : Scope) (kind : Kind) :
    (w.enter scope kind).2.minted = w.minted := by
  unfold enter
  split <;> rfl

/-- Type parameters given by name have the next handles, in order. -/
theorem declareTypeParameters_names (w : Workspace) (scope : Scope) (names : List String) :
    (w.declareTypeParameters scope (names.map .name)).1 =
        names.mapIdx (fun i name => ⟨w.minted.size + i + 1, name⟩) ∧
      (w.declareTypeParameters scope (names.map .name)).2.minted.size =
        w.minted.size + names.length := by
  induction names generalizing w with
  | nil => exact ⟨rfl, rfl⟩
  | cons name rest ih =>
    have hsize : (w.declareTypeParameter scope (.name name)).2.minted.size = w.minted.size + 1 :=
      Array.size_push _
    obtain ⟨hhandles, hminted⟩ := ih (w.declareTypeParameter scope (.name name)).2
    constructor
    · change (w.declareTypeParameter scope (.name name)).1 :: (Workspace.declareTypeParameters
        (w.declareTypeParameter scope (.name name)).2 scope (rest.map .name)).1 = _
      rw [hhandles, hsize, List.mapIdx_cons]
      simp only [Nat.add_right_comm, Nat.add_assoc]
      rfl
    · exact hminted.trans (by rw [hsize, List.length_cons, Nat.add_assoc, Nat.add_comm 1])

end Workspace

/-- Type parameters without handles are given by name. -/
theorem TypeIdentifier.exists_names {parameters : List TypeIdentifier}
    (h : ∀ parameter ∈ parameters, parameter.handle? = none) :
    ∃ names : List String, parameters = names.map .name := by
  induction parameters with
  | nil => exact ⟨[], rfl⟩
  | cons parameter rest ih =>
    obtain ⟨names, rfl⟩ := ih fun p hp => h p (List.mem_cons_of_mem _ hp)
    cases parameter with
    | name text => exact ⟨text :: names, rfl⟩
    | handle handle => exact absurd (h _ List.mem_cons_self) (by simp [handle?])

/-! ## 2. The handles that a record declares -/

namespace Record

variable {r r' : Record} {d : Declaration}

/-- The handle that a record declares by itself, or as a type parameter. -/
def handleAt? (r : Record) : Option Nat → Option TypeHandle
  | none => r.outline.handle?
  | some i => (r.typeParameters?.join.getD [])[i]?

theorem handleAt?_congr (hout : r'.outline = r.outline)
    (htypes : r'.typeParameters? = r.typeParameters?) : r'.handleAt? = r.handleAt? := by
  funext position
  cases position with
  | none => rw [handleAt?, handleAt?, hout]
  | some i => rw [handleAt?, handleAt?, htypes]

theorem handleAt?_put (r : Record) (slot : Slot) (child : Record) :
    (r.put slot child).handleAt? = r.handleAt? :=
  handleAt?_congr (outline_put r slot child) (typeParameters?_put r slot child)

theorem shallow_handleAt? : Shallow handleAt? := fun _ _ _ _ _ _ => handleAt?_put _ _ _

theorem handleAt?_withId_bare {handle : Option TypeHandle}
    (hname : d.typeName? = none → handle = none) (id : EntityId) (position : Option Nat) :
    ((d.bare handle).withId id).handleAt? position = if position = none then handle else none := by
  cases d with
  | «class» name => cases position <;> simp [handleAt?, Declaration.bare, withId, outline,
      Entry.handle?, Class.named, typeParameters?]
  | interface name => cases position <;> simp [handleAt?, Declaration.bare, withId, outline,
      Entry.handle?, Interface.named, typeParameters?]
  | _ =>
    obtain rfl := hname rfl
    cases position <;> rfl

theorem handleAt?_module (m : Module) : (Record.module m).handleAt? = fun _ => none := by
  funext position
  cases position <;> rfl

/-- The new ones of a list of type parameters, which come after the old ones. -/
def addedAt? (old : Option (List TypeHandle)) (new : List TypeHandle) :
    Option Nat → Option TypeHandle
  | none => none
  | some i => if i < (old.getD []).length then none else new[i - (old.getD []).length]?

theorem handleAt?_of_withTypeParameters? {old : Option (List TypeHandle)}
    {handles : List TypeHandle} (hold : r.typeParameters? = some old)
    (hnew : r.withTypeParameters? (appendTo old handles) = some r') (position : Option Nat) :
    r'.handleAt? position = (r.handleAt? position).or (addedAt? old handles position) := by
  obtain ⟨houtline, -, -, htypes⟩ := withTypeParameters?_keeps hnew
  cases position with
  | none => rw [handleAt?, handleAt?, houtline, addedAt?, Option.or_none]
  | some i =>
    rw [handleAt?, handleAt?, htypes, hold, Option.join_some, Option.join_some, getD_appendTo,
      List.getElem?_append, addedAt?]
    by_cases hlt : i < (old.getD []).length
    · rw [if_pos hlt, if_pos hlt, Option.or_none]
    · rw [if_neg hlt, if_neg hlt, List.getElem?_eq_none (Nat.le_of_not_lt hlt), Option.none_or]

end Record

/-! ## 3. The handles that a session declares -/

namespace Session

variable {start s s' : Session} {step : Step} {steps : List Step} {site site' : Site}
variable {h h' : TypeHandle}

/-- The handle of the type that is declared at a site. -/
def handleAt? (s : Session) (site : Site) : Option TypeHandle :=
  (s.root.get? site.place).bind (·.handleAt? site.position)

theorem handleAt?_eq_view (s : Session) (site : Site) :
    s.handleAt? site = (s.root.view Record.handleAt? site.place).bind (· site.position) := by
  rw [handleAt?, Record.view]
  cases s.root.get? site.place <;> rfl

theorem handleAt?_eq_of_get? {r : Record} (hget : s.root.get? site.place = some r) :
    s.handleAt? site = r.handleAt? site.position := by
  rw [handleAt?, hget, Option.bind_some]

/-- From one session to another, new types are declared under new handles, and the
    old ones stay. -/
structure Grows (s s' : Session) : Prop where
  size_le : s.workspace.minted.size ≤ s'.workspace.minted.size
  kept {site : Site} {h : TypeHandle} : s.handleAt? site = some h → s'.handleAt? site = some h
  fresh {site : Site} {h : TypeHandle} : s'.handleAt? site = some h → s.handleAt? site = none →
    s.workspace.minted.size < h.id ∧ h.id ≤ s'.workspace.minted.size
  apart {site site' : Site} {h h' : TypeHandle} : s'.handleAt? site = some h →
    s.handleAt? site = none → s'.handleAt? site' = some h' → s.handleAt? site' = none →
    h.id = h'.id → site = site'

theorem Grows.of_or {new : Site → Option TypeHandle}
    (hor : ∀ site, s'.handleAt? site = (s.handleAt? site).or (new site))
    (hsize : s.workspace.minted.size ≤ s'.workspace.minted.size)
    (hfresh : ∀ site h, new site = some h →
      s.workspace.minted.size < h.id ∧ h.id ≤ s'.workspace.minted.size)
    (hapart : ∀ site site' h h', new site = some h → new site' = some h' → h.id = h'.id →
      site = site') : s.Grows s' := by
  have hnew : ∀ {site h}, s'.handleAt? site = some h → s.handleAt? site = none →
      new site = some h := by
    intro site h hafter hbefore
    rwa [hor, hbefore, Option.none_or] at hafter
  constructor
  case size_le => exact hsize
  case kept =>
    intro site h hbefore
    rw [hor, hbefore, Option.some_or]
  case fresh => exact fun hafter hbefore => hfresh _ _ (hnew hafter hbefore)
  case apart =>
    intro site site' h h' hafter hbefore hafter' hbefore'
    exact hapart _ _ _ _ (hnew hafter hbefore) (hnew hafter' hbefore')

theorem Grows.of_eq (heq : s'.handleAt? = s.handleAt?)
    (hsize : s.workspace.minted.size ≤ s'.workspace.minted.size) : s.Grows s' := by
  have hor : ∀ site, s'.handleAt? site = (s.handleAt? site).or none := by
    intro site
    rw [heq, Option.or_none]
  exact Grows.of_or hor hsize (by simp) (by simp)

theorem handleAt?_eq_of_view_eq
    (hview : s'.root.view Record.handleAt? = s.root.view Record.handleAt?) :
    s'.handleAt? = s.handleAt? := by
  funext site
  rw [handleAt?_eq_view, handleAt?_eq_view, hview]

/-! ### One step -/

/-- A declaration mints a handle exactly if it declares a type. -/
theorem declareType_eq (s : Session) (scope : Scope) (d : Declaration) :
    s.declareType scope d =
      (d.typeName?.map fun name =>
        ⟨s.workspace.minted.size + 1, scope.modulePath ++ "::" ++ name⟩,
      { s with workspace := d.typeName?.elim s.workspace fun name =>
          (s.workspace.declareNominal scope name).2 }) := by
  unfold declareType
  cases d.typeName? <;> rfl

theorem handleAt?_childDeclared {place : Place} {owner : Record} {slot : Slot} {d : Declaration}
    {handle : Option TypeHandle} {id : EntityId} (howner : s.root.get? place = some owner)
    (hslot : owner.slotFor? d = some slot) (hempty : owner.child? slot = none)
    (hname : d.typeName? = none → handle = none)
    (hroot : s'.root = s.root.replace place (owner.put slot ((d.bare handle).withId id)))
    (site : Site) :
    s'.handleAt? site = (s.handleAt? site).or
      (if site = ⟨place ++ [slot], none⟩ then handle else none) := by
  have hnone : s.root.view Record.handleAt? (place ++ [slot]) = none := by
    rw [Record.view_eq_none_iff, Record.get?_concat howner, hempty]
  have hview := Record.view_replace_put Record.shallow_handleAt? howner
    (Record.hasSlot_of_slotFor? hslot) hempty
    (Record.accepts_of_slotFor? hslot (by simp)) (Record.child?_withId_bare d handle id)
  rw [Record.handleAt?_put, Record.update_view_self _ howner] at hview
  obtain ⟨q, position⟩ := site
  rw [handleAt?_eq_view, handleAt?_eq_view, hroot, hview, Function.update_apply]
  dsimp only
  by_cases hq : q = place ++ [slot]
  · subst hq
    rw [if_pos rfl, hnone, Option.bind_some, Option.bind_none, Option.none_or,
      Record.handleAt?_withId_bare hname]
    simp
  · rw [if_neg hq, if_neg (by simp [hq]), Option.or_none]

theorem handleAt?_typeParametersAdded {place : Place} {r r' : Record}
    {old : Option (List TypeHandle)} {handles : List TypeHandle}
    (hrecord : s.root.get? place = some r) (hold : r.typeParameters? = some old)
    (hnew : r.withTypeParameters? (appendTo old handles) = some r')
    (hroot : s'.root = s.root.replace place r') (site : Site) :
    s'.handleAt? site = (s.handleAt? site).or
      (if site.place = place then Record.addedAt? old handles site.position else none) := by
  obtain ⟨houtline, -, hchildren, -⟩ := Record.withTypeParameters?_keeps hnew
  have hview := Record.view_replace_edited Record.shallow_handleAt? hrecord houtline hchildren
  rw [handleAt?_eq_view, hroot, hview, Function.update_apply]
  by_cases hplace : site.place = place
  · rw [if_pos hplace, if_pos hplace, Option.bind_some,
      Record.handleAt?_of_withTypeParameters? hold hnew]
    congr 1
    rw [handleAt?, hplace, hrecord, Option.bind_some]
  · rw [if_neg hplace, if_neg hplace, Option.or_none, handleAt?_eq_view]

theorem handleAt?_moduleOpened {p : Program} {path : String} {m : Module} {id : EntityId}
    (hmodule : m = p.modules[path]?.getD (.atPath path)) (hroot : s.root = .program p)
    (hroot' : s'.root = .program { p with modules := p.modules.insert path { m with id } }) :
    s'.handleAt? = s.handleAt? := by
  have hprogram : (Record.program { p with modules := p.modules.insert path { m with id } }
      ).handleAt? = (Record.program p).handleAt? := by
    funext position
    cases position <;> rfl
  funext site
  rw [handleAt?_eq_view, hroot', Record.view_insertModule Record.shallow_handleAt? p path m hmodule,
    hprogram, Record.update_view_self _ (Record.get?_nil (.program p)), Function.update_apply]
  by_cases hplace : site.place = [.module path]
  · -- a module declares nothing under a handle of its own
    have hbefore : s.handleAt? site = none := by
      rw [handleAt?, hplace, Option.bind_eq_none_iff]
      intro r hget
      rw [hroot] at hget
      rw [Record.eq_module_of_get? hmodule hget, Record.handleAt?_module]
    rw [if_pos hplace, hbefore, Option.bind_some, Record.handleAt?_module]
  · rw [if_neg hplace, handleAt?_eq_view, hroot]

theorem Grows.of_childDeclared {place : Place} {owner : Record} {slot : Slot} {d : Declaration}
    {scope scope' : Scope} {handle : Option TypeHandle} {declared : Workspace} {id : EntityId}
    (howner : s.root.get? place = some owner) (hslot : owner.slotFor? d = some slot)
    (hempty : owner.child? slot = none)
    (hdeclared : s.declareType scope d = (handle, { s with workspace := declared }))
    (henter : declared.enter scope d.kind = (scope', s'.workspace))
    (hroot : s'.root = s.root.replace place (owner.put slot ((d.bare handle).withId id))) :
    s.Grows s' := by
  rw [declareType_eq] at hdeclared
  obtain ⟨rfl, hsession⟩ := Prod.mk.inj hdeclared
  have hworkspace := congrArg Session.workspace hsession
  have hminted : s'.workspace.minted = declared.minted := by
    rw [← Workspace.minted_enter declared scope d.kind, henter]
  have hsites := handleAt?_childDeclared howner hslot hempty (by simp +contextual) hroot
  cases hname : d.typeName? with
  | none =>
    rw [hname] at hsites hworkspace
    obtain rfl : s.workspace = declared := hworkspace
    refine Grows.of_eq (funext fun site => ?_) (Nat.le_of_eq (congrArg Array.size hminted.symm))
    rw [hsites]
    simp
  | some name =>
    rw [hname] at hsites hworkspace
    obtain rfl : (s.workspace.declareNominal scope name).2 = declared := hworkspace
    have hsize : s'.workspace.minted.size = s.workspace.minted.size + 1 := by
      rw [hminted, Workspace.size_minted_declareNominal]
    apply Grows.of_or hsites
    case hsize => omega
    case hfresh =>
      intro site h hnew
      obtain ⟨-, hnew⟩ := Option.ite_none_right_eq_some.mp hnew
      obtain rfl := Option.some.inj hnew
      dsimp only
      omega
    case hapart =>
      intro site site' h h' hnew hnew' _
      exact (Option.ite_none_right_eq_some.mp hnew).1.trans
        (Option.ite_none_right_eq_some.mp hnew').1.symm

theorem Grows.of_typeParametersAdded {place : Place} {r r' : Record} {scope : Scope}
    {old : Option (List TypeHandle)} {handles : List TypeHandle} {parameters : List TypeIdentifier}
    (hparameters : ∀ parameter ∈ parameters, parameter.handle? = none)
    (hrecord : s.root.get? place = some r) (hold : r.typeParameters? = some old)
    (hdeclared : s.workspace.declareTypeParameters scope parameters = (handles, s'.workspace))
    (hnew : r.withTypeParameters? (appendTo old handles) = some r')
    (hroot : s'.root = s.root.replace place r') : s.Grows s' := by
  obtain ⟨names, rfl⟩ := TypeIdentifier.exists_names hparameters
  obtain ⟨hhandles, hsize⟩ := Workspace.declareTypeParameters_names s.workspace scope names
  rw [hdeclared] at hhandles hsize
  dsimp only at hhandles hsize
  -- the handle at a new site tells the position
  have hposition : ∀ {site : Site} {h : TypeHandle},
      (if site.place = place then Record.addedAt? old handles site.position else none) = some h →
      ∃ i < names.length, h.id = s.workspace.minted.size + i + 1 ∧
        site = ⟨place, some ((old.getD []).length + i)⟩ := by
    rintro ⟨q, _ | i⟩ h hsite <;>
      obtain ⟨rfl, hadded⟩ := Option.ite_none_right_eq_some.mp hsite
    · cases hadded
    obtain ⟨hle, hi⟩ := Option.ite_none_left_eq_some.mp hadded
    rw [hhandles, List.getElem?_mapIdx, Option.map_eq_some_iff] at hi
    obtain ⟨name, hi, rfl⟩ := hi
    refine ⟨_, (List.getElem?_eq_some_iff.mp hi).1, rfl, ?_⟩
    rw [Nat.add_sub_cancel' (Nat.le_of_not_lt hle)]
  apply Grows.of_or (handleAt?_typeParametersAdded hrecord hold hnew hroot)
  case hsize => omega
  case hfresh =>
    intro site h hsite
    obtain ⟨i, hi, hid, -⟩ := hposition hsite
    omega
  case hapart =>
    intro site site' h h' hsite hsite' hid
    obtain ⟨i, -, hi, rfl⟩ := hposition hsite
    obtain ⟨j, -, hj, rfl⟩ := hposition hsite'
    obtain rfl : i = j := by omega
    rfl

/-- **A step that is given names declares types under new handles.** -/
theorem Advance.grows (hnames : step.UsesNames) (hadvance : s.Advance step s') : s.Grows s' := by
  cases hadvance with
  | moduleOpened p path m id lineage scope workspace hdrafts hroot hmodule hregister hscope =>
    apply Grows.of_eq (handleAt?_moduleOpened hmodule hroot rfl)
    rcases hscope with ⟨-, rfl⟩ | ⟨-, hnew⟩
    · exact Nat.le_refl _
    · obtain ⟨-, rfl⟩ := Prod.mk.inj hnew
      exact Nat.le_refl _
  | childReopened => exact Grows.of_eq rfl (Nat.le_refl _)
  | childDeclared draft rest d owner slot handle declared scope workspace hdrafts howner hslot
      hempty hdeclared henter =>
    exact Grows.of_childDeclared howner hslot hempty hdeclared henter rfl
  | closed => exact Grows.of_eq rfl (Nat.le_refl _)
  | typeParametersAdded draft rest r r' old parameters handles workspace hdrafts hrecord hold
      hdeclared hnew =>
    exact Grows.of_typeParametersAdded hnames.2 hrecord hold hdeclared hnew rfl
  | unchanged => exact Grows.of_eq rfl (Nat.le_refl _)
  | edited _ draft rest r r' hdrafts hrecord houtline hid hchildren htypes =>
    refine Grows.of_eq (handleAt?_eq_of_view_eq ?_) (Nat.le_refl _)
    rw [Record.view_replace_edited Record.shallow_handleAt? hrecord houtline hchildren,
      Record.handleAt?_congr houtline htypes, Record.update_view_self _ hrecord]

/-! ### Runs -/

/-- No two sites in a region have handles of one identity. -/
structure DistinctIn (region : Place → Prop) (s : Session) : Prop where
  minted {site : Site} {h : TypeHandle} : region site.owner → s.handleAt? site = some h →
    h.id ≤ s.workspace.minted.size
  unique {site site' : Site} {h h' : TypeHandle} : region site.owner → region site'.owner →
    s.handleAt? site = some h → s.handleAt? site' = some h' → h.id = h'.id → site = site'

theorem DistinctIn.of_grows {region : Place → Prop} (hdistinct : DistinctIn region s)
    (hgrows : s.Grows s') : DistinctIn region s' := by
  -- what is declared was declared before, or has a new handle
  have hcases : ∀ {site h}, region site.owner → s'.handleAt? site = some h →
      (s.handleAt? site = some h ∧ h.id ≤ s.workspace.minted.size) ∨
        (s.handleAt? site = none ∧ s.workspace.minted.size < h.id) := by
    intro site h hregion hafter
    cases hbefore : s.handleAt? site with
    | none => exact Or.inr ⟨rfl, (hgrows.fresh hafter hbefore).1⟩
    | some old =>
      obtain rfl := Option.some.inj ((hgrows.kept hbefore).symm.trans hafter)
      exact Or.inl ⟨rfl, hdistinct.minted hregion hbefore⟩
  constructor
  case minted =>
    intro site h hregion hafter
    cases hbefore : s.handleAt? site with
    | none => exact (hgrows.fresh hafter hbefore).2
    | some old =>
      obtain rfl := Option.some.inj ((hgrows.kept hbefore).symm.trans hafter)
      exact Nat.le_trans (hdistinct.minted hregion hbefore) hgrows.size_le
  case unique =>
    intro site site' h h' hregion hregion' hafter hafter' hid
    rcases hcases hregion hafter with ⟨hold, hle⟩ | ⟨hnew, hlt⟩ <;>
      rcases hcases hregion' hafter' with ⟨hold', hle'⟩ | ⟨hnew', hlt'⟩
    · exact hdistinct.unique hregion hregion' hold hold' hid
    · omega
    · omega
    · exact hgrows.apart hafter hnew hafter' hnew' hid

/-- No two sites have handles of one identity. -/
def Distinct (s : Session) : Prop := DistinctIn (fun _ => True) s

theorem Distinct.minted (hdistinct : s.Distinct) (hsite : s.handleAt? site = some h) :
    h.id ≤ s.workspace.minted.size := DistinctIn.minted hdistinct trivial hsite

theorem Distinct.unique (hdistinct : s.Distinct) (hsite : s.handleAt? site = some h)
    (hsite' : s.handleAt? site' = some h') (hid : h.id = h'.id) : site = site' :=
  DistinctIn.unique hdistinct trivial trivial hsite hsite' hid

theorem Distinct.of_grows (hdistinct : s.Distinct) (hgrows : s.Grows s') : s'.Distinct :=
  DistinctIn.of_grows hdistinct hgrows

theorem Distinct.distinctIn (hdistinct : s.Distinct) (region : Place → Prop) :
    DistinctIn region s where
  minted _ hsite := hdistinct.minted hsite
  unique _ _ hsite hsite' hid := hdistinct.unique hsite hsite' hid

theorem Blank.get?_eq_none (hblank : start.Blank) {place : Place} (hplace : place ≠ []) :
    start.root.get? place = none :=
  Record.view_eq_none_iff.mp (hblank.tags_eq_none hplace)

theorem Blank.place_eq_nil (hblank : start.Blank) {place : Place} {r : Record}
    (hget : start.root.get? place = some r) : place = [] := by
  by_contra hplace
  rw [hblank.get?_eq_none hplace] at hget
  cases hget

theorem Blank.handleAt?_eq_none (hblank : start.Blank) (site : Site) :
    start.handleAt? site = none := by
  rw [handleAt?, Option.bind_eq_none_iff]
  intro r hget
  rw [hblank.place_eq_nil hget] at hget
  obtain rfl := Option.some.inj hget
  rcases hblank with ⟨w, rfl⟩ | ⟨w, path, rfl⟩ <;> cases site.position <;> rfl

theorem Blank.distinct (hblank : start.Blank) : start.Distinct where
  minted _ hsite := by simp [hblank.handleAt?_eq_none] at hsite
  unique _ _ hsite := by simp [hblank.handleAt?_eq_none] at hsite

/-- **No two types declared by a run that is given names have one identity.** -/
theorem distinct_of_run? (hblank : start.Blank) (hrun : start.run? steps = some s)
    (hnames : ∀ step ∈ steps, step.UsesNames) : s.Distinct :=
  invariant_of_run?_of_mem hblank.distinct
    (fun hmem hdistinct hadvance => hdistinct.of_grows (hadvance.grows (hnames _ hmem))) hrun

end Session

end Declarations
