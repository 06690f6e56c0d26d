/-
  Declarations/Proofs/Session/Lockstep.lean
  =========================================
  **Two sessions that take the same steps.**

  Two sessions can build the same records under other numbers, because something
  else was built before or in between.  They are compared in a region of places, by
  the surfaces of the records there, and a handle of the one corresponds to the
  handle of the other that is declared at the same site.  Sessions are alike in a
  region if every renaming that respects this turns the one's surfaces into the
  other's (`Session.Alike`).

  What a name means in a region that surrounds its places depends on the surfaces in
  it (`Under.meaning?_eq`).  So two sessions that are alike and open at the same
  places can take the same steps there, and are alike afterwards
  (`InStep.advance`).
-/
import Declarations.Proofs.Record.Renaming
import Declarations.Proofs.Session.Integrity
import Mathlib.Logic.Equiv.Fintype

namespace Declarations

/-- Where an open record stands, and under which path the types in it are shown. -/
def Draft.address (draft : Draft) : Place × String := (draft.place, draft.scope.modulePath)

theorem Workspace.modulePath_enter (w : Workspace) (scope : Scope) (kind : Kind) :
    (w.enter scope kind).1.modulePath = scope.modulePath := by
  unfold enter
  split <;> rfl

namespace Record

variable {r owner : Record} {d : Declaration} {slot : Slot}

theorem exists_withTypeParameters? {old : Option (List TypeHandle)}
    (h : r.typeParameters? = some old) (handles : Option (List TypeHandle)) :
    ∃ r', r.withTypeParameters? handles = some r' := by
  rcases r with _ | _ | e | _ | _ | _ | _
  case entry => cases e <;> first | exact ⟨_, rfl⟩ | cases h
  case method => exact ⟨_, rfl⟩
  all_goals cases h

theorem handleAt?_surface (r : Record) : r.surface.handleAt? = r.handleAt? :=
  handleAt?_congr (outline_surface r) (typeParameters?_surface r)

theorem handleAt?_rename {ρ : EntityId → EntityId} {τ : Nat → Nat} (r : Record)
    (position : Option Nat) :
    (r.rename ρ τ).handleAt? position = (r.handleAt? position).map (.rename τ) := by
  cases position with
  | none =>
    rcases r with _ | _ | e | _ | _ | _ | _
    case entry => cases e <;> rfl
    all_goals rfl
  | some i =>
    rw [handleAt?, handleAt?, typeParameters?_rename]
    rcases r.typeParameters? with _ | _ | handles
    · rfl
    · rfl
    · exact List.getElem?_map

theorem kind_ne_program_of_slotFor? (h : owner.slotFor? d = some slot) : owner.kind ≠ .program := by
  intro hkind
  rcases owner with _ | _ | e | _ | _ | _ | _
  case program => cases h
  case entry => cases e <;> cases hkind
  all_goals cases hkind

end Record

namespace Session

variable {region : Place → Prop} {τ : Nat → Nat} {s s' u u' : Session} {step : Step}
variable {place q : Place} {r : Record} {name : String} {draft draft' : Draft}
variable {rest rest' : List Draft}

/-! ## 1. Corresponding handles -/

/-- The renaming gives every handle that one session declares in the region the number
    of the handle that the other has at the same site. -/
def Renames (region : Place → Prop) (τ : Nat → Nat) (s u : Session) : Prop :=
  ∀ ⦃site h h'⦄, region site.owner → s.handleAt? site = some h → u.handleAt? site = some h' →
    τ h.id = h'.id

theorem Renames.of_grows (hτ : Renames region τ s' u') (hs : s.Grows s') (hu : u.Grows u') :
    Renames region τ s u :=
  fun _ _ _ hregion hsite hsite' => hτ hregion (hs.kept hsite) (hu.kept hsite')

theorem Renames.of_subset {region' : Place → Prop} (hτ : Renames region' τ s u)
    (hsubset : ∀ q, region q → region' q) : Renames region τ s u :=
  fun _ _ _ hregion hsite hsite' => hτ (hsubset _ hregion) hsite hsite'

theorem exists_renames (hdistinct : DistinctIn region s) (u : Session) :
    ∃ τ, Renames region τ s u := by
  have hnumber : ∀ n, ∃ m, ∀ site h h', region site.owner → s.handleAt? site = some h →
      u.handleAt? site = some h' → h.id = n → m = h'.id := by
    intro n
    by_cases hn : ∃ site h h', region site.owner ∧ s.handleAt? site = some h ∧
      u.handleAt? site = some h' ∧ h.id = n
    · obtain ⟨site, h, h', hregion, hsite, hsite', rfl⟩ := hn
      refine ⟨h'.id, fun other k k' hregion' hother hother' hid => ?_⟩
      obtain rfl := hdistinct.unique hregion' hregion hother hsite hid
      rw [Option.some.inj (hsite'.symm.trans hother')]
    · exact ⟨0, fun site h h' hregion hsite hsite' hid =>
        absurd ⟨site, h, h', hregion, hsite, hsite', hid⟩ hn⟩
  choose τ hτ using hnumber
  exact ⟨τ, fun site h h' hregion hsite hsite' => hτ _ site h h' hregion hsite hsite' rfl⟩

/-- If both sessions have distinct handles, some permutation is such a renaming. -/
theorem exists_perm_renames (hs : DistinctIn region s) (hu : DistinctIn region u) :
    ∃ τ : Equiv.Perm Nat, Renames region τ s u := by
  obtain ⟨τ, hτ⟩ := exists_renames hs u
  let shared := { n : Nat // ∃ site h h', region site.owner ∧ s.handleAt? site = some h ∧
    u.handleAt? site = some h' ∧ h.id = n }
  have hfinite : Finite shared := by
    refine Finite.of_injective (β := Fin (s.workspace.minted.size + 1))
      (fun n => ⟨n.1, ?_⟩) fun n m hnm => Subtype.ext (Fin.mk.inj hnm)
    obtain ⟨site, h, h', hregion, hsite, -, hid⟩ := n.2
    exact Nat.lt_succ_of_le (hid ▸ hs.minted hregion hsite)
  have hinjective : Function.Injective fun n : shared => τ n.1 := by
    rintro ⟨n, site, h, h', hregion, hsite, hsite', rfl⟩
      ⟨m, other, k, k', hregion', hother, hother', rfl⟩ hnm
    have hid : h'.id = k'.id := by
      rw [← hτ hregion hsite hsite', ← hτ hregion' hother hother']
      exact hnm
    obtain rfl := hu.unique hregion hregion' hsite' hother' hid
    obtain rfl := Option.some.inj (hsite.symm.trans hother)
    rfl
  obtain ⟨π, hπ⟩ := Equiv.Perm.exists_extending_pair (fun n : shared => n.1) (fun n => τ n.1)
    Subtype.val_injective hinjective
  refine ⟨π, fun site h h' hregion hsite hsite' => ?_⟩
  rw [← hτ hregion hsite hsite']
  exact hπ ⟨h.id, site, h, h', hregion, hsite, hsite', rfl⟩

/-! ## 2. Corresponding surfaces -/

/-- The surfaces of the records at all places. -/
abbrev Surfaces := Place → Option Record

def surfaces (s : Session) : Surfaces := s.root.view Record.surface

theorem surfaces_eq_some (h : s.root.get? place = some r) : s.surfaces place = some r.surface :=
  Record.view_eq_some_iff.mpr ⟨r, h, rfl⟩

/-- In the region, the renaming turns the first surfaces into the second. -/
def Under (τ : Nat → Nat) (region : Place → Prop) (f g : Surfaces) : Prop :=
  ∀ ⦃q⦄, region q → g q = (f q).map (.rename (fun i => i) τ)

/-- The sessions have the same records in the region, up to the numbers of handles. -/
def Alike (region : Place → Prop) (s u : Session) : Prop :=
  ∀ ⦃τ⦄, Renames region τ s u → Under τ region s.surfaces u.surfaces

/-- With a place, the region has all around it that can declare a type. -/
def Surrounds (region : Place → Prop) (s : Session) : Prop :=
  ∀ ⦃q slot⦄, region (q ++ [slot]) → region q ∨ (q = [] ∧ s.root.kind = .program)

namespace Under

variable {f g : Surfaces} {x y : Record}

theorem update (h : Under τ region f g) (hxy : y = x.rename (fun i => i) τ) (place : Place) :
    Under τ region (Function.update f place (some x)) (Function.update g place (some y)) := by
  intro q hq
  rw [Function.update_apply, Function.update_apply]
  split
  · rw [hxy, Option.map_some]
  · exact h hq

theorem exists_get? (h : Under τ region s.surfaces u.surfaces) (hq : region q)
    (hget : s.root.get? q = some r) :
    ∃ r', u.root.get? q = some r' ∧ r'.surface = r.surface.rename (fun i => i) τ := by
  have hsurface := h hq
  rw [surfaces_eq_some hget, Option.map_some] at hsurface
  exact Record.view_eq_some_iff.mp hsurface

theorem exists_get?_source {r' : Record} (h : Under τ region s.surfaces u.surfaces)
    (hq : region q) (hget : u.root.get? q = some r') :
    ∃ r, s.root.get? q = some r ∧ r'.surface = r.surface.rename (fun i => i) τ := by
  have hsurface := h hq
  rw [surfaces_eq_some hget] at hsurface
  obtain ⟨x, hx, heq⟩ := Option.map_eq_some_iff.mp hsurface.symm
  obtain ⟨r, hget, rfl⟩ := Record.view_eq_some_iff.mp hx
  exact ⟨r, hget, heq.symm⟩

end Under

theorem declared?_of_surface_eq {r r' : Record}
    (hsurface : r'.surface = r.surface.rename (fun i => i) τ) (name : String) :
    r'.declared? name = (r.declared? name).map (.rename τ) := by
  rw [← Record.declared?_surface, hsurface, Record.declared?_rename, Record.declared?_surface]

theorem meaning?_concat {slot : Slot} (hget : s.root.get? (q ++ [slot]) = some r) :
    s.meaning? (q ++ [slot]) name = (r.declared? name).or (s.meaning? q name) := by
  obtain ⟨owner, howner⟩ := Record.exists_get?_of_append hget
  rw [meaning?, meaning?, hget, howner, Record.enclosing_concat howner]
  simp only [Option.toList_some, List.singleton_append, List.findSome?_cons]
  cases r.declared? name <;> rfl

theorem meaning?_nil (s : Session) (name : String) : s.meaning? [] name = s.root.declared? name := by
  rw [meaning?, Record.get?_nil, Record.enclosing]
  simp only [Option.toList_some, List.append_nil, List.findSome?_singleton]

/-- What a name means in the region is renamed as the surfaces are. -/
theorem Under.meaning?_eq (h : Under τ region s.surfaces u.surfaces) (hs : Surrounds region s)
    (hu : Surrounds region u) (hplace : region place) (hget : s.root.get? place = some r) :
    u.meaning? place name = (s.meaning? place name).map (.rename τ) := by
  induction place using List.reverseRecOn generalizing r with
  | nil =>
    obtain ⟨r', hget', hsurface⟩ := h.exists_get? hplace hget
    obtain rfl := Option.some.inj hget
    obtain rfl := Option.some.inj hget'
    rw [meaning?_nil, meaning?_nil, declared?_of_surface_eq hsurface]
  | append_singleton q slot ih =>
    obtain ⟨r', hget', hsurface⟩ := h.exists_get? hplace hget
    obtain ⟨owner, howner⟩ := Record.exists_get?_of_append hget
    have houter : u.meaning? q name = (s.meaning? q name).map (.rename τ) := by
      rcases hs hplace with hq | ⟨hnil, hprogram⟩
      · exact ih hq howner
      rcases hu hplace with hq | ⟨-, hprogram'⟩
      · exact ih hq howner
      -- a program declares nothing
      have hnone : ∀ s : Session, s.root.kind = .program → s.meaning? q name = none := by
        intro s hkind
        rw [hnil, meaning?_nil]
        exact Record.declared?_eq_none (by simp [hkind]) (by simp [hkind, Kind.opensScope])
      rw [hnone u hprogram', hnone s hprogram, Option.map_none]
    rw [meaning?_concat hget, meaning?_concat hget', houter, declared?_of_surface_eq hsurface]
    cases r.declared? name <;> rfl

/-! ## 3. New handles -/

/-- Type parameters that are given by name correspond if their numbers do. -/
theorem declareTypeParameters_rename {w w' : Workspace} {scope scope' : Scope}
    {parameters : List TypeIdentifier} {handles handles' : List TypeHandle} {v v' : Workspace}
    (hnames : ∀ parameter ∈ parameters, parameter.handle? = none)
    (hdeclared : w.declareTypeParameters scope parameters = (handles, v))
    (hdeclared' : w'.declareTypeParameters scope' parameters = (handles', v'))
    (hτ : ∀ (i : Nat) (h h' : TypeHandle), handles[i]? = some h → handles'[i]? = some h' →
      τ h.id = h'.id) :
    handles' = handles.map (.rename τ) := by
  obtain ⟨names, rfl⟩ := TypeIdentifier.exists_names hnames
  have hhandles := (Workspace.declareTypeParameters_names w scope names).1
  have hhandles' := (Workspace.declareTypeParameters_names w' scope' names).1
  rw [hdeclared] at hhandles
  rw [hdeclared'] at hhandles'
  apply List.ext_getElem?
  intro i
  have hi := congrArg (·[i]?) hhandles
  have hi' := congrArg (·[i]?) hhandles'
  dsimp only at hi hi'
  rw [List.getElem?_mapIdx] at hi hi'
  rw [List.getElem?_map, hi', hi]
  cases hname : names[i]? with
  | none => rfl
  | some name =>
    rw [hname, Option.map_some] at hi hi'
    simp only [Option.map_some, Option.some.injEq, TypeHandle.rename, TypeHandle.mk.injEq, and_true]
    exact (hτ i _ _ hi hi').symm

/-- The handles of a type that is declared in both sessions correspond if their numbers
    do, since they are shown under the same path. -/
theorem declareType_rename {scope scope' : Scope} {d : Declaration}
    {handle handle' : Option TypeHandle} (hdeclared : s.declareType scope d = (handle, s'))
    (hdeclared' : u.declareType scope' d = (handle', u'))
    (hpath : scope'.modulePath = scope.modulePath)
    (hτ : ∀ h h', handle = some h → handle' = some h' → τ h.id = h'.id) :
    handle' = handle.map (.rename τ) := by
  have hshown := (Prod.mk.inj (hdeclared.symm.trans (declareType_eq s scope d))).1
  have hshown' := (Prod.mk.inj (hdeclared'.symm.trans (declareType_eq u scope' d))).1
  cases hname : d.typeName? with
  | none => rw [hshown, hshown', hname, Option.map_none, Option.map_none, Option.map_none]
  | some name =>
    rw [hname, Option.map_some] at hshown hshown'
    have hid := hτ _ _ hshown hshown'
    rw [hshown, hshown', Option.map_some, TypeHandle.rename, hid, hpath]

theorem handleAt?_added {r r' : Record} {old : Option (List TypeHandle)}
    {handles : List TypeHandle} (hrecord : s.root.get? place = some r)
    (hold : r.typeParameters? = some old)
    (hnew : r.withTypeParameters? (appendTo old handles) = some r')
    (hroot : s'.root = s.root.replace place r') (i : Nat) :
    s'.handleAt? ⟨place, some ((old.getD []).length + i)⟩ = handles[i]? := by
  have hbefore : s.handleAt? ⟨place, some ((old.getD []).length + i)⟩ = none := by
    rw [handleAt?_eq_of_get? hrecord, Record.handleAt?, hold, Option.join_some]
    exact List.getElem?_eq_none (Nat.le_add_right _ i)
  rw [handleAt?_typeParametersAdded hrecord hold hnew hroot, hbefore, if_pos rfl, Option.none_or,
    Record.addedAt?, if_neg (Nat.not_lt.mpr (Nat.le_add_right _ i)), Nat.add_sub_cancel_left]

section ChildDeclared

variable {owner : Record} {slot : Slot} {d : Declaration} {handle : Option TypeHandle}
variable {id : EntityId} {scope : Scope} {declared : Session}

theorem handleAt?_new (howner : s.root.get? place = some owner)
    (hslot : owner.slotFor? d = some slot) (hempty : owner.child? slot = none)
    (hdeclared : s.declareType scope d = (handle, declared))
    (hroot : s'.root = s.root.replace place (owner.put slot ((d.bare handle).withId id))) :
    s'.handleAt? ⟨place ++ [slot], none⟩ = handle := by
  have hbefore : s.handleAt? ⟨place ++ [slot], none⟩ = none := by
    rw [handleAt?, Record.get?_concat howner, hempty, Option.bind_none]
  have hname : d.typeName? = none → handle = none := by
    intro hname
    rw [declareType_eq, hname] at hdeclared
    exact (Prod.mk.inj hdeclared).1.symm
  rw [handleAt?_childDeclared howner hslot hempty hname hroot, hbefore, if_pos rfl, Option.none_or]

theorem surfaces_childDeclared (howner : s.root.get? place = some owner)
    (hslot : owner.slotFor? d = some slot) (hempty : owner.child? slot = none)
    (hroot : s'.root = s.root.replace place (owner.put slot ((d.bare handle).withId id))) :
    s'.surfaces = Function.update
      (Function.update s.surfaces place (some (owner.surface.put slot (d.bare handle).blank)))
      (place ++ [slot]) (some (d.bare handle)) := by
  rw [surfaces, hroot, Record.view_replace_put Record.shallow_surface howner
      (Record.hasSlot_of_slotFor? hslot) hempty (Record.accepts_of_slotFor? hslot (by simp))
      (Record.child?_withId_bare d handle id),
    Record.surface_put, Record.blank_withId, Record.surface_withId_bare]
  rfl

end ChildDeclared

/-! ## 4. One step in both sessions -/

/-- Two sessions that are open at the same places and alike in a region. -/
structure InStep (region : Place → Prop) (s u : Session) : Prop where
  scoping : ∃ frames, Scoped frames s
  scoping' : ∃ frames, Scoped frames u
  surrounds : Surrounds region s
  surrounds' : Surrounds region u
  distinct : DistinctIn region s
  drafts : s.drafts.map Draft.address = u.drafts.map Draft.address
  alike : Alike region s u

namespace InStep

theorem exists_draft (h : InStep region s u) (hdrafts : s.drafts = draft :: rest) :
    ∃ draft' rest', u.drafts = draft' :: rest' ∧ draft'.place = draft.place ∧
      draft'.scope.modulePath = draft.scope.modulePath ∧
      rest.map Draft.address = rest'.map Draft.address := by
  have haddresses := h.drafts
  rw [hdrafts, List.map_cons] at haddresses
  obtain ⟨draft', rest', hdrafts', hdraft, hrest⟩ := List.map_eq_cons_iff.mp haddresses.symm
  obtain ⟨hplace, hpath⟩ := Prod.mk.inj hdraft
  exact ⟨draft', rest', hdrafts', hplace, hpath, hrest.symm⟩

/-- What is looked up in the scopes of corresponding drafts corresponds. -/
theorem lookup_eq (h : InStep region s u) (hτ : Renames region τ s u) (hdrafts : s.drafts = draft :: rest)
    (hdrafts' : u.drafts = draft' :: rest') (hplace : draft'.place = draft.place)
    (hregion : region draft.place) (hget : s.root.get? draft.place = some r) :
    u.workspace.lookup draft'.scope =
      fun name => (s.workspace.lookup draft.scope name).map (.rename τ) := by
  obtain ⟨frames, hscoped⟩ := h.scoping
  obtain ⟨frames', hscoped'⟩ := h.scoping'
  funext name
  rw [hscoped.lookup_eq (hscoped.drafts (hdrafts ▸ List.mem_cons_self)),
    hscoped'.lookup_eq (hscoped'.drafts (hdrafts' ▸ List.mem_cons_self)), hplace]
  exact (h.alike hτ).meaning?_eq h.surrounds h.surrounds' hregion hget

theorem exists_get? (h : InStep region s u) (hq : region q) (hget : s.root.get? q = some r) :
    ∃ r', u.root.get? q = some r' ∧
      ∀ τ, Renames region τ s u → r'.surface = r.surface.rename (fun i => i) τ := by
  obtain ⟨τ, hτ⟩ := exists_renames h.distinct u
  obtain ⟨r', hget', -⟩ := (h.alike hτ).exists_get? hq hget
  refine ⟨r', hget', fun τ hτ => ?_⟩
  obtain ⟨r'', hget'', hsurface⟩ := (h.alike hτ).exists_get? hq hget
  obtain rfl := Option.some.inj (hget'.symm.trans hget'')
  exact hsurface

/-- Sessions that take a step stay in step if they are open at the same places and
    alike afterwards. -/
theorem of_advance (h : InStep region s u) (hnames : step.UsesNames)
    (hadvance : s.Advance step s') (hadvance' : u.Advance step u')
    (hdrafts : s'.drafts.map Draft.address = u'.drafts.map Draft.address)
    (halike : ∀ τ, Renames region τ s' u' → Renames region τ s u → Under τ region s.surfaces u.surfaces →
      Under τ region s'.surfaces u'.surfaces) : InStep region s' u' where
  scoping := h.scoping.elim fun _ hscoped => hscoped.advance hadvance
  scoping' := h.scoping'.elim fun _ hscoped => hscoped.advance hadvance'
  surrounds := fun q slot hq => by
    rw [Record.kind_eq_of_outline_eq hadvance.outline_root]
    exact h.surrounds hq
  surrounds' := fun q slot hq => by
    rw [Record.kind_eq_of_outline_eq hadvance'.outline_root]
    exact h.surrounds' hq
  distinct := h.distinct.of_grows (hadvance.grows hnames)
  drafts := hdrafts
  alike := fun τ hτ' =>
    have hτ := hτ'.of_grows (hadvance.grows hnames) (hadvance'.grows hnames)
    halike τ hτ' hτ (h.alike hτ)

/-- The region has the owner of what is declared in it. -/
theorem region_ownerPlace (h : InStep region s u) {d : Declaration} {owner : Record} {slot : Slot}
    (hregion : region place) (howner : s.root.get? (d.ownerPlace place) = some owner)
    (hslot : owner.slotFor? d = some slot) : region (d.ownerPlace place) := by
  rcases d.ownerPlace_cases place with heq | heq
  · rwa [heq]
  · rw [heq] at hregion
    rcases h.surrounds hregion with hq | ⟨hnil, hprogram⟩
    · exact hq
    · rw [hnil] at howner
      obtain rfl := Option.some.inj howner
      exact absurd hprogram (Record.kind_ne_program_of_slotFor? hslot)

/-- Corresponding owners take a declaration in the same slot, taken or not. -/
theorem exists_owner (h : InStep region s u) {d : Declaration} {owner : Record} {slot : Slot}
    (hregion : region place) (howner : s.root.get? (d.ownerPlace place) = some owner)
    (hslot : owner.slotFor? d = some slot) :
    ∃ x, u.root.get? (d.ownerPlace place) = some x ∧ x.slotFor? d = some slot ∧
      (x.child? slot).isSome = (owner.child? slot).isSome ∧
      ∀ τ, Renames region τ s u → x.surface = owner.surface.rename (fun i => i) τ := by
  have hq := h.region_ownerPlace hregion howner hslot
  obtain ⟨x, hx, hsurface⟩ := h.exists_get? hq howner
  obtain ⟨τ, hτ⟩ := exists_renames h.distinct u
  refine ⟨x, hx, ?_, ?_, hsurface⟩
  · rw [← Record.slotFor?_surface, hsurface τ hτ, Record.slotFor?_rename, Record.slotFor?_surface,
      hslot]
  · have hchild : (x.surface.child? slot).isSome = (owner.surface.child? slot).isSome := by
      rw [hsurface τ hτ, Record.child?_rename, Option.isSome_map]
    rwa [Record.child?_surface, Record.child?_surface, Option.isSome_map, Option.isSome_map]
      at hchild

theorem edited (h : InStep region s u) (hnames : step.UsesNames) {r r' : Record}
    (hdrafts : s.drafts = draft :: rest) (hregion : region draft.place)
    (hrecord : s.root.get? draft.place = some r)
    (hrevise : r.revise? (s.workspace.lookup draft.scope) step = some r')
    (hadvance : s.Advance step (s.replace draft.place r')) :
    ∃ u', u.Advance step u' ∧ InStep region (s.replace draft.place r') u' := by
  obtain ⟨draft', rest', hdrafts', hplace, hpath, hrest⟩ := h.exists_draft hdrafts
  obtain ⟨x, hx, hsurface⟩ := h.exists_get? hregion hrecord
  -- the revision of the one surface is the renamed revision of the other
  have hrevised : ∀ τ, Renames region τ s u →
      (x.revise? (u.workspace.lookup draft'.scope) step).map Record.surface =
        some (r'.surface.rename (fun i => i) τ) := by
    intro τ hτ
    rw [Record.revise?_surface, hsurface τ hτ,
      h.lookup_eq hτ hdrafts hdrafts' hplace hregion hrecord, ← Record.revise?_rename hnames,
      ← Record.revise?_surface, hrevise]
    rfl
  obtain ⟨τ, hτ⟩ := exists_renames h.distinct u
  obtain ⟨x', hx', -⟩ := Option.map_eq_some_iff.mp (hrevised τ hτ)
  have hcurrent : u.current? = some (draft', x) :=
    current?_eq_some_iff.mpr ⟨rest', hdrafts', hplace ▸ hx⟩
  have hadvance' : u.Advance step (u.replace draft'.place x') := advance_of_revise? hcurrent hx'
  obtain ⟨houtline, -, hchildren, -⟩ := Record.revise?_keeps hrevise
  obtain ⟨houtline', -, hchildren', -⟩ := Record.revise?_keeps hx'
  refine ⟨_, hadvance', h.of_advance hnames hadvance hadvance' h.drafts ?_⟩
  intro τ _ hτ halike
  rw [surfaces, surfaces, replace, replace, hplace,
    Record.view_replace_edited Record.shallow_surface hrecord houtline hchildren,
    Record.view_replace_edited Record.shallow_surface hx houtline' hchildren']
  apply halike.update
  have hboth := hrevised τ hτ
  rw [hx'] at hboth
  exact Option.some.inj hboth

theorem typeParametersAdded (h : InStep region s u) {parameters : List TypeIdentifier}
    (hnames : (Step.addTypeParameters parameters).UsesNames) {r r' : Record}
    {old : Option (List TypeHandle)} {handles : List TypeHandle} {workspace : Workspace}
    (hdrafts : s.drafts = draft :: rest) (hregion : region draft.place)
    (hrecord : s.root.get? draft.place = some r) (hold : r.typeParameters? = some old)
    (hdeclared : s.workspace.declareTypeParameters draft.scope parameters = (handles, workspace))
    (hnew : r.withTypeParameters? (appendTo old handles) = some r')
    (hadvance : s.Advance (.addTypeParameters parameters)
      { s with root := s.root.replace draft.place r', workspace }) :
    ∃ u', u.Advance (.addTypeParameters parameters) u' ∧
      InStep region { s with root := s.root.replace draft.place r', workspace } u' := by
  obtain ⟨draft', rest', hdrafts', hplace, hpath, hrest⟩ := h.exists_draft hdrafts
  obtain ⟨x, hx, hsurface⟩ := h.exists_get? hregion hrecord
  have hold' : ∀ τ, Renames region τ s u → x.typeParameters? = some (old.map (·.map (.rename τ))) := by
    intro τ hτ
    rw [← Record.typeParameters?_surface, hsurface τ hτ, Record.typeParameters?_rename,
      Record.typeParameters?_surface, hold, Option.map_some]
  obtain ⟨τ₀, hτ₀⟩ := exists_renames h.distinct u
  obtain ⟨old', hx₀⟩ : ∃ old', x.typeParameters? = some old' := ⟨_, hold' τ₀ hτ₀⟩
  obtain ⟨handles', workspace', hdeclared'⟩ : ∃ handles' workspace',
      u.workspace.declareTypeParameters draft'.scope parameters = (handles', workspace') :=
    ⟨_, _, rfl⟩
  obtain ⟨x', hnew'⟩ := Record.exists_withTypeParameters? hx₀ (appendTo old' handles')
  have hadvance' := Advance.typeParametersAdded draft' rest' x x' old' parameters handles'
    workspace' hdrafts' (hplace ▸ hx) hx₀ hdeclared' hnew'
  rw [hplace] at hadvance'
  obtain ⟨houtline, -, hchildren, -⟩ := Record.withTypeParameters?_keeps hnew
  obtain ⟨houtline', -, hchildren', -⟩ := Record.withTypeParameters?_keeps hnew'
  refine ⟨_, hadvance', h.of_advance hnames hadvance hadvance' h.drafts ?_⟩
  intro τ hτ' hτ halike
  rw [surfaces, surfaces, Record.view_replace_edited Record.shallow_surface hrecord houtline
    hchildren, Record.view_replace_edited Record.shallow_surface hx houtline' hchildren']
  apply halike.update
  have hlists : old' = old.map (·.map (.rename τ)) := Option.some.inj (hx₀.symm.trans (hold' τ hτ))
  have hlength : (old'.getD []).length = (old.getD []).length := by
    rw [hlists]
    cases old <;> simp
  have hhandles : handles' = handles.map (.rename τ) := by
    apply declareTypeParameters_rename hnames.2 hdeclared hdeclared'
    intro i k k' hk hk'
    refine hτ' (by exact hregion) ((handleAt?_added hrecord hold hnew rfl i).trans hk) ?_
    rw [← hlength]
    exact (handleAt?_added hx hx₀ hnew' rfl i).trans hk'
  have hboth := Record.withTypeParameters?_surface x (appendTo old' handles')
  rw [hnew', hsurface τ hτ, hlists, hhandles, ← Record.map_appendTo,
    ← Record.withTypeParameters?_rename, ← Record.withTypeParameters?_surface, hnew] at hboth
  exact Option.some.inj hboth

theorem childReopened (h : InStep region s u) {d : Declaration} {owner child : Record}
    {slot : Slot} (hnames : (Step.declare d).UsesNames) (hdrafts : s.drafts = draft :: rest)
    (hregion : region draft.place) (howner : s.root.get? (d.ownerPlace draft.place) = some owner)
    (hslot : owner.slotFor? d = some slot) (hchild : owner.child? slot = some child)
    (hadvance : s.Advance (.declare d)
      { s with drafts := ⟨d.ownerPlace draft.place ++ [slot], draft.scope⟩ :: s.drafts }) :
    ∃ u', u.Advance (.declare d) u' ∧ InStep region
      { s with drafts := ⟨d.ownerPlace draft.place ++ [slot], draft.scope⟩ :: s.drafts } u' := by
  obtain ⟨draft', rest', hdrafts', hplace, hpath, hrest⟩ := h.exists_draft hdrafts
  obtain ⟨x, hx, hslot', hchild', -⟩ := h.exists_owner hregion howner hslot
  rw [hchild] at hchild'
  obtain ⟨child', hchild'⟩ := Option.isSome_iff_exists.mp hchild'
  have hadvance' := Advance.childReopened draft' rest' d x child' slot hdrafts' (hplace ▸ hx)
    hslot' hchild'
  refine ⟨_, hadvance', h.of_advance hnames hadvance hadvance' ?_ fun τ _ _ halike => halike⟩
  rw [List.map_cons, List.map_cons, h.drafts, Draft.address, Draft.address, hplace, hpath]

theorem childDeclared (h : InStep region s u) {d : Declaration} {owner : Record} {slot : Slot}
    {handle : Option TypeHandle} {declared workspace : Workspace} {scope : Scope}
    (hnames : (Step.declare d).UsesNames) (hdrafts : s.drafts = draft :: rest)
    (hregion : region draft.place) (howner : s.root.get? (d.ownerPlace draft.place) = some owner)
    (hslot : owner.slotFor? d = some slot) (hempty : owner.child? slot = none)
    (hdeclared : s.declareType draft.scope d = (handle, { s with workspace := declared }))
    (henter : declared.enter draft.scope d.kind = (scope, workspace))
    (hroot : s'.root = s.root.replace (d.ownerPlace draft.place)
      (owner.put slot ((d.bare handle).withId s.lineage.next)))
    (hdrafts' : s'.drafts = ⟨d.ownerPlace draft.place ++ [slot], scope⟩ :: s.drafts)
    (hadvance : s.Advance (.declare d) s') :
    ∃ u', u.Advance (.declare d) u' ∧ InStep region s' u' := by
  obtain ⟨draft', rest', hdraftsU, hplace, hpath, hrest⟩ := h.exists_draft hdrafts
  obtain ⟨x, hx, hslot', hchild', hsurface⟩ := h.exists_owner hregion howner hslot
  rw [hempty, Option.isSome_none, Option.isSome_eq_false_iff, Option.isNone_iff_eq_none] at hchild'
  obtain ⟨handle', declared', hdeclared'⟩ : ∃ handle' declared',
      u.declareType draft'.scope d = (handle', { u with workspace := declared' }) :=
    ⟨_, _, declareType_eq u draft'.scope d⟩
  obtain ⟨scope', workspace', henter'⟩ : ∃ scope' workspace',
      declared'.enter draft'.scope d.kind = (scope', workspace') := ⟨_, _, rfl⟩
  obtain ⟨u', hadvance', hroot', hdraftsU'⟩ : ∃ u', u.Advance (.declare d) u' ∧
      u'.root = u.root.replace (d.ownerPlace draft.place)
        (x.put slot ((d.bare handle').withId u.lineage.next)) ∧
      u'.drafts = ⟨d.ownerPlace draft.place ++ [slot], scope'⟩ :: u.drafts := by
    have hadvance' := Advance.childDeclared draft' rest' d x slot handle' declared' scope'
      workspace' hdraftsU (hplace ▸ hx) hslot' hchild' hdeclared' henter'
    rw [hplace] at hadvance'
    exact ⟨_, hadvance', rfl, rfl⟩
  refine ⟨u', hadvance', h.of_advance hnames hadvance hadvance' ?_ ?_⟩
  · have hscope : scope.modulePath = draft.scope.modulePath := by
      rw [← Workspace.modulePath_enter declared draft.scope d.kind, henter]
    have hscope' : scope'.modulePath = draft'.scope.modulePath := by
      rw [← Workspace.modulePath_enter declared' draft'.scope d.kind, henter']
    rw [hdrafts', hdraftsU', List.map_cons, List.map_cons, h.drafts, Draft.address, Draft.address,
      hscope, hscope', hpath]
  intro τ hτ' hτ halike
  have howned : region (Site.mk (d.ownerPlace draft.place ++ [slot]) none).owner := by
    rw [Site.owner, List.dropLast_concat]
    exact h.region_ownerPlace hregion howner hslot
  have hhandle : handle' = handle.map (.rename τ) := by
    apply declareType_rename hdeclared hdeclared' hpath
    intro k k' hk hk'
    have hsite := handleAt?_new howner hslot hempty hdeclared hroot
    have hsite' := handleAt?_new hx hslot' hchild' hdeclared' hroot'
    exact hτ' howned (hsite.trans hk) (hsite'.trans hk')
  rw [surfaces_childDeclared howner hslot hempty hroot,
    surfaces_childDeclared hx hslot' hchild' hroot']
  apply (halike.update _ _).update
  · rw [Record.bare_rename, hhandle]
  · rw [Record.put_rename, hsurface τ hτ, ← Record.blank_rename, Record.bare_rename, hhandle]

/-- **Sessions in step can take the same steps in the region, and stay in step.** -/
theorem advance (h : InStep region s u) (hnames : step.UsesNames)
    (hdrafts : s.drafts = draft :: rest) (hregion : region draft.place)
    (hadvance : s.Advance step s') : ∃ u', u.Advance step u' ∧ InStep region s' u' := by
  have hadvance₀ := hadvance
  cases hadvance with
  | moduleOpened p path m id lineage scope workspace hnone => simp [hdrafts] at hnone
  | childReopened draft' rest' d owner child slot hdrafts' howner hslot hchild =>
    obtain ⟨rfl, rfl⟩ := List.cons.inj (hdrafts.symm.trans hdrafts')
    exact h.childReopened hnames hdrafts hregion howner hslot hchild hadvance₀
  | childDeclared draft' rest' d owner slot handle declared scope workspace hdrafts' howner hslot
      hempty hdeclared henter =>
    obtain ⟨rfl, rfl⟩ := List.cons.inj (hdrafts.symm.trans hdrafts')
    exact h.childDeclared hnames hdrafts hregion howner hslot hempty hdeclared henter rfl rfl
      hadvance₀
  | closed draft' rest' hdrafts' =>
    obtain ⟨rfl, rfl⟩ := List.cons.inj (hdrafts.symm.trans hdrafts')
    obtain ⟨other, rest', hdraftsU, -, -, hrest⟩ := h.exists_draft hdrafts
    have hadvance' := Advance.closed other rest' hdraftsU
    exact ⟨_, hadvance', h.of_advance hnames hadvance₀ hadvance' hrest fun _ _ _ halike => halike⟩
  | typeParametersAdded draft' rest' r r' old parameters handles workspace hdrafts' hrecord hold
      hdeclared hnew =>
    obtain ⟨rfl, rfl⟩ := List.cons.inj (hdrafts.symm.trans hdrafts')
    exact h.typeParametersAdded hnames hdrafts hregion hrecord hold hdeclared hnew hadvance₀
  | unchanged a value habsent draft' rest' r hdrafts' hrecord hread =>
    obtain ⟨rfl, rfl⟩ := List.cons.inj (hdrafts.symm.trans hdrafts')
    obtain ⟨other, rest', hdraftsU, hplace, -, -⟩ := h.exists_draft hdrafts
    obtain ⟨x, hx, hsurface⟩ := h.exists_get? hregion hrecord
    obtain ⟨τ, hτ⟩ := exists_renames h.distinct u
    have hread' : (x.read? a).isSome := by
      rwa [← Record.read?_surface, hsurface τ hτ, Record.isSome_read?_rename,
        Record.read?_surface]
    have hadvance' := Advance.unchanged a value habsent other rest' x hdraftsU (hplace ▸ hx) hread'
    exact ⟨u, hadvance', h⟩
  | edited _ draft' rest' r r' hdrafts' hrecord houtline hid hchildren htypes hrevise =>
    obtain ⟨rfl, rfl⟩ := List.cons.inj (hdrafts.symm.trans hdrafts')
    exact h.edited hnames hdrafts hregion hrecord hrevise hadvance₀

end InStep

end Session

end Declarations
