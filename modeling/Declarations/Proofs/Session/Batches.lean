/-
  Declarations/Proofs/Session/Batches.lean
  ========================================
  **Lists can be given at once or in parts.**

  What a record collects is added to it by lists, and it does not matter how they are cut:
  a list that is added at once, or its parts in turn, leave the session the same, with all its
  names and handles (`step?_add_append`).

  So a record that is built from nothing has collected all that was ever given to it, in the
  order of the calls, and has no list as long as that was nothing (`Session.Gathered`).

  An open record that has type parameters has a frame of its own, in which nothing else binds
  (`Session.OwnFrames`).  So its scope finds, under the name that a type parameter is shown
  with, the last one that is shown so.
-/
import Declarations.Proofs.Record.Collections
import Declarations.Proofs.Session.Enrolment
import Declarations.Proofs.Session.Setters

namespace Declarations

/-- What is given to a collection by a step, and what names mean at the time. -/
structure Gathering (c : Collection) where
  workspace : Workspace
  scope : Scope
  given : List c.Given

namespace Gathering

variable {c : Collection}

/-- What is collected. -/
def stored (call : Gathering c) : List c.Item := (c.take call.workspace call.scope call.given).1

/-- The workspace after it. -/
def after (call : Gathering c) : Workspace := (c.take call.workspace call.scope call.given).2

theorem stored_eq_nil_iff (call : Gathering c) : call.stored = [] ↔ call.given = [] := by
  rw [← List.length_eq_zero_iff, stored, c.length_take, List.length_eq_zero_iff]

end Gathering

namespace Session

variable {start s s' : Session} {step : Step} {steps : List Step} {q : Place} {r r' : Record}
variable {c : Collection} {draft : Draft} {rest : List Draft}

/-! ## 1. One call after the other -/

/-- What it is to add to a collection, whichever it is. -/
theorem step?_add (hcurrent : s.current? = some (draft, r)) (c : Collection)
    (given : List c.Given) :
    s.step? (c.add given) = (r.collection? c).bind fun old =>
      (r.withCollection? c (appendTo old (c.take s.workspace draft.scope given).1)).map
        ({ s with workspace := (c.take s.workspace draft.scope given).2 }.replace draft.place) := by
  cases c with
  | typeParameters =>
    simp only [Collection.add, step?, addTypeParameters?, hcurrent, Option.bind_some]
    rfl
  | implemented | extended =>
    simp only [Collection.add, step?, addImplements?, addExtends?, edit?, hcurrent, Option.bind_some]
    rcases r with _ | _ | e | _ | _ | _ | _
    case entry => cases e <;> rfl
    all_goals rfl

theorem step?_add_eq_none (hcurrent : s.current? = none) (c : Collection) (given : List c.Given) :
    s.step? (c.add given) = none := by
  cases c <;> simp [Collection.add, step?, addTypeParameters?, addImplements?, addExtends?, edit?,
    hcurrent]

/-- A list can be added exactly if the innermost record collects such. -/
theorem isSome_step?_add (s : Session) (c : Collection) (given : List c.Given) :
    (s.step? (c.add given)).isSome ↔
      ∃ draft r list, s.current? = some (draft, r) ∧ r.collection? c = some list := by
  constructor
  · intro hsome
    cases hcurrent : s.current? with
    | none => simp [step?_add_eq_none hcurrent] at hsome
    | some current =>
      obtain ⟨draft, r⟩ := current
      rw [step?_add hcurrent] at hsome
      cases hlist : r.collection? c with
      | none => simp [hlist] at hsome
      | some list => exact ⟨draft, r, list, rfl, hlist⟩
  · rintro ⟨draft, r, list, hcurrent, hlist⟩
    rw [step?_add hcurrent, hlist, Option.bind_some, Option.isSome_map,
      Record.isSome_withCollection?, hlist, Option.isSome_some]

/-- **A list can be added at once or in parts.** -/
theorem step?_add_append (s : Session) (c : Collection) (first second : List c.Given) :
    s.step? (c.add (first ++ second)) =
      (s.step? (c.add first)).bind (·.step? (c.add second)) := by
  cases hcurrent : s.current? with
  | none => rw [step?_add_eq_none hcurrent, step?_add_eq_none hcurrent, Option.bind_none]
  | some current =>
    obtain ⟨draft, r⟩ := current
    obtain ⟨rest, hdrafts, hrecord⟩ := current?_eq_some_iff.mp hcurrent
    rw [step?_add hcurrent, step?_add hcurrent]
    cases hold : r.collection? c with
    | none => rfl
    | some old =>
      obtain ⟨r₁, hfirst⟩ : ∃ r₁, r.withCollection? c
          (appendTo old (c.take s.workspace draft.scope first).1) = some r₁ := by
        rw [← Option.isSome_iff_exists, Record.isSome_withCollection?, hold]
        rfl
      obtain ⟨hout, hchildren, hlist⟩ := Record.withCollection?_keeps hfirst
      -- the second part finds the record and the names as the first part left them
      have hcurrent₁ : ({ s with workspace := (c.take s.workspace draft.scope first).2 }.replace
          draft.place r₁).current? = some (draft, r₁) := current?_replace hcurrent hout
      rw [Option.bind_some, Option.bind_some, hfirst, Option.map_some, Option.bind_some,
        step?_add hcurrent₁, hlist, Option.bind_some, Record.withCollection?_withCollection? hfirst,
        appendTo_append, c.take_append]
      refine Option.map_congr fun r₂ hsecond => ?_
      obtain ⟨hout₂, hchildren₂, -⟩ := Record.withCollection?_keeps hsecond
      simp only [replace, Record.replace_replace hrecord hout hchildren (hout₂.trans hout.symm)
        (hchildren₂.trans hchildren.symm)]

/-! ## 2. What a run has collected -/

/-- What a step gives to a collection of the record at a place. -/
def gathering? (c : Collection) (q : Place) (s : Session) (step : Step) : Option (Gathering c) :=
  (c.given? step).bind fun given => s.drafts.head?.bind fun draft =>
    if draft.place = q then some ⟨s.workspace, draft.scope, given⟩ else none

theorem gathering?_eq_some_iff {call : Gathering c} : gathering? c q s step = some call ↔
    ∃ draft rest given, s.drafts = draft :: rest ∧ draft.place = q ∧ step = c.add given ∧
      call = ⟨s.workspace, draft.scope, given⟩ := by
  rw [gathering?, Option.bind_eq_some_iff]
  constructor
  · rintro ⟨given, hgiven, hcall⟩
    obtain ⟨draft, hhead, hcall⟩ := Option.bind_eq_some_iff.mp hcall
    obtain ⟨rest, hdrafts⟩ := List.head?_eq_some_iff.mp hhead
    obtain ⟨hq, hcall⟩ := Option.ite_none_right_eq_some.mp hcall
    exact ⟨draft, rest, given, hdrafts, hq, Collection.given?_eq_some_iff.mp hgiven,
      (Option.some.inj hcall).symm⟩
  · rintro ⟨draft, rest, given, hdrafts, rfl, rfl, rfl⟩
    exact ⟨given, Collection.given?_eq_some_iff.mpr rfl, by simp [hdrafts]⟩

theorem gathering?_of_given? (hdrafts : s.drafts = draft :: rest) {given : List c.Given}
    (hgiven : c.given? step = some given) :
    gathering? c draft.place s step = some ⟨s.workspace, draft.scope, given⟩ :=
  gathering?_eq_some_iff.mpr
    ⟨draft, rest, given, hdrafts, rfl, Collection.given?_eq_some_iff.mp hgiven, rfl⟩

theorem gathering?_eq_none (hgiven : c.given? step = none) : gathering? c q s step = none := by
  rw [gathering?, hgiven, Option.bind_none]

/-- The workspace is then the one after the call. -/
theorem workspace_of_gathering? {call : Gathering c} (hstep : s.step? step = some s')
    (hcall : gathering? c q s step = some call) : s'.workspace = call.after := by
  obtain ⟨draft, rest, given, hdrafts, -, rfl, rfl⟩ := gathering?_eq_some_iff.mp hcall
  cases hcurrent : s.current? with
  | none =>
    rw [step?_add_eq_none hcurrent] at hstep
    cases hstep
  | some current =>
    obtain ⟨head, r⟩ := current
    obtain ⟨rest', hdrafts', -⟩ := current?_eq_some_iff.mp hcurrent
    obtain rfl := (List.cons.inj (hdrafts.symm.trans hdrafts')).1
    rw [step?_add hcurrent] at hstep
    obtain ⟨old, -, hadded⟩ := Option.bind_eq_some_iff.mp hstep
    obtain ⟨r', -, rfl⟩ := Option.map_eq_some_iff.mp hadded
    rfl

/-- A collection changes by what is given to it, and in no other way. -/
theorem Advance.collection? (hadvance : s.Advance step s') (hget : s.root.get? q = some r)
    (c : Collection) : ∃ r', s'.root.get? q = some r' ∧ r'.collection? c =
      (gathering? c q s step).toList.foldl (fun list call => list.map (appendTo · call.stored))
        (r.collection? c) := by
  obtain ⟨r', hget', ⟨hown, hnot⟩ | ⟨draft, rest, hdrafts, rfl, hchange⟩⟩ := hadvance.own_cases hget
  · refine ⟨r', hget', ?_⟩
    have hnothing : gathering? c q s step = none := by
      by_contra hgathers
      obtain ⟨call, hcall⟩ := Option.ne_none_iff_exists'.mp hgathers
      obtain ⟨draft, rest, given, hdrafts, hq, rfl, -⟩ := gathering?_eq_some_iff.mp hcall
      have hamends := hnot draft rest hdrafts hq
      cases c <;> cases hamends
    rw [hnothing, hown (Record.own_collection? c)]
    rfl
  · refine ⟨r', hget', ?_⟩
    rcases hchange with ⟨parameters, old, rfl, hold, hadded⟩ | hrevise
    · by_cases hc : c = .typeParameters
      · subst hc
        have hlist : r.collection? .typeParameters = some old := hold
        rw [gathering?_of_given? hdrafts rfl, hlist]
        exact Record.typeParameters?_of_withTypeParameters? hadded
      · rw [gathering?_eq_none (by cases c <;> first | rfl | exact absurd rfl hc),
          Record.collection?_withTypeParameters? hadded hc]
        rfl
    · rcases Record.collection?_of_revise? hrevise c with ⟨hgiven, hsame⟩ |
        ⟨given, old, hgiven, hold, hnew⟩
      · rw [gathering?_eq_none hgiven, hsame]
        rfl
      · rw [gathering?_of_given? hdrafts hgiven, hnew, hold]
        rfl

/-- Nothing is added to a record that is not there. -/
theorem Advance.gathering?_eq_none (hadvance : s.Advance step s') (hnew : s.root.get? q = none) :
    gathering? c q s step = none := by
  by_contra hgathers
  obtain ⟨call, hcall⟩ := Option.ne_none_iff_exists'.mp hgathers
  obtain ⟨draft, rest, given, hdrafts, rfl, rfl, -⟩ := gathering?_eq_some_iff.mp hcall
  obtain ⟨r, hrecord⟩ := hadvance.exists_get?_of_amends (by cases c <;> rfl) hdrafts
  cases hnew.symm.trans hrecord

theorem foldl_appendTo (calls : List (Gathering c)) (list : Option (Option (List c.Item))) :
    calls.foldl (fun list call => list.map (appendTo · call.stored)) list =
      list.map (appendTo · (calls.flatMap Gathering.stored)) := by
  induction calls generalizing list with
  | nil => exact Option.map_id'.symm
  | cons call calls ih =>
    rw [List.foldl_cons, ih, Option.map_map, List.flatMap_cons]
    congr 1
    funext old
    exact appendTo_append old _ _

/-- What a run has collected in a record that was not there before. -/
structure Gathered (start : Session) (steps : List Step) (q : Place) (c : Collection)
    (list : Option (List c.Item)) : Prop where
  -- there is no list as long as nothing was given
  absent : list = none ↔ ∀ call ∈ start.log (gathering? c q) steps, call.given = []
  -- otherwise the list is all that was collected, in the order of the calls
  present : list ≠ none →
    list = some ((start.log (gathering? c q) steps).flatMap Gathering.stored)
  -- and it is not empty
  nonempty : list ≠ some []

theorem gathered {list : Option (List c.Item)} (hrun : start.run? steps = some s)
    (hnew : start.root.get? q = none) (hget : s.root.get? q = some r)
    (hlist : r.collection? c = some list) : Gathered start steps q c list := by
  obtain ⟨first, hfirst, hcollected⟩ := exists_isNew_foldl_of_run?
    (fun h hget => h.collection? hget c) (fun h hnew => h.gathering?_eq_none hnew) hrun hnew hget
  rw [foldl_appendTo, hlist] at hcollected
  obtain ⟨old, hold, rfl⟩ := Option.map_eq_some_iff.mp hcollected.symm
  obtain rfl := Record.collection?_of_isNew hfirst hold
  have hempty : (start.log (gathering? c q) steps).flatMap Gathering.stored = [] ↔
      ∀ call ∈ start.log (gathering? c q) steps, call.given = [] := by
    simp only [List.flatMap_eq_nil_iff, Gathering.stored_eq_nil_iff]
  rw [appendTo_none]
  constructor
  case absent => rw [← hempty]; simp
  case present => intro hsome; rw [if_neg fun h => hsome (if_pos h)]
  case nonempty =>
    split
    · simp
    next hne => exact fun h => hne (Option.some.inj h)

/-! ## 3. Frames of open records -/

/-- What is true of a draft that is opened on top of the others. -/
structure Fresh (s s' : Session) (new : Draft) : Prop where
  made : new.scope.frame < s'.workspace.frames.size
  -- a module is opened alone
  alone {r : Record} : s'.root.get? new.place = some r → r.kind = .module → s.drafts = []
  present : ∃ r, s'.root.get? new.place = some r
  -- a record that can have type parameters has none yet, and an empty frame of its own
  own {r : Record} {list : Option (List TypeHandle)} : s'.root.get? new.place = some r →
    r.typeParameters? = some list → list = none ∧
      (∀ name, s'.workspace.localBinding? new.scope name = none) ∧
      ∀ draft ∈ s.drafts, new.place ≠ draft.place ∧ new.scope.frame ≠ draft.scope.frame

/-- A module is below all others, and what opens a scope is at another place and in another
    frame than what is below it. -/
def Apart (s : Session) (upper lower : Draft) : Prop :=
  ∀ r, s.root.get? upper.place = some r → r.kind ≠ .module ∧ (r.kind.opensScope →
    upper.place ≠ lower.place ∧ upper.scope.frame ≠ lower.scope.frame)

/-- A record that can have type parameters is open once, in a frame that binds these and
    nothing else. -/
structure OwnFrames (s : Session) : Prop where
  made {draft : Draft} : draft ∈ s.drafts → draft.scope.frame < s.workspace.frames.size
  modules {path : String} {scope : Scope} : s.moduleScopes[path]? = some scope →
    scope.frame < s.workspace.frames.size
  present {draft : Draft} : draft ∈ s.drafts → ∃ r, s.root.get? draft.place = some r
  apart : s.drafts.Pairwise s.Apart
  -- the last type parameter with a name is bound
  bound {draft : Draft} {r : Record} {list : Option (List TypeHandle)} : draft ∈ s.drafts →
    s.root.get? draft.place = some r → r.typeParameters? = some list →
    ∀ name, s.workspace.localBinding? draft.scope name =
      (list.getD []).reverse.find? (·.display = name)

/-- Type parameters are declared in the scope of the innermost record. -/
theorem Advance.workspace_of_addTypeParameters {given : List TypeIdentifier}
    (hadvance : s.Advance (.addTypeParameters given) s') (hdrafts : s.drafts = draft :: rest) :
    s'.workspace = (s.workspace.declareTypeParameters draft.scope given).2 := by
  cases hadvance with
  | typeParametersAdded draft' rest' r r' old _ handles workspace hdrafts' hrecord hold hdeclared =>
    obtain rfl := (List.cons.inj (hdrafts.symm.trans hdrafts')).1
    rw [hdeclared]
  | edited _ draft rest r r' hdrafts hrecord houtline hid hchildren htypes hrevise =>
    simp [Record.revise?] at hrevise

namespace OwnFrames

/-- The frame of a record that stays open binds the type parameters that the record has now. -/
theorem bound_of_advance (h : OwnFrames s) (hadvance : s.Advance step s') (hmem : draft ∈ s.drafts)
    (hget' : s'.root.get? draft.place = some r') {list : Option (List TypeHandle)}
    (hlist' : r'.typeParameters? = some list) (name : String) :
    s'.workspace.localBinding? draft.scope name =
      (list.getD []).reverse.find? (·.display = name) := by
  obtain ⟨r, hget⟩ := h.present hmem
  obtain ⟨r₁, hget₁, hlist⟩ := hadvance.collection? hget .typeParameters
  obtain rfl := Option.some.inj (hget'.symm.trans hget₁)
  -- what is true of the innermost record and of those around it
  have hinner : ∀ {head rest}, s.drafts = head :: rest → draft = head ∨ s.Apart head draft := by
    intro head rest hdrafts
    have hpairwise := h.apart
    rw [hdrafts] at hmem hpairwise
    exact (List.mem_cons.mp hmem).imp_right ((List.pairwise_cons.mp hpairwise).1 draft)
  cases hgathers : gathering? .typeParameters draft.place s step with
  | none =>
    rw [hgathers] at hlist
    have hold : r.typeParameters? = some list := hlist.symm.trans hlist'
    have hsame : s'.workspace.bindings draft.scope.frame =
        s.workspace.bindings draft.scope.frame := by
      by_contra hchanged
      obtain ⟨head, rest, hdrafts, hframe, hcause⟩ := hadvance.bindings_cases hchanged
      rcases hcause with ⟨m, d, text, hmodule, -, -⟩ | ⟨other, parameters, hother, hscope, rfl⟩ <;>
        rcases hinner hdrafts with rfl | hbelow
      · obtain rfl := Option.some.inj (hget.symm.trans hmodule)
        cases hold
      · exact (hbelow _ hmodule).1 rfl
      · rw [gathering?_of_given? hdrafts rfl] at hgathers
        cases hgathers
      · exact ((hbelow _ hother).2 hscope).2 hframe
    rw [Workspace.localBinding?, hsame]
    exact h.bound hmem hget hold name
  | some call =>
    obtain ⟨head, rest, given, hdrafts, hplace, rfl, rfl⟩ := gathering?_eq_some_iff.mp hgathers
    rw [hgathers] at hlist
    obtain ⟨old, hold, hadded⟩ := Option.map_eq_some_iff.mp (hlist.symm.trans hlist')
    obtain rfl : draft = head := by
      refine (hinner hdrafts).resolve_right fun hbelow => ?_
      rw [← hplace] at hget
      exact ((hbelow r hget).2 (Record.opensScope_of_typeParameters? hold)).1 hplace
    have hbound := (Workspace.typeParametersDeclared (h.made hmem) given).bound name
    rw [h.bound hmem hget hold] at hbound
    rw [hadvance.workspace_of_addTypeParameters hdrafts, hbound, ← hadded, Record.getD_appendTo,
      List.reverse_append, List.find?_append]
    rfl

/-- Steps that open a fresh record or close one keep all this. -/
theorem grow (h : OwnFrames s) (hadvance : s.Advance step s')
    (hsize : s.workspace.frames.size ≤ s'.workspace.frames.size)
    (hmodules : ∀ {path : String} {scope : Scope}, s'.moduleScopes[path]? = some scope →
      s.moduleScopes[path]? = some scope ∨ scope.frame < s'.workspace.frames.size)
    (hdrafts : s'.drafts <:+ s.drafts ∨ ∃ new, s'.drafts = new :: s.drafts ∧ Fresh s s' new) :
    OwnFrames s' := by
  have hcases : ∀ {draft}, draft ∈ s'.drafts → draft ∈ s.drafts ∨ Fresh s s' draft := by
    intro draft hmem
    rcases hdrafts with hsuffix | ⟨new, hnew, hfresh⟩
    · exact Or.inl (hsuffix.mem hmem)
    · rw [hnew] at hmem
      rcases List.mem_cons.mp hmem with rfl | hmem
      · exact Or.inr hfresh
      · exact Or.inl hmem
  have hkept : s.drafts.Pairwise s'.Apart := by
    refine h.apart.imp_of_mem fun {upper lower} hmem _ hapart r' hget' => ?_
    obtain ⟨r, hget⟩ := h.present hmem
    obtain ⟨r₁, hget₁, hkind, -⟩ := hadvance.exists_same_identity hget
    obtain rfl := Option.some.inj (hget'.symm.trans hget₁)
    rw [hkind]
    exact hapart r hget
  constructor
  case made =>
    intro draft hmem
    exact (hcases hmem).elim (fun hold => Nat.lt_of_lt_of_le (h.made hold) hsize) Fresh.made
  case modules =>
    intro path scope hscope
    exact (hmodules hscope).elim (fun hold => Nat.lt_of_lt_of_le (h.modules hold) hsize) id
  case present =>
    intro draft hmem
    refine (hcases hmem).elim (fun hold => ?_) Fresh.present
    obtain ⟨r, hget⟩ := h.present hold
    obtain ⟨r', hget', -⟩ := hadvance.exists_same_identity hget
    exact ⟨r', hget'⟩
  case apart =>
    rcases hdrafts with hsuffix | ⟨new, hnew, hfresh⟩
    · exact hkept.sublist hsuffix.sublist
    · rw [hnew]
      refine List.pairwise_cons.mpr ⟨fun lower hmem r hget => ⟨fun hmodule => ?_, fun hscope => ?_⟩,
        hkept⟩
      · rw [hfresh.alone hget hmodule] at hmem
        cases hmem
      · rw [← Record.isSome_typeParameters?] at hscope
        obtain ⟨list, hlist⟩ := Option.isSome_iff_exists.mp hscope
        exact (hfresh.own hget hlist).2.2 lower hmem
  case bound =>
    intro draft r list hmem hget hlist name
    rcases hcases hmem with hold | hfresh
    · exact h.bound_of_advance hadvance hold hget hlist name
    · obtain ⟨rfl, hnone, -⟩ := hfresh.own hget hlist
      exact hnone name

theorem advance (h : OwnFrames s) (hadvance : s.Advance step s') : OwnFrames s' := by
  have hsame : s'.workspace = s.workspace → s'.moduleScopes = s.moduleScopes →
      (s'.drafts <:+ s.drafts ∨ ∃ new, s'.drafts = new :: s.drafts ∧ Fresh s s' new) →
      OwnFrames s' := by
    intro hworkspace hscopes hdrafts
    refine h.grow hadvance (Nat.le_of_eq (by rw [hworkspace])) (fun hscope => Or.inl ?_) hdrafts
    rwa [hscopes] at hscope
  have hgrow := h.grow hadvance
  cases hadvance with
  | moduleOpened p path m id lineage scope workspace hdrafts hroot hmodule hregister hscope =>
    obtain ⟨hsize, hmade⟩ : s.workspace.frames.size ≤ workspace.frames.size ∧
        scope.frame < workspace.frames.size := by
      rcases hscope with ⟨hopened, rfl⟩ | ⟨-, hnew⟩
      · exact ⟨Nat.le_refl _, h.modules hopened⟩
      · obtain ⟨rfl, rfl⟩ := Prod.mk.inj hnew
        simp
    have hget : (Record.program { p with modules := p.modules.insert path { m with id } }).get?
        [.module path] = some (.module { m with id }) := by
      rw [Record.get?_singleton, Record.child?, Std.ExtTreeMap.getElem?_insert_self, Option.map_some]
    refine hgrow hsize (fun {other found} hfound => ?_) (Or.inr ⟨_, by rw [hdrafts], ?_⟩)
    · rw [Std.ExtTreeMap.getElem?_insert] at hfound
      split at hfound
      · obtain rfl := Option.some.inj hfound
        exact Or.inr hmade
      · exact Or.inl hfound
    · constructor
      case made => exact hmade
      case alone => exact fun _ _ => hdrafts
      case present => exact ⟨_, hget⟩
      case own =>
        intro r list hr hlist
        obtain rfl := Option.some.inj (hget.symm.trans hr)
        cases hlist
  | childReopened draft rest d owner child slot hdrafts howner hslot hchild =>
    have hmem : draft ∈ s.drafts := hdrafts ▸ List.mem_cons_self
    have hget := (Record.get?_concat howner slot).trans hchild
    obtain ⟨hkind, hsort⟩ := Record.kind_of_slotFor?_of_child? hslot hchild
    refine hsame rfl rfl (Or.inr ⟨_, rfl, ?_⟩)
    constructor
    case made => exact (h.made hmem : draft.scope.frame < s.workspace.frames.size)
    case alone =>
      intro r hr hmodule
      obtain rfl := Option.some.inj (hget.symm.trans hr)
      rw [hkind] at hmodule
      rcases hsort with hsort | hsort <;> cases hsort.symm.trans hmodule
    case present => exact ⟨child, hget⟩
    case own =>
      intro r list hr hlist
      obtain rfl := Option.some.inj (hget.symm.trans hr)
      have hscope := Record.opensScope_of_typeParameters? hlist
      rw [hkind, (Record.opens_nothing_of_child? hslot hchild).2] at hscope
      cases hscope
  | childDeclared draft rest d owner slot handle declared scope workspace hdrafts howner hslot
      hempty hdeclared henter =>
    have hget := Record.get?_declared howner hslot handle s.lineage.next
    have hframes : declared.frames.size = s.workspace.frames.size := by
      rw [declareType_eq] at hdeclared
      obtain rfl := congrArg Session.workspace (Prod.mk.inj hdeclared).2
      cases d.typeName? with
      | none => rfl
      | some name => exact Workspace.size_frames_declareNominal _ _ _
    have hmade : draft.scope.frame < declared.frames.size := by
      rw [hframes]
      exact h.made (hdrafts ▸ List.mem_cons_self)
    have hentered := Workspace.enter_cases henter
    have hsize : s.workspace.frames.size ≤ workspace.frames.size := by
      rcases hentered with ⟨-, -, hpush, -⟩ | ⟨-, -, rfl⟩ <;> omega
    refine hgrow hsize Or.inl (Or.inr ⟨_, rfl, ?_⟩)
    constructor
    case made =>
      rcases hentered with ⟨-, hframe, hpush, -⟩ | ⟨-, rfl, rfl⟩
      · rw [hframe, hpush]
        exact Nat.lt_succ_self _
      · exact hmade
    case alone =>
      intro r hr hmodule
      obtain rfl := Option.some.inj (hget.symm.trans hr)
      rw [Record.kind_withId, Declaration.kind_bare] at hmodule
      cases d <;> cases hmodule
    case present => exact ⟨_, hget⟩
    case own =>
      intro r list hr hlist
      obtain rfl := Option.some.inj (hget.symm.trans hr)
      have hopens := Record.opensScope_of_typeParameters? hlist
      rw [Record.kind_withId, Declaration.kind_bare] at hopens
      rcases hentered with ⟨-, hframe, -, hunbound⟩ | ⟨hcloses, -⟩
      · refine ⟨?_, hunbound, fun other hmem => ⟨?_, ?_⟩⟩
        · cases d <;> cases hlist <;> rfl
        · rintro hplace
          obtain ⟨r, hold⟩ := h.present hmem
          rw [← hplace, Record.get?_concat howner, hempty] at hold
          cases hold
        · have hbelow := h.made hmem
          rw [hframe, hframes]
          exact Nat.ne_of_gt hbelow
      · rw [hcloses] at hopens
        cases hopens
  | closed draft rest hdrafts =>
    exact hsame rfl rfl (Or.inl (hdrafts ▸ List.suffix_cons draft rest))
  | typeParametersAdded draft rest r r' old parameters handles workspace hdrafts hrecord hold
      hdeclared hnew =>
    have hsize := Workspace.size_frames_declareTypeParameters s.workspace draft.scope parameters
    rw [hdeclared] at hsize
    exact hgrow (Nat.le_of_eq hsize.symm) Or.inl (Or.inl List.suffix_rfl)
  | unchanged => exact h
  | edited => exact hsame rfl rfl (Or.inl List.suffix_rfl)

end OwnFrames

theorem Begins.ownFrames (hstart : start.Begins) : OwnFrames start := by
  rcases hstart with ⟨w, p, rfl⟩ | ⟨w, m, rfl⟩
  · constructor <;> simp [ofProgram]
  · constructor
    case made => simp [ofModule, Workspace.root]
    case modules => simp [ofModule]
    case present => simp [ofModule]
    case apart => simp [ofModule]
    case bound =>
      intro draft r list hmem hget hlist
      obtain rfl := List.mem_singleton.mp hmem
      obtain rfl := Option.some.inj hget
      cases hlist

/-- **Records with type parameters have frames of their own, after every run.** -/
theorem ownFrames_of_run? (hstart : start.Begins) (hrun : start.run? steps = some s) :
    OwnFrames s :=
  invariant_of_run? hstart.ownFrames (fun h hadvance => h.advance hadvance) hrun

/-- Of the type parameters of an open record, its scope finds under each name the last. -/
theorem OwnFrames.exists_lookup_eq (h : OwnFrames s) (hmem : draft ∈ s.drafts)
    (hrecord : s.record? draft.place = some r) {list : Option (List TypeHandle)}
    (hlist : r.typeParameters? = some list) {declared : TypeHandle}
    (hdeclared : declared ∈ list.getD []) :
    ∃ last, (list.getD []).reverse.find? (·.display = declared.display) = some last ∧
      s.workspace.lookup draft.scope declared.display = some last := by
  have hsome : ((list.getD []).reverse.find? (·.display = declared.display)).isSome :=
    List.find?_isSome.mpr ⟨declared, List.mem_reverse.mpr hdeclared, by simp⟩
  obtain ⟨last, hlast⟩ := Option.isSome_iff_exists.mp hsome
  exact ⟨last, hlast, Workspace.lookup_of_localBinding?
    ((h.bound hmem hrecord hlist declared.display).trans hlast)⟩

/-! ## 4. All of it -/

/-- What is in a log was done at some moment of the run. -/
theorem exists_of_mem_log {α : Type} {event : Session → Step → Option α} {x : α}
    (hmem : x ∈ start.log event steps) : ∃ before step s, start.run? before = some s ∧
      (s.step? step).isSome ∧ event s step = some x := by
  induction steps generalizing start with
  | nil => cases hmem
  | cons first steps ih =>
    cases hstep : start.step? first with
    | none =>
      simp only [log, hstep] at hmem
      cases hmem
    | some next =>
      rw [log_cons hstep] at hmem
      rcases List.mem_append.mp hmem with hmem | hmem
      · exact ⟨[], first, start, rfl, by rw [hstep]; rfl, Option.mem_toList.mp hmem⟩
      · obtain ⟨before, step, s, hrun, hdone, hevent⟩ := ih hmem
        exact ⟨first :: before, step, s, by rw [run?_cons, hstep]; exact hrun, hdone, hevent⟩

/-- **Lists can be given at once or in parts.**

    Whatever is collected, interfaces or type parameters, a list that is added at once leaves
    the session the same as its two parts in turn.  It can be added exactly if the innermost
    record collects such.

    Over a run, a record that was not there at first has collected all that was given to it, in
    the order of the calls, as it was taken at that moment (`Gathering.stored`): references as
    they were resolved, type parameters as handles.  Names and handles are then as the call has
    left them.  The record has no list as long as nothing was given, and never an empty one.

    In a session from the beginning, each list of type parameters was declared as
    `Workspace.TypeParametersDeclared` says, and the scope of an open record finds under the
    name of a type parameter the last that is shown under this name. -/
theorem collections_gather :
    (∀ (c : Collection) (s : Session) (first second : List c.Given),
      s.step? (c.add (first ++ second)) =
        (s.step? (c.add first)).bind (·.step? (c.add second))) ∧
    (∀ (c : Collection) (s : Session) (given : List c.Given), (s.step? (c.add given)).isSome ↔
      ∃ draft r list, s.current? = some (draft, r) ∧ r.collection? c = some list) ∧
    (∀ (c : Collection) (s s' : Session) (step : Step) (q : Place) (call : Gathering c),
      s.step? step = some s' → gathering? c q s step = some call → s'.workspace = call.after) ∧
    (∀ (c : Collection) (start s : Session) (steps : List Step) (q : Place) (r : Record)
      (list : Option (List c.Item)), start.run? steps = some s → start.root.get? q = none →
      s.root.get? q = some r → r.collection? c = some list → Gathered start steps q c list) ∧
    (∀ (start s : Session) (steps : List Step), start.Begins → start.run? steps = some s →
      (∀ (q : Place), ∀ call ∈ start.log (gathering? .typeParameters q) steps,
        Workspace.TypeParametersDeclared call.workspace call.scope call.given call.stored
          call.after) ∧
      ∀ (draft : Draft) (r : Record) (list : Option (List TypeHandle)), draft ∈ s.drafts →
        s.record? draft.place = some r → r.typeParameters? = some list →
        ∀ declared ∈ list.getD [], ∃ last,
          (list.getD []).reverse.find? (·.display = declared.display) = some last ∧
          s.workspace.lookup draft.scope declared.display = some last) := by
  refine ⟨fun c s => s.step?_add_append c, fun c s => s.isSome_step?_add c,
    fun c s s' step q call hstep hcall => workspace_of_gathering? hstep hcall, ?_, ?_⟩
  · intro c start s steps q r list hrun hnew hget hlist
    exact gathered hrun hnew hget hlist
  · intro start s steps hstart hrun
    refine ⟨fun q call hmem => ?_, fun draft r list hmem hrecord hlist declared hdeclared =>
      (ownFrames_of_run? hstart hrun).exists_lookup_eq hmem hrecord hlist hdeclared⟩
    obtain ⟨before, step, u, hbefore, -, hcall⟩ := exists_of_mem_log hmem
    obtain ⟨draft, rest, given, hdrafts, -, -, rfl⟩ := gathering?_eq_some_iff.mp hcall
    have hopen : draft ∈ u.drafts := hdrafts ▸ List.mem_cons_self
    exact Workspace.typeParametersDeclared ((ownFrames_of_run? hstart hbefore).made hopen) given

/-- A class that is given type parameters and interfaces in several calls, among them a name
    three times, a handle, and nothing. -/
theorem collections_gather_box :
    ∃ s u draft r handles references steps call,
      steps = [.openModule "app", .declare (.class "Base"), .close, .declare (.class "Box"),
        .addTypeParameters [.name "T", .name "T"], .addImplements [],
        .addImplements [.bare (.name "Base"), .bare (.name "T")],
        .addTypeParameters [.handle ⟨1, "app::Base"⟩, .name "U", .name "T"],
        .addImplements [.bare (.name "T")]] ∧
      (ofProgram ∅ {}).run? steps = some s ∧ s.current? = some (draft, r) ∧
      r.collection? .typeParameters = some (some handles) ∧
      handles = [⟨3, "T"⟩, ⟨4, "T"⟩, ⟨1, "app::Base"⟩, ⟨5, "U"⟩, ⟨6, "T"⟩] ∧
      r.collection? .implemented = some (some references) ∧
      references.map TypeReference.identifier =
        [.handle ⟨1, "app::Base"⟩, .handle ⟨4, "T"⟩, .handle ⟨6, "T"⟩] ∧
      s.step? (.addTypeParameters ([.name "K"] ++ [.name "K"])) = some u ∧
      (s.step? (.addTypeParameters [.name "K"])).bind
        (·.step? (.addTypeParameters [.name "K"])) = some u ∧
      gathering? .typeParameters draft.place s (.addTypeParameters [.name "K", .name "K"]) =
        some call ∧ u.workspace = call.after ∧
      Gathered (ofProgram ∅ {}) steps draft.place .typeParameters (some handles) ∧
      Gathered (ofProgram ∅ {}) steps draft.place .implemented (some references) ∧
      (∀ call ∈ (ofProgram ∅ {}).log (gathering? .typeParameters draft.place) steps,
        Workspace.TypeParametersDeclared call.workspace call.scope call.given call.stored
          call.after) ∧
      s.workspace.lookup draft.scope "T" = some ⟨6, "T"⟩ := by
  obtain ⟨s, u, draft, r, handles, references, steps, call, hsteps, hrun, hcurrent, hhandles, hshown,
      hreferences, hresolved, hstep, hcall, hnew⟩ :
      ∃ s u draft r handles references steps call,
      steps = [.openModule "app", .declare (.class "Base"), .close, .declare (.class "Box"),
        .addTypeParameters [.name "T", .name "T"], .addImplements [],
        .addImplements [.bare (.name "Base"), .bare (.name "T")],
        .addTypeParameters [.handle ⟨1, "app::Base"⟩, .name "U", .name "T"],
        .addImplements [.bare (.name "T")]] ∧
      (ofProgram ∅ {}).run? steps = some s ∧ s.current? = some (draft, r) ∧
      r.collection? .typeParameters = some (some handles) ∧
      handles = [⟨3, "T"⟩, ⟨4, "T"⟩, ⟨1, "app::Base"⟩, ⟨5, "U"⟩, ⟨6, "T"⟩] ∧
      r.collection? .implemented = some (some references) ∧
      references.map TypeReference.identifier =
        [.handle ⟨1, "app::Base"⟩, .handle ⟨4, "T"⟩, .handle ⟨6, "T"⟩] ∧
      s.step? (.addTypeParameters ([.name "K"] ++ [.name "K"])) = some u ∧
      gathering? .typeParameters draft.place s (.addTypeParameters [.name "K", .name "K"]) =
        some call ∧
      (ofProgram ∅ {}).root.get? draft.place = none :=
    ⟨_, _, _, _, _, _, _, _, rfl, rfl, rfl, rfl, by decide +kernel, rfl, by decide +kernel, rfl, rfl,
      rfl⟩
  obtain ⟨rest, hdrafts, hrecord⟩ := current?_eq_some_iff.mp hcurrent
  have hmem : draft ∈ s.drafts := hdrafts ▸ List.mem_cons_self
  obtain ⟨happend, -, hworkspace, hgathered, hdeclared⟩ := collections_gather
  obtain ⟨hcalls, hlookup⟩ := hdeclared _ s steps (Or.inl ⟨∅, {}, rfl⟩) hrun
  obtain ⟨last, hlast, hfound⟩ := hlookup draft r (some handles) hmem hrecord hhandles ⟨6, "T"⟩
    (by simp [hshown])
  obtain rfl : last = ⟨6, "T"⟩ := by
    rw [hshown] at hlast
    exact (Option.some.inj hlast).symm
  exact ⟨s, u, draft, r, handles, references, steps, call, hsteps, hrun, hcurrent, hhandles, hshown,
    hreferences, hresolved, hstep,
    (happend .typeParameters s [.name "K"] [.name "K"]).symm.trans hstep, hcall,
    hworkspace .typeParameters s u _ draft.place call hstep hcall,
    hgathered .typeParameters _ s steps draft.place r _ hrun hnew hrecord hhandles,
    hgathered .implemented _ s steps draft.place r _ hrun hnew hrecord hreferences,
    hcalls draft.place, hfound⟩

end Session

end Declarations
