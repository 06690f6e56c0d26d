/-
  Declarations/Proofs/Session/Constructors.lean
  =============================================
  **A constructor writes into its class.**

  A constructor has parameters of its own, but a property that is declared on it belongs to
  the class around it.  It does not matter on which of the two a property is declared: the
  session ends the same (`run?_property_of_constructor`).  So the properties of a class stand
  in the order in which they were declared, wherever that was (`Advance.propertyIds`).

  Only the first opening of a constructor makes it; all others find it there
  (`constructor_cases_of_run?`).
-/
import Declarations.Proofs.Session.ParameterCalls

namespace Declarations

/-- The class with one property more. -/
def Class.withProperty (c : Class) (name : Option String) (id : EntityId) : Class :=
  { c with properties := c.properties ++ [{ Property.named name with id }] }

namespace Record

variable {r child : Record} {slot : Slot} {d : Declaration} {name : Option String} {i : Nat}

/-! ## 1. Properties of a record -/

/-- The identifiers of the properties, in order. -/
def propertyIds (r : Record) : List EntityId := (r.properties?.getD []).map Property.id

theorem getElem?_propertyIds (r : Record) (i : Nat) :
    r.propertyIds[i]? = (r.child? (.property i)).map Record.id := by
  have hsame : ∀ ps : List Property,
      (ps.map Property.id)[i]? = (ps[i]?.map Record.property).map Record.id := by
    intro ps
    rw [List.getElem?_map, Option.map_map]
    rfl
  rcases r with _ | _ | e | _ | _ | _ | _
  case entry =>
    cases e with
    | «class» c => exact hsame c.properties
    | interface t => exact hsame t.properties
    | _ => rfl
  all_goals rfl

theorem slot_eq_of_slotFor?_property (h : r.slotFor? (.property name) = some slot) :
    slot = .property r.propertyIds.length := by
  rcases r with _ | _ | e | _ | _ | _ | _
  case entry => cases e <;> cases h <;> simp [propertyIds, properties?]
  all_goals cases h

theorem exists_eq_property_of_slotFor? (h : r.slotFor? d = some (.property i)) :
    ∃ name, d = .property name := by
  have hfor := isFor_of_slotFor? h
  cases d with
  | property name => exact ⟨name, rfl⟩
  | _ => simp [Slot.isFor, Declaration.kind] at hfor

theorem eq_constructor_of_slotFor? (h : r.slotFor? d = some .constructor) :
    d = .constructor := by
  have hfor := isFor_of_slotFor? h
  cases d with
  | constructor => rfl
  | _ => simp [Slot.isFor, Declaration.kind] at hfor

theorem slot_eq_of_slotFor?_constructor (h : r.slotFor? .constructor = some slot) :
    slot = .constructor := by
  rcases r with _ | _ | e | _ | _ | _ | _
  case entry => cases e <;> cases h; rfl
  all_goals cases h

end Record

namespace Session

open ParameterCall

variable {start s s' : Session} {step : Step} {steps : List Step} {q : Place} {r k : Record}
variable {c : Class} {name : Option String} {draft : Draft} {rest : List Draft} {id : EntityId}
variable {arguments : List ((a : Attribute) × Option a.Value)}

/-! ## 2. Two ways to declare a property -/

/-- A property that is declared on a class, or on its constructor, is appended to the class. -/
theorem step?_declare_property (hdrafts : s.drafts = draft :: rest)
    (hplace : (Declaration.property name).ownerPlace draft.place = q)
    (hclass : s.record? q = some (.class c)) :
    s.step? (.declare (.property name)) =
      some { s with
        root := s.root.replace q (.class (c.withProperty name s.lineage.next))
        lineage := (s.lineage.attach .property c.id).2
        drafts := ⟨q ++ [.property c.properties.length], draft.scope⟩ :: s.drafts } := by
  subst hplace
  have hempty : (Record.class c).child? (.property c.properties.length) = none := by
    simp [Record.child?]
  have hput : (Record.class c).put (.property c.properties.length)
      (((Declaration.property name).bare none).withId s.lineage.next) =
        .class (c.withProperty name s.lineage.next) := by
    rw [Class.withProperty, ← fillAt_length]
    rfl
  have hadvance := step?_of_advance (.childDeclared draft rest (.property name) (.class c) _ none
    s.workspace draft.scope s.workspace hdrafts hclass rfl hempty rfl rfl)
  rwa [hput] at hadvance

/-- A constructor that is there is opened, and nothing else happens. -/
theorem step?_declare_constructor {k : Constructor} (hcurrent : s.current? = some (draft, .class c))
    (hconstructor : c.constructor = some k) :
    s.step? (.declare .constructor) =
      some { s with drafts := ⟨draft.place ++ [.constructor], draft.scope⟩ :: s.drafts } := by
  obtain ⟨rest, hdrafts, hrecord⟩ := current?_eq_some_iff.mp hcurrent
  have hchild : (Record.class c).child? .constructor = some (.constructor k) := by
    rw [Record.child?, hconstructor, Option.map_some]
  exact step?_of_advance (.childReopened draft rest .constructor (.class c) (.constructor k) _
    hdrafts hrecord rfl hchild)

/-- The session with other drafts. -/
def withDrafts (s : Session) (drafts : List Draft) : Session := { s with drafts }

/-- The drafts around the innermost one have no part in the setting of attributes. -/
theorem step?_set_outer (hdrafts : s.drafts = draft :: rest) (outer : List Draft) (a : Attribute)
    (value : Option a.Value) :
    (s.withDrafts (draft :: outer)).step? (.set a value) =
        (s.step? (.set a value)).map (·.withDrafts (draft :: outer)) ∧
      ∀ s', s.step? (.set a value) = some s' → s'.drafts = draft :: rest := by
  have hcurrent' : (s.withDrafts (draft :: outer)).current? =
      (s.record? draft.place).map (draft, ·) := rfl
  cases hrecord : s.record? draft.place with
  | none =>
    rw [hrecord, Option.map_none] at hcurrent'
    have hcurrent : s.current? = none := by simp [current?, hdrafts, hrecord]
    simp [step?, set?, hcurrent, hcurrent']
  | some r =>
    rw [hrecord, Option.map_some] at hcurrent'
    have hcurrent := current?_eq_some_iff.mpr ⟨rest, hdrafts, hrecord⟩
    rw [step?, step?, set?_eq_assign? hcurrent, set?_eq_assign? hcurrent', Option.map_map]
    refine ⟨rfl, fun s' h => ?_⟩
    obtain ⟨r', -, rfl⟩ := Option.map_eq_some_iff.mp h
    exact hdrafts

/-- Whatever is set in the innermost record before it is closed, the drafts around it stay. -/
theorem run?_sets_close_outer (hdrafts : s.drafts = draft :: rest) (outer : List Draft)
    (arguments : List ((a : Attribute) × Option a.Value)) :
    (s.withDrafts (draft :: outer)).run? (sets arguments ++ [Step.close]) =
      (s.run? (sets arguments ++ [Step.close])).map (·.withDrafts outer) := by
  induction arguments generalizing s with
  | nil => simp [sets, step?, hdrafts, withDrafts]
  | cons argument arguments ih =>
    obtain ⟨hstep, hkept⟩ := step?_set_outer hdrafts outer argument.1 argument.2
    simp only [sets, List.map_cons, List.cons_append, run?_cons, hstep]
    cases hset : s.step? (.set argument.1 argument.2) with
    | none => rfl
    | some next => exact ih (hkept next hset)

theorem ownerPlace_of_class (hrecord : s.record? draft.place = some (.class c)) (d : Declaration) :
    d.ownerPlace draft.place = draft.place := by
  refine (d.ownerPlace_cases draft.place).resolve_right fun hplace => ?_
  -- no class is in the slot of a constructor
  rw [hplace] at hrecord
  have hfor := Record.isFor_of_get?_concat hrecord
  simp [Slot.isFor, Record.kind, Entry.kind] at hfor

theorem ownerPlace_property_concat (name : Option String) (place : Place) :
    (Declaration.property name).ownerPlace (place ++ [.constructor]) = place := by
  simp [Declaration.ownerPlace]

/-- **It does not matter whether a property is declared on a class or on its constructor.** -/
theorem run?_property_of_constructor {k : Constructor}
    (hcurrent : s.current? = some (draft, .class c)) (hconstructor : c.constructor = some k)
    (name : Option String) (arguments : List ((a : Attribute) × Option a.Value)) :
    s.run? (.declare .constructor :: .declare (.property name) ::
        (sets arguments ++ [.close, .close])) =
      s.run? (.declare (.property name) :: (sets arguments ++ [.close])) := by
  obtain ⟨rest, hdrafts, hrecord⟩ := current?_eq_some_iff.mp hcurrent
  let inner : Draft := ⟨draft.place ++ [.constructor], draft.scope⟩
  have hinner : (s.withDrafts (inner :: s.drafts)).drafts = inner :: s.drafts := rfl
  have hdeclaredInside :=
    step?_declare_property hinner (ownerPlace_property_concat name draft.place) hrecord
  -- what is declared is the same, and the constructor is open around it or not
  obtain ⟨declared, property, hdirect, hdeclared, hinside⟩ : ∃ declared property,
      s.step? (.declare (.property name)) = some declared ∧
      declared.drafts = property :: s.drafts ∧
      (s.withDrafts (inner :: s.drafts)).step? (.declare (.property name)) =
        some (declared.withDrafts (property :: inner :: s.drafts)) :=
    ⟨_, _, step?_declare_property hdrafts (ownerPlace_of_class hrecord _) hrecord, rfl,
      hdeclaredInside⟩
  have hreopened : s.step? (.declare .constructor) = some (s.withDrafts (inner :: s.drafts)) :=
    step?_declare_constructor hcurrent hconstructor
  have hself : declared.withDrafts (property :: s.drafts) = declared := by
    rw [← hdeclared]
    rfl
  have houter := run?_sets_close_outer hdeclared s.drafts arguments
  rw [hself] at houter
  rw [run?_cons, hreopened, Option.bind_some, run?_cons, hinside, Option.bind_some,
    List.append_cons, run?_append, run?_sets_close_outer hdeclared (inner :: s.drafts), run?_cons,
    hdirect, Option.bind_some]
  cases hdone : declared.run? (sets arguments ++ [.close]) with
  | none => rfl
  | some done =>
    rw [hdone] at houter
    exact houter.symm

theorem isSome_read?_property (p : Property) (a : Attribute) :
    ((Record.property p).read? a).isSome = ((Record.property {}).read? a).isSome := by
  cases a <;> rfl

/-- A class can be given a property, and attributes of it can be set. -/
theorem isSome_run?_declare_property (hcurrent : s.current? = some (draft, .class c))
    (name : Option String)
    (hhas : ∀ argument ∈ arguments, ((Record.property {}).read? argument.1).isSome) :
    (s.run? (.declare (.property name) :: (sets arguments ++ [.close]))).isSome := by
  obtain ⟨rest, hdrafts, hrecord⟩ := current?_eq_some_iff.mp hcurrent
  have houtline : ∀ name id, (Record.class (c.withProperty name id)).outline =
      (Record.class c).outline := fun _ _ => rfl
  have hproperty : (s.root.replace draft.place
      (.class (c.withProperty name s.lineage.next))).get?
        (draft.place ++ [.property c.properties.length]) =
      some (.property { Property.named name with id := s.lineage.next }) := by
    rw [Record.get?_concat (Record.get?_replace hrecord (houtline name s.lineage.next))]
    simp [Record.child?, Class.withProperty]
  obtain ⟨done, hsets, hdone, -⟩ := run?_sets (s := { s with
    root := s.root.replace draft.place (.class (c.withProperty name s.lineage.next))
    lineage := (s.lineage.attach .property c.id).2
    drafts := ⟨draft.place ++ [.property c.properties.length], draft.scope⟩ :: s.drafts })
    rfl hproperty fun argument hmem => by
      rw [isSome_read?_property]
      exact hhas argument hmem
  rw [run?_cons, step?_declare_property hdrafts (ownerPlace_of_class hrecord _) hrecord,
    Option.bind_some, run?_append, hsets, Option.bind_some, run?_cons, step?, hdone]
  rfl

/-! ## 3. The order of properties -/

/-- The identifier of the property that a step declares in the class at a place, on the class
    itself or on its constructor. -/
def propertyAdded? (q : Place) (s : Session) : Step → Option EntityId
  | .declare (.property name) => s.drafts.head?.bind fun draft =>
    if (Declaration.property name).ownerPlace draft.place = q then some s.lineage.next else none
  | _ => none

theorem propertyAdded?_eq_some_iff : propertyAdded? q s step = some id ↔
    ∃ draft rest name, s.drafts = draft :: rest ∧ step = .declare (.property name) ∧
      (Declaration.property name).ownerPlace draft.place = q ∧ id = s.lineage.next := by
  unfold propertyAdded?
  split
  next name =>
    cases hdrafts : s.drafts with
    | nil => simp
    | cons draft rest =>
      by_cases hq : (Declaration.property name).ownerPlace draft.place = q
      · simp only [List.head?_cons, Option.bind_some, if_pos hq, Option.some.injEq]
        constructor
        · rintro hid
          exact ⟨draft, rest, name, rfl, rfl, hq, hid.symm⟩
        · rintro ⟨_, _, _, -, -, -, hid⟩
          exact hid.symm
      · simp only [List.head?_cons, Option.bind_some, if_neg hq, reduceCtorEq, false_iff]
        rintro ⟨_, _, _, hcons, hstep, hplace, -⟩
        obtain ⟨rfl, rfl⟩ := List.cons.inj hcons
        obtain rfl := Declaration.property.inj (Step.declare.inj hstep)
        exact hq hplace
  next hother =>
    simp only [reduceCtorEq, false_iff]
    rintro ⟨_, _, name, -, rfl, -⟩
    exact hother name rfl

/-- The properties change only by gaining the one that is declared, at the end. -/
theorem Advance.propertyIds (hadvance : s.Advance step s') (hget : s.root.get? q = some r) :
    ∃ r', s'.root.get? q = some r' ∧ r'.propertyIds =
      (propertyAdded? q s step).toList.foldl (fun ids id => ids ++ [id]) r.propertyIds := by
  obtain ⟨r', hget', -⟩ := hadvance.exists_same_identity hget
  refine ⟨r', hget', ?_⟩
  -- position by position, in terms of what is at the place of a property
  have hread : ∀ i, r.propertyIds[i]? = s.root.view Record.id (q ++ [.property i]) := by
    intro i
    rw [Record.getElem?_propertyIds, Record.view, Record.get?_concat hget]
  have hread' : ∀ i, r'.propertyIds[i]? = s'.root.view Record.id (q ++ [.property i]) := by
    intro i
    rw [Record.getElem?_propertyIds, Record.view, Record.get?_concat hget']
  cases hadded : propertyAdded? q s step with
  | none =>
    refine List.ext_getElem? fun i => ?_
    rw [Option.toList_none, List.foldl_nil, hread, hread']
    refine hadvance.view_id_concat (fun path => by simp) fun owner d hdeclares => ?_
    obtain ⟨name, rfl⟩ := Record.exists_eq_property_of_slotFor? hdeclares.slot
    obtain ⟨draft, rest, hdrafts, hplace⟩ := hdeclares.drafts
    rw [propertyAdded?_eq_some_iff.mpr ⟨draft, rest, name, hdrafts, hdeclares.step, hplace, rfl⟩]
      at hadded
    cases hadded
  | some id =>
    obtain ⟨draft, rest, name, hdrafts, rfl, rfl, rfl⟩ := propertyAdded?_eq_some_iff.mp hadded
    obtain ⟨owner, slot, howner, hslot, hcases⟩ := hadvance.declare_cases hdrafts
    obtain rfl := Option.some.inj (hget.symm.trans howner)
    obtain rfl := Record.slot_eq_of_slotFor?_property hslot
    refine List.ext_getElem? fun i => ?_
    rw [Option.toList_some, List.foldl_cons, List.foldl_nil, hread']
    by_cases hi : i = r.propertyIds.length
    · subst hi
      rcases hcases with ⟨child, hchild, -⟩ | ⟨-, -, handle, hmade⟩
      · have hkind := (Record.kind_of_slotFor?_of_child? hslot hchild).2
        simp [Declaration.kind] at hkind
      · rw [List.getElem?_concat_length, Record.view, hmade, Option.map_some, Record.id_withId]
    · rw [hadvance.view_id_concat (fun path => by simp) fun owner d hdeclares => ?_, ← hread]
      · rcases Nat.lt_or_gt_of_ne hi with hlt | hgt
        · rw [List.getElem?_append_left hlt]
        · rw [List.getElem?_eq_none (Nat.le_of_lt hgt),
            List.getElem?_eq_none (by rw [List.length_append]; exact hgt)]
      · obtain rfl := Option.some.inj (hget.symm.trans hdeclares.here)
        obtain ⟨other, rfl⟩ := Record.exists_eq_property_of_slotFor? hdeclares.slot
        exact hi (Slot.property.inj (Record.slot_eq_of_slotFor?_property hdeclares.slot))

/-- No property is declared in a record that is not there. -/
theorem Advance.propertyAdded?_eq_none (hadvance : s.Advance step s')
    (hnew : s.root.get? q = none) : propertyAdded? q s step = none := by
  by_contra hadded
  obtain ⟨id, hadded⟩ := Option.ne_none_iff_exists'.mp hadded
  obtain ⟨draft, rest, name, hdrafts, rfl, rfl, -⟩ := propertyAdded?_eq_some_iff.mp hadded
  obtain ⟨owner, slot, howner, -⟩ := hadvance.declare_cases hdrafts
  cases hnew.symm.trans howner

/-! ## 4. Openings of a constructor -/

/-- The constructor that a step opens in the class at a place, and how many rows this adds to
    the lineage. -/
def constructorOpening? (q : Place) (s : Session) : Step → Option (EntityId × Nat)
  | .declare .constructor => s.drafts.head?.bind fun draft =>
    if draft.place = q then
      (s.step? (.declare .constructor)).bind fun s' =>
        (s'.record? (q ++ [.constructor])).map fun k =>
          (k.id, s'.lineage.size - s.lineage.size)
    else none
  | _ => none

theorem constructorOpening?_eq_none
    (hnot : ∀ draft rest, s.drafts = draft :: rest → draft.place = q → step ≠ .declare .constructor) :
    constructorOpening? q s step = none := by
  unfold constructorOpening?
  split
  next =>
    cases hdrafts : s.drafts with
    | nil => rfl
    | cons draft rest =>
      rw [List.head?_cons, Option.bind_some, if_neg]
      exact fun hq => hnot draft rest hdrafts hq rfl
  next => rfl

/-- The constructor is opened, and made and registered if it is not there; or it stays as
    it is. -/
theorem Advance.constructorOpening?_cases (hadvance : s.Advance step s') (q : Place) :
    (constructorOpening? q s step = none ∧
        s'.root.view Record.id (q ++ [.constructor]) =
          s.root.view Record.id (q ++ [.constructor])) ∨
      ∃ id, s'.root.view Record.id (q ++ [.constructor]) = some id ∧
        ((s.root.view Record.id (q ++ [.constructor]) = some id ∧
            constructorOpening? q s step = some (id, 0)) ∨
          (s.root.view Record.id (q ++ [.constructor]) = none ∧
            constructorOpening? q s step = some (id, 1))) := by
  by_cases hopened : ∃ draft rest, s.drafts = draft :: rest ∧ draft.place = q ∧
      step = .declare .constructor
  · obtain ⟨draft, rest, hdrafts, rfl, rfl⟩ := hopened
    obtain ⟨owner, slot, howner, hslot, hcases⟩ := hadvance.declare_cases hdrafts
    obtain rfl := Record.slot_eq_of_slotFor?_constructor hslot
    have hat : s.root.get? (draft.place ++ [.constructor]) = owner.child? .constructor :=
      Record.get?_concat howner _
    have hopening : constructorOpening? draft.place s (.declare .constructor) =
        (s'.record? (draft.place ++ [.constructor])).map fun k =>
          (k.id, s'.lineage.size - s.lineage.size) := by
      simp [constructorOpening?, hdrafts, step?_of_advance hadvance]
    right
    rcases hcases with ⟨child, hchild, hroot, hlineage⟩ | ⟨hempty, hlineage, handle, hmade⟩
    · rw [hchild] at hat
      refine ⟨child.id, ?_, Or.inl ⟨?_, ?_⟩⟩
      · rw [Record.view, hroot, hat, Option.map_some]
      · rw [Record.view, hat, Option.map_some]
      · rw [hopening, hlineage, Nat.sub_self, record?, hroot, hat, Option.map_some]
    · rw [hempty] at hat
      refine ⟨s.lineage.next, ?_, Or.inr ⟨?_, ?_⟩⟩
      · exact Record.view_eq_some_iff.mpr ⟨_, hmade, Record.id_withId _ _⟩
      · exact Record.view_eq_none_iff.mpr hat
      · rw [hopening, hlineage]
        refine (congrArg _ hmade).trans ?_
        simp [Lineage.attach, Lineage.size]
  · refine Or.inl ⟨constructorOpening?_eq_none fun draft rest hdrafts hq hstep =>
      hopened ⟨draft, rest, hdrafts, hq, hstep⟩, ?_⟩
    refine hadvance.view_id_concat (fun path => by simp) fun owner d hdeclares => hopened ?_
    obtain rfl := Record.eq_constructor_of_slotFor? hdeclares.slot
    obtain ⟨draft, rest, hdrafts, hplace⟩ := hdeclares.drafts
    exact ⟨draft, rest, hdrafts, hplace, hdeclares.step⟩

/-- Once a class has a constructor, this is the one that is opened, and nothing is added. -/
theorem constructor_of_run? (hrun : s.run? steps = some s')
    (hthere : s.root.view Record.id (q ++ [.constructor]) = some id) :
    s'.root.view Record.id (q ++ [.constructor]) = some id ∧
      ∃ n, s.log (constructorOpening? q) steps = List.replicate n (id, 0) := by
  induction steps generalizing s with
  | nil =>
    obtain rfl := Option.some.inj hrun
    exact ⟨hthere, 0, rfl⟩
  | cons step steps ih =>
    obtain ⟨next, hnext, hsteps⟩ := Option.bind_eq_some_iff.mp hrun
    rw [log_cons hnext]
    rcases (advance_of_step? hnext).constructorOpening?_cases q with ⟨hopening, hsame⟩ |
      ⟨opened, hopened, ⟨hthere', hopening⟩ | ⟨hempty, -⟩⟩
    · obtain ⟨hthere', n, hlog⟩ := ih hsteps (hsame.trans hthere)
      exact ⟨hthere', n, by rw [hopening, hlog]; rfl⟩
    · obtain rfl := Option.some.inj (hthere.symm.trans hthere')
      obtain ⟨hthere'', n, hlog⟩ := ih hsteps hopened
      exact ⟨hthere'', n + 1, by rw [hopening, hlog]; rfl⟩
    · cases hthere.symm.trans hempty

/-- **Only the first opening of a constructor makes it.** -/
theorem constructor_cases_of_run? (hrun : s.run? steps = some s')
    (hnew : s.root.view Record.id (q ++ [.constructor]) = none) :
    (s'.root.view Record.id (q ++ [.constructor]) = none ∧
        s.log (constructorOpening? q) steps = []) ∨
      ∃ id n, s'.root.view Record.id (q ++ [.constructor]) = some id ∧
        s.log (constructorOpening? q) steps = (id, 1) :: List.replicate n (id, 0) := by
  induction steps generalizing s with
  | nil =>
    obtain rfl := Option.some.inj hrun
    exact Or.inl ⟨hnew, rfl⟩
  | cons step steps ih =>
    obtain ⟨next, hnext, hsteps⟩ := Option.bind_eq_some_iff.mp hrun
    rw [log_cons hnext]
    rcases (advance_of_step? hnext).constructorOpening?_cases q with ⟨hopening, hsame⟩ |
      ⟨opened, hopened, ⟨hthere, -⟩ | ⟨-, hopening⟩⟩
    · rw [hopening]
      exact ih hsteps (hsame.trans hnew)
    · cases hnew.symm.trans hthere
    · obtain ⟨hthere, n, hlog⟩ := constructor_of_run? hsteps hopened
      exact Or.inr ⟨opened, n, hthere, by rw [hopening, hlog]; rfl⟩

/-! ## 5. Classes -/

/-- What a run has made of the members of a class that was not there before. -/
structure Constructed (start : Session) (steps : List Step) (s : Session) (q : Place) (c : Class) :
    Prop where
  -- the properties stand in the order of the calls, on the class or on its constructor
  properties : c.properties.map Property.id = start.log (propertyAdded? q) steps
  -- each is registered under the class
  propertyRows {p : Property} : p ∈ c.properties →
    s.lineage.kind? p.id = some .property ∧ s.lineage.parent? p.id = some c.id
  -- without a constructor, none was ever opened
  unopened : c.constructor = none → start.log (constructorOpening? q) steps = []
  -- the first opening made and registered the constructor, under the class; all others
  -- found it there
  opened {k : Constructor} : c.constructor = some k →
    ∃ n, start.log (constructorOpening? q) steps = (k.id, 1) :: List.replicate n (k.id, 0)
  constructorRow {k : Constructor} : c.constructor = some k →
    s.lineage.kind? k.id = some .constructor ∧ s.lineage.parent? k.id = some c.id
  -- its parameters come from all the openings
  parameters {k : Constructor} : c.constructor = some k →
    Accumulated start steps s (q ++ [.constructor]) (.constructor k) k.parameters

theorem constructed (hrun : start.run? steps = some s) (hnew : start.root.get? q = none)
    (hclass : s.root.get? q = some (.class c)) : Constructed start steps s q c := by
  have hbelow : start.root.get? (q ++ [.constructor]) = none := by
    rw [Record.get?_append, hnew, Option.bind_none]
  have henrolled := enrolled_of_run? hnew hrun
  have hclosed : (Record.class c).kind ≠ .module := by simp [Record.kind, Entry.kind]
  have hconstructor : s.root.get? (q ++ [.constructor]) = c.constructor.map .constructor :=
    Record.get?_concat hclass _
  have hat : s.root.view Record.id (q ++ [.constructor]) = c.constructor.map Constructor.id := by
    rw [Record.view, hconstructor, Option.map_map]
    rfl
  have hcases := constructor_cases_of_run? hrun (Record.view_eq_none_iff.mpr hbelow)
  rw [hat] at hcases
  constructor
  case properties =>
    obtain ⟨r, hfirst, hids⟩ := exists_isNew_foldl_of_run? (fun h hget => h.propertyIds hget)
      (fun h hnew => h.propertyAdded?_eq_none hnew) hrun hnew hclass
    have hempty : r.propertyIds = [] := by
      cases hfirst with
      | module => rfl
      | declared d => cases d <;> rfl
    rw [hempty, List.foldl_append_eq_append, List.nil_append] at hids
    rw [show c.properties.map Property.id = (Record.class c).propertyIds from rfl, hids,
      ← List.flatMap_def, List.flatMap_singleton']
  case propertyRows =>
    intro p hmem
    obtain ⟨i, hi⟩ := List.mem_iff_getElem?.mp hmem
    have hget : s.root.get? (q ++ [.property i]) = some (.property p) := by
      rw [Record.get?_concat hclass, Record.child?, hi, Option.map_some]
    exact henrolled.rows hclass hclosed hget (by simp [Record.kind])
  case unopened =>
    intro hnone
    rcases hcases with ⟨-, hlog⟩ | ⟨id, n, hid, -⟩
    · exact hlog
    · simp [hnone] at hid
  case opened =>
    intro k hk
    rcases hcases with ⟨hnone, -⟩ | ⟨id, n, hid, hlog⟩
    · simp [hk] at hnone
    · rw [hk, Option.map_some] at hid
      exact ⟨n, Option.some.inj hid ▸ hlog⟩
  case constructorRow =>
    intro k hk
    rw [hk, Option.map_some] at hconstructor
    exact henrolled.rows hclass hclosed hconstructor (by simp [Record.kind])
  case parameters =>
    intro k hk
    rw [hk, Option.map_some] at hconstructor
    exact accumulated hrun hbelow hconstructor rfl

/-- In a session from the beginning, the row of a constructor under a class is that of its
    constructor. -/
theorem constructor_of_row (hstart : start.Begins) (hrun : start.run? steps = some s)
    (hsize : s.lineage.size ≤ EntityId.unassigned.raw) (hnew : start.root.get? q = none)
    (hclass : s.root.get? q = some (.class c)) (hkind : s.lineage.kind? id = some .constructor)
    (hparent : s.lineage.parent? id = some c.id) : c.constructor.map Constructor.id = some id := by
  have htracks := tracks_of_run? hstart hrun hsize
  obtain ⟨place, tag, hentered, htag, rfl⟩ :=
    htracks.mirrors.complete (Lineage.isRegistered_of_kind? hkind)
  obtain ⟨k, hget, rfl⟩ := exists_get?_of_tags htag
  have hconstructor : k.kind = .constructor :=
    Option.some.inj ((htracks.mirrors.kind?_eq hentered htag).symm.trans hkind)
  -- the record is in a class, which is the one with this identifier
  rcases place.eq_nil_or_concat with rfl | ⟨above, slot, rfl⟩
  · obtain rfl := Option.some.inj hget
    rcases htracks.kind_root hstart with hroot | hroot <;> cases hroot.symm.trans hconstructor
  rw [List.concat_eq_append] at hentered htag hget
  obtain rfl : slot = .constructor := by
    have hfor := Record.isFor_of_get?_concat hget
    rw [hconstructor] at hfor
    cases slot <;> simp [Slot.isFor] at hfor
    rfl
  obtain ⟨owner, howner⟩ := Record.exists_get?_of_append hget
  have hchild := (Record.get?_concat howner .constructor).symm.trans hget
  obtain ⟨c', rfl⟩ := Record.exists_eq_class_of_child? hchild
  have hentered' : Entered start.tags s.tags above := by
    rcases htracks.above hentered with h | ⟨path, -, rfl⟩
    · exact h
    · have hfor : (Slot.module path).isFor (Record.class c').kind :=
        Record.isFor_of_get?_concat (show s.root.get? ([] ++ [.module path]) = _ from howner)
      simp [Slot.isFor, Record.kind, Entry.kind] at hfor
  obtain ⟨-, ownerTag, hownerTag, hlinked⟩ := htracks.mirrors.linked hentered htag
  obtain rfl := Option.some.inj ((tags_eq_some howner).symm.trans hownerTag)
  obtain rfl := htracks.mirrors.unique hentered' (entered_of_get? hnew hclass)
    (tags_eq_some howner) (tags_eq_some hclass) (Option.some.inj (hlinked.symm.trans hparent))
  cases howner.symm.trans hclass
  obtain ⟨k', hk', rfl⟩ := Option.map_eq_some_iff.mp hchild
  rw [hk']
  rfl

/-- **The way through a constructor and the way through its class agree.**

    With a class open that has a constructor: a property that is declared on the constructor,
    with attributes of it set, makes the same session as one that is declared on the class.
    Asked for its constructor again, the class opens the one that it has, and nothing else
    happens.

    So of a class that was not there at first, whatever was done since on the class and on
    its constructor: the properties stand in the order of the calls, the constructor was made
    and registered once, and its parameters come from all the openings.  In a session from the
    beginning no other constructor is registered under the class. -/
theorem constructor_agrees_with_class :
    (∀ (s : Session) (draft : Draft) (c : Class) (k : Constructor),
      s.current? = some (draft, .class c) → c.constructor = some k →
      (∀ (name : Option String) (arguments : List ((a : Attribute) × Option a.Value)),
        s.run? (.declare .constructor :: .declare (.property name) ::
            (sets arguments ++ [.close, .close])) =
          s.run? (.declare (.property name) :: (sets arguments ++ [.close])) ∧
        ((∀ argument ∈ arguments, ((Record.property {}).read? argument.1).isSome) →
          (s.run? (.declare (.property name) :: (sets arguments ++ [.close]))).isSome)) ∧
      s.step? (.declare .constructor) =
        some { s with drafts := ⟨draft.place ++ [.constructor], draft.scope⟩ :: s.drafts } ∧
      s.record? (draft.place ++ [.constructor]) = some (.constructor k)) ∧
    (∀ (start s : Session) (steps : List Step) (q : Place) (c : Class),
      start.run? steps = some s → start.root.get? q = none → s.root.get? q = some (.class c) →
      Constructed start steps s q c ∧
      (start.Begins → s.lineage.size ≤ EntityId.unassigned.raw → ∀ id,
        s.lineage.kind? id = some .constructor ∧ s.lineage.parent? id = some c.id ↔
          c.constructor.map Constructor.id = some id)) := by
  refine ⟨?paths, ?built⟩
  case paths =>
    intro s draft c k hcurrent hconstructor
    refine ⟨fun name arguments => ⟨run?_property_of_constructor hcurrent hconstructor name arguments,
      isSome_run?_declare_property hcurrent name⟩, step?_declare_constructor hcurrent hconstructor,
      ?_⟩
    obtain ⟨rest, hdrafts, hrecord⟩ := current?_eq_some_iff.mp hcurrent
    rw [record?, Record.get?_concat hrecord, Record.child?, hconstructor, Option.map_some]
  case built =>
    intro start s steps q c hrun hnew hclass
    have hconstructed := constructed hrun hnew hclass
    refine ⟨hconstructed, fun hstart hsize id => ⟨?_, ?_⟩⟩
    · rintro ⟨hkind, hparent⟩
      exact constructor_of_row hstart hrun hsize hnew hclass hkind hparent
    · intro hid
      obtain ⟨k, hk, rfl⟩ := Option.map_eq_some_iff.mp hid
      exact hconstructed.constructorRow hk

/-- A class whose properties are declared on itself and, in between, on its constructor, which
    is opened three times. -/
theorem constructor_agrees_with_class_user :
    ∃ s u draft c k user steps,
      (ofProgram ∅ {}).run? [.openModule "app", .declare (.class "User"), .declare .constructor,
        .close] = some s ∧
      s.current? = some (draft, .class c) ∧ c.constructor = some k ∧
      s.run? (.declare .constructor :: .declare (.property (some "name")) ::
          (sets [⟨.access, some .private⟩, ⟨.type, some (.bare (.name "User"))⟩] ++
            [.close, .close])) =
        s.run? (.declare (.property (some "name")) ::
          (sets [⟨.access, some .private⟩, ⟨.type, some (.bare (.name "User"))⟩] ++ [.close])) ∧
      (s.run? (.declare (.property (some "name")) ::
          (sets [⟨.access, some .private⟩, ⟨.type, some (.bare (.name "User"))⟩] ++
            [.close]))).isSome ∧
      steps = [.openModule "app", .declare (.class "User"), .declare (.property (some "id")),
        .close, .declare .constructor, .declare (.property (some "name")), .close,
        .declare (.parameter 0), .close, .close, .declare (.property (some "email")), .close,
        .declare .constructor, .declare (.parameter 1), .close, .declare (.property none), .close,
        .close, .declare .constructor] ∧
      (ofProgram ∅ {}).run? steps = some u ∧
      u.root.get? [.module "app", .entry 0] = some (.class user) ∧
      user.properties.map Property.id = [⟨3⟩, ⟨5⟩, ⟨7⟩, ⟨9⟩] ∧
      (ofProgram ∅ {}).log (constructorOpening? [.module "app", .entry 0]) steps =
        [(⟨4⟩, 1), (⟨4⟩, 0), (⟨4⟩, 0)] ∧
      Constructed (ofProgram ∅ {}) steps u [.module "app", .entry 0] user ∧
      ∀ id, u.lineage.kind? id = some .constructor ∧ u.lineage.parent? id = some user.id ↔
        user.constructor.map Constructor.id = some id := by
  obtain ⟨s, u, draft, c, k, user, steps, hopened, hcurrent, hconstructor, hsteps, hrun, hclass, hids,
      hlog, hsize⟩ : ∃ s u draft c k user steps,
      (ofProgram ∅ {}).run? [.openModule "app", .declare (.class "User"), .declare .constructor,
        .close] = some s ∧
      s.current? = some (draft, .class c) ∧ c.constructor = some k ∧
      steps = [.openModule "app", .declare (.class "User"), .declare (.property (some "id")),
        .close, .declare .constructor, .declare (.property (some "name")), .close,
        .declare (.parameter 0), .close, .close, .declare (.property (some "email")), .close,
        .declare .constructor, .declare (.parameter 1), .close, .declare (.property none), .close,
        .close, .declare .constructor] ∧
      (ofProgram ∅ {}).run? steps = some u ∧
      u.root.get? [.module "app", .entry 0] = some (.class user) ∧
      user.properties.map Property.id = [⟨3⟩, ⟨5⟩, ⟨7⟩, ⟨9⟩] ∧
      (ofProgram ∅ {}).log (constructorOpening? [.module "app", .entry 0]) steps =
        [(⟨4⟩, 1), (⟨4⟩, 0), (⟨4⟩, 0)] ∧
      u.lineage.size = 10 :=
    ⟨_, _, _, _, _, _, _, rfl, rfl, rfl, rfl, rfl, rfl, by decide +kernel, by decide +kernel, rfl⟩
  obtain ⟨hpaths, hbuilt⟩ := constructor_agrees_with_class
  obtain ⟨hsame, -, -⟩ := hpaths s draft c k hcurrent hconstructor
  obtain ⟨hequal, hsome⟩ := hsame (some "name")
    [⟨.access, some .private⟩, ⟨.type, some (.bare (.name "User"))⟩]
  obtain ⟨hconstructed, hrow⟩ := hbuilt _ u steps [.module "app", .entry 0] user hrun rfl hclass
  exact ⟨s, u, draft, c, k, user, steps, hopened, hcurrent, hconstructor, hequal, hsome (by decide),
    hsteps, hrun, hclass, hids, hlog, hconstructed,
    hrow (Or.inl ⟨∅, {}, rfl⟩) (by rw [hsize]; decide)⟩

end Session

end Declarations
