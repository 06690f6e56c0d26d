/-
  Declarations/Proofs/Session/Setters.lean
  ========================================
  **Setting attributes.**

  A step that sets an attribute works on the record of the innermost draft and on this
  attribute alone (`Record.assign?`).  An absent value, and the empty name, are as good as
  no step at all.  A present value is stored as the draft's scope resolves it at that
  moment, and nothing resolves it again: what a record ends with is, attribute by attribute,
  the last present value that was given to it.

  `Session.SettersAct` says all of this of one session, and `settersAct` that it is true of
  every session, whatever led to it.
-/
import Declarations.Proofs.Session.History

namespace Declarations

/-! ## 1. Presence -/

/-- Only nothing and the empty name are absent. -/
theorem Attribute.filter_isPresent_eq_none_iff (a : Attribute) (value : Option a.Value) :
    value.filter a.isPresent = none ↔
      value = none ∨ (⟨a, value⟩ : (a : Attribute) × Option a.Value) = ⟨.name, some ""⟩ := by
  cases value with
  | none => simp
  | some given => cases a <;> simp [isPresent, Option.filter]

namespace Record

variable {lookup : String → Option TypeHandle} {r r' : Record} {a b : Attribute}

/-! ## 2. One record -/

/-- Set an attribute of a record: an absent value leaves it as it is. -/
def assign? (lookup : String → Option TypeHandle) (r : Record) (a : Attribute)
    (value : Option a.Value) : Option Record :=
  match value.filter a.isPresent with
  | none => (r.read? a).map fun _ => r
  | some given => r.write? a (some (a.resolve lookup given))

theorem assign?_keeps {value : Option a.Value} (h : r.assign? lookup a value = some r') :
    r'.outline = r.outline ∧ r'.child? = r.child? := by
  unfold assign? at h
  split at h
  next =>
    obtain ⟨-, -, rfl⟩ := Option.map_eq_some_iff.mp h
    exact ⟨rfl, rfl⟩
  next =>
    obtain ⟨houtline, -, hchildren, -⟩ := write?_keeps h
    exact ⟨houtline, hchildren⟩

/-- Whether there is an attribute can be asked before or after another one is written. -/
theorem write?_bind_read? (hne : a ≠ b) (r : Record) (x : Option b.Value) :
    (r.write? b x).bind (fun r' => (r'.read? a).map fun _ => r') =
      (r.read? a).bind fun _ => r.write? b x := by
  cases hwrite : r.write? b x with
  | none => simp
  | some r' =>
    rw [Option.bind_some, read?_of_write?_of_ne hwrite hne]
    cases r.read? a <;> rfl

/-- Different attributes can be set in either order. -/
theorem assign?_comm (hne : a ≠ b) (r : Record) (x : Option a.Value) (y : Option b.Value) :
    (r.assign? lookup a x).bind (·.assign? lookup b y) =
      (r.assign? lookup b y).bind (·.assign? lookup a x) := by
  unfold assign?
  cases x.filter a.isPresent with
  | none =>
    cases y.filter b.isPresent with
    | none => cases ha : r.read? a <;> cases hb : r.read? b <;> simp [ha, hb]
    | some given =>
      rw [write?_bind_read? hne, Option.bind_map]
      rfl
  | some value =>
    cases y.filter b.isPresent with
    | none =>
      rw [write?_bind_read? hne.symm, Option.bind_map]
      rfl
    | some given => exact write?_comm hne r _ _

/-! ## 3. One record of a root -/

variable {root r'' : Record} {place : Place}

theorem replace_self (h : root.get? place = some r) : root.replace place r = root := by
  induction place generalizing root with
  | nil => exact (Option.some.inj h).symm
  | cons slot rest ih =>
    obtain ⟨child, hchild, hrest⟩ := Option.bind_eq_some_iff.mp h
    simp only [replace, hchild]
    rw [ih hrest, put_self hchild]

theorem shallow_id : Shallow id := fun _ _ _ _ _ _ => id_put _ _ _

/-- Of two changes of a record the later counts. -/
theorem replace_replace (hget : root.get? place = some r) (hout : r'.outline = r.outline)
    (hchildren : r'.child? = r.child?) (hout' : r''.outline = r'.outline)
    (hchildren' : r''.child? = r'.child?) :
    (root.replace place r').replace place r'' = root.replace place r'' := by
  have hview : ∀ {α : Type} {f : Record → α}, Shallow f →
      ((root.replace place r').replace place r'').view f = (root.replace place r'').view f := by
    intro α f hf
    rw [view_replace_edited hf (get?_replace hget hout) hout' hchildren',
      view_replace_edited hf hget hout hchildren, Function.update_idem,
      view_replace_edited hf hget (hout'.trans hout) (hchildren'.trans hchildren)]
  exact eq_of_view_surface_eq (congrFun (hview shallow_surface)) (congrFun (hview shallow_id))

end Record

namespace Session

variable {s : Session} {draft : Draft} {r r' : Record} {a b : Attribute}

/-! ## 4. One session -/

theorem set?_eq_assign? (hcurrent : s.current? = some (draft, r)) (value : Option a.Value) :
    s.set? a value =
      (r.assign? (s.workspace.lookup draft.scope) a value).map (s.replace draft.place) := by
  obtain ⟨rest, hdrafts, hrecord⟩ := current?_eq_some_iff.mp hcurrent
  have hsame : s.replace draft.place r = s := by
    rw [replace, Record.replace_self hrecord]
  unfold set? Record.assign?
  rw [hcurrent, Option.bind_some]
  cases value.filter a.isPresent with
  | none => simp only [Option.map_map, Function.comp_def, hsame]
  | some given => rfl

theorem current?_replace (hcurrent : s.current? = some (draft, r))
    (hout : r'.outline = r.outline) :
    (s.replace draft.place r').current? = some (draft, r') := by
  obtain ⟨rest, hdrafts, hrecord⟩ := current?_eq_some_iff.mp hcurrent
  exact current?_eq_some_iff.mpr ⟨rest, hdrafts, Record.get?_replace hrecord hout⟩

/-- Setting two attributes changes the record twice, and the session once. -/
theorem run?_set_set (hcurrent : s.current? = some (draft, r)) (x : Option a.Value)
    (y : Option b.Value) : s.run? [.set a x, .set b y] =
      ((r.assign? (s.workspace.lookup draft.scope) a x).bind
        (·.assign? (s.workspace.lookup draft.scope) b y)).map (s.replace draft.place) := by
  obtain ⟨rest, hdrafts, hrecord⟩ := current?_eq_some_iff.mp hcurrent
  rw [run?_cons, show s.step? (.set a x) = s.set? a x from rfl, set?_eq_assign? hcurrent]
  cases hfirst : r.assign? (s.workspace.lookup draft.scope) a x with
  | none => rfl
  | some r₁ =>
    obtain ⟨hout, hchildren⟩ := Record.assign?_keeps hfirst
    have hsecond := set?_eq_assign? (current?_replace hcurrent hout) y
    rw [Option.map_some, Option.bind_some, Option.bind_some, run?_cons,
      show (s.replace draft.place r₁).step? (.set b y) = (s.replace draft.place r₁).set? b y from
        rfl, hsecond, show (s.replace draft.place r₁).workspace = s.workspace from rfl]
    cases hassign : r₁.assign? (s.workspace.lookup draft.scope) b y with
    | none => rfl
    | some r₂ =>
      obtain ⟨hout', hchildren'⟩ := Record.assign?_keeps hassign
      simp only [Option.map_some, Option.bind_some, run?_nil, replace,
        Record.replace_replace hrecord hout hchildren hout' hchildren']

theorem run?_set_comm (hne : a ≠ b) (s : Session) (x : Option a.Value) (y : Option b.Value) :
    s.run? [.set a x, .set b y] = s.run? [.set b y, .set a x] := by
  cases hcurrent : s.current? with
  | none =>
    have hnone : ∀ (a : Attribute) (value : Option a.Value), s.step? (.set a value) = none := by
      intro a value
      rw [show s.step? (.set a value) = s.set? a value from rfl, set?, hcurrent, Option.bind_none]
    rw [run?_cons, run?_cons, hnone, hnone, Option.bind_none, Option.bind_none]
  | some current =>
    obtain ⟨draft, r⟩ := current
    rw [run?_set_set hcurrent, run?_set_set hcurrent, Record.assign?_comm hne]

/-- What setting attributes does in a session. -/
structure SettersAct (s : Session) : Prop where
  -- after any run, each attribute of a record is the last present value that was given to
  -- it, resolved at that moment, or what it was
  lastWins {steps : List Step} {s' : Session} {q : Place} {r : Record} :
    s.run? steps = some s' → s.root.get? q = some r →
    ∃ r', s'.root.get? q = some r' ∧ ∀ a, r'.read? a = (r.read? a).map fun old =>
      ((s.log (setting? q) steps).filterMap (·.storedAs? a)).getLast?.or old
  -- nothing, and the empty name, change no part of the session
  absent {draft : Draft} {r : Record} {a : Attribute} {value : Option a.Value} :
    s.current? = some (draft, r) → (r.read? a).isSome →
    value = none ∨ (⟨a, value⟩ : (a : Attribute) × Option a.Value) = ⟨.name, some ""⟩ →
    s.step? (.set a value) = some s
  -- any other value is stored; of the record only the attribute changes, and of the session
  -- only the record
  present {draft : Draft} {r : Record} {a : Attribute} {old : Option a.Value} {value : a.Value} :
    s.current? = some (draft, r) → r.read? a = some old →
    (⟨a, some value⟩ : (a : Attribute) × Option a.Value) ≠ ⟨.name, some ""⟩ →
    ∃ r', s.step? (.set a (some value)) = some (s.replace draft.place r') ∧
      r'.read? a = some (some (a.resolve (s.workspace.lookup draft.scope) value)) ∧
      (∀ b, b ≠ a → r'.read? b = r.read? b) ∧ r'.write? a old = some r ∧
      ∀ q, q ≠ draft.place →
        (s.replace draft.place r').root.view Record.surface q = s.root.view Record.surface q ∧
        (s.replace draft.place r').root.view Record.id q = s.root.view Record.id q
  -- different attributes can be set in either order
  commute {a b : Attribute} (x : Option a.Value) (y : Option b.Value) : a ≠ b →
    s.run? [.set a x, .set b y] = s.run? [.set b y, .set a x]

theorem step?_set_of_absent (hcurrent : s.current? = some (draft, r)) (hhas : (r.read? a).isSome)
    {value : Option a.Value} (habsent : value.filter a.isPresent = none) :
    s.step? (.set a value) = some s := by
  obtain ⟨rest, hdrafts, hrecord⟩ := current?_eq_some_iff.mp hcurrent
  exact step?_of_advance (.unchanged a value habsent draft rest r hdrafts hrecord hhas)

theorem step?_set_of_present (hcurrent : s.current? = some (draft, r)) {old : Option a.Value}
    (hread : r.read? a = some old) {value : a.Value} (hpresent : a.isPresent value) :
    ∃ r', r.write? a (some (a.resolve (s.workspace.lookup draft.scope) value)) = some r' ∧
      s.step? (.set a (some value)) = some (s.replace draft.place r') := by
  obtain ⟨r', hwrite⟩ := Record.exists_write? hread
    (some (a.resolve (s.workspace.lookup draft.scope) value))
  refine ⟨r', hwrite, ?_⟩
  rw [show s.step? (.set a (some value)) = s.set? a (some value) from rfl,
    set?_eq_assign? hcurrent, Record.assign?, Option.filter_some, if_pos hpresent]
  exact congrArg (Option.map (s.replace draft.place)) hwrite

/-- **A setter writes one attribute of one record, and the last present value wins.** -/
theorem settersAct (s : Session) : s.SettersAct := by
  constructor
  case lastWins => exact read?_of_run?
  case absent =>
    intro draft r a value hcurrent hhas habsent
    exact step?_set_of_absent hcurrent hhas
      ((Attribute.filter_isPresent_eq_none_iff a value).mpr habsent)
  case present =>
    intro draft r a old value hcurrent hread hne
    obtain ⟨rest, hdrafts, hrecord⟩ := current?_eq_some_iff.mp hcurrent
    have hpresent : a.isPresent value := by
      by_contra habsent
      have hnone : (some value).filter a.isPresent = none := by
        rw [Option.filter_some, if_neg habsent]
      rcases (Attribute.filter_isPresent_eq_none_iff a _).mp hnone with h | h
      · cases h
      · exact hne h
    obtain ⟨r', hwrite, hstep⟩ := step?_set_of_present hcurrent hread hpresent
    obtain ⟨houtline, -, hchildren, -⟩ := Record.write?_keeps hwrite
    refine ⟨r', hstep, Record.read?_of_write? hwrite, fun b => Record.read?_of_write?_of_ne hwrite,
      Record.write?_restores hread hwrite, fun q hq => ⟨?_, ?_⟩⟩
    · exact (congrFun (Record.view_replace_edited Record.shallow_surface hrecord houtline hchildren)
        q).trans (Function.update_of_ne hq _ _)
    · exact (congrFun (Record.view_replace_edited Record.shallow_id hrecord houtline hchildren)
        q).trans (Function.update_of_ne hq _ _)
  case commute => exact fun x y hne => run?_set_comm hne s x y

/-- A method whose return type is set before and after its type parameter is declared, whose
    name is set to nothing and to the empty text, and whose parameter is named meanwhile. -/
theorem settersAct_method :
    ∃ s steps s' r', (ofProgram ∅ {}).run? [.openModule "app", .declare (.class "User"),
        .declare (.method (some "find"))] = some s ∧
      steps = [.set .returnType (some (.bare (.name "T"))), .set .isAsync (some true),
        .addTypeParameters [.name "T"], .set .returnType (some (.bare (.name "T"))),
        .set .name none, .declare (.parameter 0), .set .name (some "key"), .close,
        .set .isAsync (some false), .set .name (some "")] ∧
      s.run? steps = some s' ∧ s'.root.get? s.target = some r' ∧
      r'.read? .name = some (some "find") ∧
      (r'.read? .returnType).map (Option.map TypeReference.identifier) =
        some (some (.handle ⟨2, "T"⟩)) ∧
      r'.read? .isAsync = some (some false) ∧ r'.read? .isStatic = some none ∧
      s.run? [.set .name (some "key"), .set .isStatic none] =
        s.run? [.set .isStatic none, .set .name (some "key")] := by
  obtain ⟨s, steps, s', r, hopened, hsteps, hrun, hget, hname, hreturn, hasync, hstatic⟩ :
      ∃ s steps s' r, (ofProgram ∅ {}).run? [.openModule "app", .declare (.class "User"),
        .declare (.method (some "find"))] = some s ∧
      steps = [.set .returnType (some (.bare (.name "T"))), .set .isAsync (some true),
        .addTypeParameters [.name "T"], .set .returnType (some (.bare (.name "T"))),
        .set .name none, .declare (.parameter 0), .set .name (some "key"), .close,
        .set .isAsync (some false), .set .name (some "")] ∧
      s.run? steps = some s' ∧ s.root.get? s.target = some r ∧
      ((r.read? .name).map fun old => ((s.log (setting? s.target) steps).filterMap
        (·.storedAs? .name)).getLast?.or old) = some (some "find") ∧
      ((r.read? .returnType).map fun old => ((s.log (setting? s.target) steps).filterMap
        (·.storedAs? .returnType)).getLast?.or old).map (Option.map TypeReference.identifier) =
        some (some (.handle ⟨2, "T"⟩)) ∧
      ((r.read? .isAsync).map fun old => ((s.log (setting? s.target) steps).filterMap
        (·.storedAs? .isAsync)).getLast?.or old) = some (some false) ∧
      ((r.read? .isStatic).map fun old => ((s.log (setting? s.target) steps).filterMap
        (·.storedAs? .isStatic)).getLast?.or old) = some none :=
    ⟨_, _, _, _, rfl, rfl, rfl, rfl, by decide +kernel, by decide +kernel,
      by decide +kernel, by decide +kernel⟩
  obtain ⟨r', hget', hread⟩ := (settersAct s).lastWins hrun hget
  rw [← hread] at hname hreturn hasync hstatic
  exact ⟨s, steps, s', r', hopened, hsteps, hrun, hget', hname, hreturn, hasync, hstatic,
    (settersAct s).commute _ _ (by decide)⟩

end Session

end Declarations
