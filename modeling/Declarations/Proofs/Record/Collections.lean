/-
  Declarations/Proofs/Record/Collections.lean
  ===========================================
  **Lists that a record collects.**

  A class collects the interfaces that it implements, an interface those that it extends, and
  whatever opens a scope its type parameters.  In each case there are items to give, what is
  collected of them, and a list that is absent until something is.  A `Collection` is one of
  the three, and what is true of all is said once, of any of them.
-/
import Declarations.Proofs.Record.Naming
import Declarations.Proofs.Scope.TypeParameters
import Declarations.Proofs.Session.Readings

namespace Declarations

/-! ## 1. Lists that are absent while empty -/

section

variable {α : Type}

theorem appendTo_append (list : Option (List α)) (first second : List α) :
    appendTo (appendTo list first) second = appendTo list (first ++ second) := by
  cases first <;> cases second <;> simp [appendTo]

/-- A list that was absent at first is never there without an element. -/
theorem appendTo_none (new : List α) : appendTo none new = if new = [] then none else some new := by
  cases new <;> rfl

end

/-! ## 2. The three collections -/

/-- A list that records collect. -/
inductive Collection where
  | implemented    -- the interfaces that a class implements
  | extended       -- the interfaces that an interface extends
  | typeParameters -- of a class, interface, function or method
deriving DecidableEq, Repr

namespace Collection

/-- What is given to be collected. -/
abbrev Given : Collection → Type
  | .implemented | .extended => TypeReference
  | .typeParameters => TypeIdentifier

/-- What is collected. -/
abbrev Item : Collection → Type
  | .implemented | .extended => TypeReference
  | .typeParameters => TypeHandle

/-- The step that adds to the collection. -/
def add : (c : Collection) → List c.Given → Step
  | .implemented, given => .addImplements given
  | .extended, given => .addExtends given
  | .typeParameters, given => .addTypeParameters given

/-- What a step gives to the collection, if it adds to it. -/
def given? : (c : Collection) → Step → Option (List c.Given)
  | .implemented, .addImplements given => some given
  | .extended, .addExtends given => some given
  | .typeParameters, .addTypeParameters given => some given
  | _, _ => none

/-- What is collected of what is given in a scope, and the workspace after it: a reference is
    resolved, a type parameter is declared. -/
def take : (c : Collection) → Workspace → Scope → List c.Given → List c.Item × Workspace
  | .implemented, w, scope, given => (given.map (w.resolve scope), w)
  | .extended, w, scope, given => (given.map (w.resolve scope), w)
  | .typeParameters, w, scope, given => w.declareTypeParameters scope given

theorem take_append (c : Collection) (w : Workspace) (scope : Scope) (first second : List c.Given) :
    c.take w scope (first ++ second) =
      let (items, w) := c.take w scope first
      let (items', w) := c.take w scope second
      (items ++ items', w) := by
  cases c with
  | implemented | extended => exact congrArg (·, w) List.map_append
  | typeParameters => exact w.declareTypeParameters_append scope first second

theorem length_take (c : Collection) (w : Workspace) (scope : Scope) (given : List c.Given) :
    (c.take w scope given).1.length = given.length := by
  cases c with
  | implemented | extended => exact List.length_map _
  | typeParameters => exact w.length_declareTypeParameters scope given

theorem given?_eq_some_iff {c : Collection} {step : Step} {given : List c.Given} :
    c.given? step = some given ↔ step = c.add given := by
  constructor
  · intro h
    cases c <;> cases step <;> cases h <;> rfl
  · rintro rfl
    cases c <;> rfl

end Collection

namespace Record

variable {c : Collection} {r r' : Record} {old new new' : Option (List c.Item)}

/-- The list that a record has collected, if it collects such. -/
def collection? (r : Record) : (c : Collection) → Option (Option (List c.Item))
  | .implemented => match r with
    | .class c => some c.implemented
    | _ => none
  | .extended => match r with
    | .interface i => some i.extended
    | _ => none
  | .typeParameters => r.typeParameters?

/-- The record with another list. -/
def withCollection? (r : Record) : (c : Collection) → Option (List c.Item) → Option Record
  | .implemented, list => match r with
    | .class c => some (.class { c with implemented := list })
    | _ => none
  | .extended, list => match r with
    | .interface i => some (.interface { i with extended := list })
    | _ => none
  | .typeParameters, list => r.withTypeParameters? list

theorem withCollection?_keeps (h : r.withCollection? c new = some r') :
    r'.outline = r.outline ∧ r'.child? = r.child? ∧ r'.collection? c = some new := by
  cases c with
  | typeParameters =>
    obtain ⟨houtline, -, hchildren, htypes⟩ := withTypeParameters?_keeps h
    exact ⟨houtline, hchildren, htypes⟩
  | _ =>
    rcases r with _ | _ | e | _ | _ | _ | _
    case entry =>
      cases e <;> cases h
      exact ⟨rfl, funext fun slot => by cases slot <;> rfl, rfl⟩
    all_goals cases h

theorem isSome_withCollection? (r : Record) (c : Collection) (new : Option (List c.Item)) :
    (r.withCollection? c new).isSome = (r.collection? c).isSome := by
  rcases r with _ | _ | e | _ | _ | _ | _
  case entry => cases e <;> cases c <;> rfl
  all_goals cases c <;> rfl

/-- Of two lists the later counts. -/
theorem withCollection?_withCollection? (h : r.withCollection? c new = some r')
    (new' : Option (List c.Item)) : r'.withCollection? c new' = r.withCollection? c new' := by
  rcases r with _ | _ | e | _ | _ | _ | _
  case entry => cases e <;> cases c <;> cases h <;> rfl
  all_goals cases c <;> cases h <;> rfl

theorem own_collection? (c : Collection) : Own (·.collection? c) := by
  constructor
  case put =>
    intro r slot child
    cases c with
    | typeParameters => exact typeParameters?_put r slot child
    | _ =>
      unfold put
      split <;> rfl
  case moduleId => exact fun m id => by cases c <;> rfl

theorem collection?_of_isNew (hnew : r.IsNew) (h : r.collection? c = some old) : old = none := by
  cases hnew with
  | module => cases c <;> cases h
  | declared d => cases d <;> cases c <;> cases h <;> rfl

theorem collection?_write? {a : Attribute} {x : Option a.Value} (h : r.write? a x = some r')
    (c : Collection) : r'.collection? c = r.collection? c := by
  cases c with
  | typeParameters => exact (write?_keeps h).2.2.2
  | _ =>
    rcases r with _ | _ | e | _ | _ | _ | _
    case entry => cases e <;> cases a <;> cases h <;> rfl
    all_goals cases a <;> cases h <;> rfl

theorem collection?_withTypeParameters? {handles : Option (List TypeHandle)}
    (h : r.withTypeParameters? handles = some r') (hc : c ≠ .typeParameters) :
    r'.collection? c = r.collection? c := by
  rcases r with _ | _ | e | _ | _ | _ | _
  case entry => cases e <;> cases h <;> cases c <;> first | rfl | exact absurd rfl hc
  case method => cases h; cases c <;> first | rfl | exact absurd rfl hc
  all_goals cases h

/-- A revision adds to a collection what it gives to it, and leaves the others. -/
theorem collection?_of_revise? {w : Workspace} {scope : Scope} {step : Step}
    (h : r.revise? (w.lookup scope) step = some r') (c : Collection) :
    (c.given? step = none ∧ r'.collection? c = r.collection? c) ∨
      ∃ given old, c.given? step = some given ∧ r.collection? c = some old ∧
        r'.collection? c = some (appendTo old (c.take w scope given).1) := by
  unfold revise? at h
  split at h
  case h_3 r a value =>
    obtain ⟨given, -, hwrite⟩ := Option.bind_eq_some_iff.mp h
    exact Or.inl ⟨by cases c <;> rfl, collection?_write? hwrite c⟩
  case h_4 given m =>
    obtain rfl := Option.some.inj h
    cases c with
    | implemented => exact Or.inr ⟨given, _, rfl, rfl, rfl⟩
    | _ => exact Or.inl ⟨rfl, rfl⟩
  case h_5 given i =>
    obtain rfl := Option.some.inj h
    cases c with
    | extended => exact Or.inr ⟨given, _, rfl, rfl, rfl⟩
    | _ => exact Or.inl ⟨rfl, rfl⟩
  case h_6 => cases h
  all_goals
    obtain rfl := Option.some.inj h
    exact Or.inl ⟨by cases c <;> rfl, by cases c <;> rfl⟩

end Record

end Declarations
