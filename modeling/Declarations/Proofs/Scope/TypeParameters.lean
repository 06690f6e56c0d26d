/-
  Declarations/Proofs/Scope/TypeParameters.lean
  =============================================
  **Lists of type parameters.**

  Type parameters are declared one after the other, so a list of them is declared at once or
  in parts with the same result (`declareTypeParameters_append`).  Each has one handle: the
  given one, or a new one shown under the given name, and the new ones are numbered in the
  order of the names (`getElem?_declareTypeParameters`).  Each is bound under the name that
  its handle is shown with, so of several with one name the last is found.
-/
import Declarations.Proofs.Scope.Frames

namespace Declarations

/-- The handle of a type parameter, if so many handles are minted before it. -/
def TypeIdentifier.handleAfter (minted : Nat) : TypeIdentifier → TypeHandle
  | .name text => ⟨minted + 1, text⟩
  | .handle declared => declared

namespace Workspace

variable {w w' : Workspace} {scope : Scope} {given : List TypeIdentifier}
variable {handles : List TypeHandle} {name : String}

/-! ## 1. Parts of a list -/

theorem declareTypeParameters_append (w : Workspace) (scope : Scope)
    (first second : List TypeIdentifier) :
    w.declareTypeParameters scope (first ++ second) =
      let (handles, w) := w.declareTypeParameters scope first
      let (handles', w) := w.declareTypeParameters scope second
      (handles ++ handles', w) := by
  induction first generalizing w with
  | nil => rfl
  | cons parameter first ih => simp only [List.cons_append, declareTypeParameters, ih]

/-! ## 2. One handle for each -/

theorem declareTypeParameter_fst (w : Workspace) (scope : Scope) (parameter : TypeIdentifier) :
    (w.declareTypeParameter scope parameter).1 = parameter.handleAfter w.minted.size := by
  cases parameter <;> rfl

theorem declareTypeParameter_minted (w : Workspace) (scope : Scope) (parameter : TypeIdentifier) :
    (w.declareTypeParameter scope parameter).2.minted =
      w.minted ++ parameter.name?.toList.toArray := by
  cases parameter with
  | name text => exact Array.push_eq_append
  | handle declared => exact (Array.append_empty).symm

/-- Handles are minted for the names, in order. -/
theorem declareTypeParameters_minted (w : Workspace) (scope : Scope)
    (given : List TypeIdentifier) :
    (w.declareTypeParameters scope given).2.minted =
      w.minted ++ (given.filterMap TypeIdentifier.name?).toArray := by
  induction given generalizing w with
  | nil => exact (Array.append_empty).symm
  | cons parameter given ih =>
    have hrest := ih (w.declareTypeParameter scope parameter).2
    rw [declareTypeParameter_minted, Array.append_assoc] at hrest
    refine hrest.trans ?_
    rw [List.filterMap_cons]
    cases parameter <;> simp [TypeIdentifier.name?]

theorem length_declareTypeParameters (w : Workspace) (scope : Scope)
    (given : List TypeIdentifier) :
    (w.declareTypeParameters scope given).1.length = given.length := by
  induction given generalizing w with
  | nil => rfl
  | cons parameter given ih => exact congrArg (· + 1) (ih _)

theorem getElem?_declareTypeParameters (w : Workspace) (scope : Scope)
    (given : List TypeIdentifier) (i : Nat) :
    (w.declareTypeParameters scope given).1[i]? = given[i]?.map
      (·.handleAfter (w.minted.size + ((given.take i).filterMap TypeIdentifier.name?).length)) := by
  induction given generalizing w i with
  | nil => rfl
  | cons parameter given ih =>
    rw [declareTypeParameters]
    cases i with
    | zero =>
      simp [declareTypeParameter_fst]
    | succ i =>
      rw [List.getElem?_cons_succ, List.getElem?_cons_succ, ih, declareTypeParameter_minted,
        List.take_succ_cons, List.filterMap_cons]
      cases parameter <;> simp [TypeIdentifier.name?, Nat.add_assoc, Nat.add_comm 1]

/-- What it means that a list of type parameters has been declared in a scope. -/
structure TypeParametersDeclared (w : Workspace) (scope : Scope) (given : List TypeIdentifier)
    (handles : List TypeHandle) (w' : Workspace) : Prop where
  -- one handle for each
  length : handles.length = given.length
  -- a handle is taken as it is
  taken {i : Nat} {declared : TypeHandle} : given[i]? = some (.handle declared) →
    handles[i]? = some declared
  -- for a name a handle is minted, which is shown as the name
  minted {i : Nat} {text : String} : given[i]? = some (.name text) → handles[i]? =
    some ⟨w.minted.size + ((given.take i).filterMap TypeIdentifier.name?).length + 1, text⟩
  -- no other handles are minted
  mints : w'.minted = w.minted ++ (given.filterMap TypeIdentifier.name?).toArray
  -- each is bound under the name it is shown with, over those before it
  bound (name : String) : w'.localBinding? scope name =
    (handles.reverse.find? (·.display = name)).or (w.localBinding? scope name)

theorem typeParametersDeclared (hmade : scope.frame < w.frames.size) (given : List TypeIdentifier) :
    TypeParametersDeclared w scope given (w.declareTypeParameters scope given).1
      (w.declareTypeParameters scope given).2 := by
  have hat := getElem?_declareTypeParameters w scope given
  constructor
  case length => exact length_declareTypeParameters w scope given
  case taken =>
    intro i declared hi
    rw [hat, hi, Option.map_some, TypeIdentifier.handleAfter]
  case minted =>
    intro i text hi
    rw [hat, hi, Option.map_some, TypeIdentifier.handleAfter]
  case mints => exact declareTypeParameters_minted w scope given
  case bound =>
    intro name
    rw [localBinding?, getElem?_bindings_declareTypeParameters hmade, if_pos rfl, localBinding?]

theorem lookup_of_localBinding? {declared : TypeHandle}
    (h : w.localBinding? scope name = some declared) : w.lookup scope name = some declared := by
  rw [localBinding?] at h
  rw [lookup, Scope.chain, List.findSome?_cons, h]

/-! ## 3. New frames -/

/-- A scope that is entered has a new frame, in which nothing is bound, or it is the
    surrounding one. -/
theorem enter_cases {kind : Kind} {surrounding : Scope}
    (henter : w.enter surrounding kind = (scope, w')) :
    (kind.opensScope ∧ scope.frame = w.frames.size ∧ w'.frames.size = w.frames.size + 1 ∧
        ∀ name, w'.localBinding? scope name = none) ∨
      (kind.opensScope = false ∧ scope = surrounding ∧ w' = w) := by
  unfold enter at henter
  cases hscope : kind.opensScope with
  | true =>
    rw [if_pos hscope] at henter
    obtain ⟨rfl, rfl⟩ := Prod.mk.inj henter
    refine Or.inl ⟨rfl, rfl, Array.size_push _, fun name => ?_⟩
    change ((w.fork surrounding).2.bindings w.frames.size)[name]? = none
    rw [bindings_fork, bindings_of_size_le (Nat.le_refl _), Std.ExtTreeMap.getElem?_empty]
  | false =>
    rw [if_neg (by simp [hscope])] at henter
    obtain ⟨rfl, rfl⟩ := Prod.mk.inj henter
    exact Or.inr ⟨rfl, rfl, rfl⟩

end Workspace

end Declarations
