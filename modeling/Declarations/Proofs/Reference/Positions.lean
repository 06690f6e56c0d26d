/-
  Declarations/Proofs/Reference/Positions.lean
  ============================================
  **Positions in a reference.**

  A position leads from the root of a reference down to one of its nodes: at each
  step it says which type argument to go on with.  In `Map<K, List<User>>` the root
  is `Map`, the node at `[1]` is `List` and the one at `[1, 0]` is `User`.

  What there is to see at a node is its identifier (`identifierAt?`) and how many
  arguments follow it (`arityAt?`), where no list of arguments and an empty one are
  told apart.
-/
import Declarations.Reference

namespace Declarations.TypeReference

/-- The numbers of the arguments to go on with, from the root downwards. -/
abbrev Position := List Nat

variable {reference argument : TypeReference} {index : Nat} {position : Position}

/-- One argument of a reference. -/
def argument? (reference : TypeReference) (index : Nat) : Option TypeReference :=
  reference.arguments.bind (·[index]?)

/-- The node at a position, with all below it. -/
def get? (reference : TypeReference) : Position → Option TypeReference
  | [] => some reference
  | index :: position => (reference.argument? index).bind fun argument => argument.get? position

@[simp] theorem get?_nil (reference : TypeReference) : reference.get? [] = some reference := rfl

theorem get?_cons (reference : TypeReference) (index : Nat) (position : Position) :
    reference.get? (index :: position) =
      (reference.argument? index).bind fun argument => argument.get? position := rfl

/-- The identifier at a position. -/
def identifierAt? (reference : TypeReference) (position : Position) : Option TypeIdentifier :=
  (reference.get? position).map identifier

/-- How many arguments follow the root: none without a list of arguments. -/
def arity (reference : TypeReference) : Option Nat := reference.arguments.map List.length

/-- How many arguments follow the node at a position. -/
def arityAt? (reference : TypeReference) (position : Position) : Option (Option Nat) :=
  (reference.get? position).map arity

theorem identifierAt?_cons (h : reference.argument? index = some argument) (position : Position) :
    reference.identifierAt? (index :: position) = argument.identifierAt? position := by
  rw [identifierAt?, get?_cons, h, Option.bind_some, identifierAt?]

theorem arityAt?_cons (h : reference.argument? index = some argument) (position : Position) :
    reference.arityAt? (index :: position) = argument.arityAt? position := by
  rw [arityAt?, get?_cons, h, Option.bind_some, arityAt?]

/-- A list of arguments has as many as its arity says. -/
theorem isSome_argument?_iff : (reference.argument? index).isSome ↔
    ∃ count, reference.arity = some count ∧ index < count := by
  rw [argument?, arity]
  cases reference.arguments <;> simp

theorem sizeOf_argument?_lt (h : reference.argument? index = some argument) :
    sizeOf argument < sizeOf reference := by
  obtain ⟨identifier, arguments⟩ := reference
  obtain ⟨references, rfl, hat⟩ := Option.bind_eq_some_iff.mp h
  have hlt := List.sizeOf_lt_of_mem (List.mem_of_getElem? hat)
  simp only [mk.sizeOf_spec, Option.some.sizeOf_spec]
  omega

/-- What holds of a reference as soon as it holds of all its arguments holds of every
    reference. -/
@[elab_as_elim]
theorem argument_induction {motive : TypeReference → Prop}
    (step : ∀ reference : TypeReference, (∀ index argument,
      reference.argument? index = some argument → motive argument) → motive reference)
    (reference : TypeReference) : motive reference :=
  step reference fun _ argument _ => argument_induction step argument
termination_by sizeOf reference
decreasing_by exact sizeOf_argument?_lt ‹_›

end Declarations.TypeReference
