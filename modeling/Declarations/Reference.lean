/-
  Declarations/Reference.lean
  ===========================
  **Type references, e.g. `Map<K, User>`.**

  A reference is an identifier and, unless it is used bare, a list of type
  arguments, which are references again.  The identifier is a name that nothing
  has resolved, or the handle of a declared type.  `Map` and `Map<>` differ: the
  one has no list of arguments, the other an empty one.

  * Equality follows the tree and compares handles by identity, so two equal
    references may show different display names.
  * Hashing feeds the hasher the `TypeReference.marks` of the tree, in which the
    display names do not occur either.
  * `TypeReference.resolve` replaces names by handles from the root downwards
    and stops wherever there is nothing to replace: below a name that is not
    found, and below a handle, all is kept as it was written.
-/
import Declarations.Kind
import Declarations.Handle

namespace Declarations

/-! ### Identifiers -/

/-- What a reference points at. -/
inductive TypeIdentifier where
  | name (text : String)         -- not resolved: an external or unknown type
  | handle (handle : TypeHandle) -- a declared type
deriving DecidableEq, Repr, BEq

namespace TypeIdentifier

/-- The name, if the identifier is not resolved. -/
def name? : TypeIdentifier → Option String
  | .name text => some text
  | .handle _ => none

/-- The handle, if the identifier is resolved. -/
def handle? : TypeIdentifier → Option TypeHandle
  | .name _ => none
  | .handle declared => some declared

/-- Whether the identifier is a handle. -/
def isResolved (identifier : TypeIdentifier) : Bool := identifier.handle?.isSome

/-- The name that diagnostics use. -/
def display : TypeIdentifier → String
  | .name text => text
  | .handle declared => declared.display

end TypeIdentifier

/-! ### References -/

/-- A use of a type. -/
structure TypeReference where
  identifier : TypeIdentifier
  arguments : Option (List TypeReference)
deriving Repr

namespace TypeReference

/-- A reference without type arguments. -/
def bare (identifier : TypeIdentifier) : TypeReference := ⟨identifier, none⟩

/-- A reference applied to a list of type arguments, which may be empty. -/
def applied (identifier : TypeIdentifier) (arguments : List TypeReference) : TypeReference :=
  ⟨identifier, some arguments⟩

/-- The kind of every reference. -/
def kind (_ : TypeReference) : Kind := .type

/-- Whether a reference points at a declared type. -/
def refersTo (reference : TypeReference) (handle : TypeHandle) : Bool :=
  reference.identifier.handle? == some handle

/-! ### Equality -/

mutual

/-- Equality of references: the same tree, the same names, handles of the same
    identity. -/
def beq : TypeReference → TypeReference → Bool
  | ⟨i, as⟩, ⟨j, bs⟩ => i == j && beqArguments as bs

/-- Equality of what follows the identifier. -/
def beqArguments : Option (List TypeReference) → Option (List TypeReference) → Bool
  | none, none => true
  | some as, some bs => beqAll as bs
  | _, _ => false

/-- Equality of lists of references, in order. -/
def beqAll : List TypeReference → List TypeReference → Bool
  | [], [] => true
  | a :: as, b :: bs => beq a b && beqAll as bs
  | _, _ => false

end

instance : BEq TypeReference := ⟨beq⟩

/-! ### Hashing -/

/-- What a reference feeds a hasher, one item at a time. -/
inductive Mark where
  | name (text : String)
  | handle (id : Nat)
  | bare                     -- no list of arguments follows
  | applied (count : Nat)    -- the marks of this many arguments follow
deriving DecidableEq, Repr, Hashable

/-- The mark of an identifier. -/
def identifierMark : TypeIdentifier → Mark
  | .name text => .name text
  | .handle handle => .handle handle.id

mutual

/-- The marks of a reference, from the root downwards. -/
def marks : TypeReference → List Mark
  | ⟨identifier, arguments⟩ => identifierMark identifier :: marksOfArguments arguments

/-- The marks of what follows the identifier. -/
def marksOfArguments : Option (List TypeReference) → List Mark
  | none => [.bare]
  | some references => .applied references.length :: marksOfAll references

/-- The marks of the references of a list, in order. -/
def marksOfAll : List TypeReference → List Mark
  | [] => []
  | reference :: rest => marks reference ++ marksOfAll rest

end

instance : Hashable TypeReference := ⟨fun reference => hash reference.marks⟩

/-- How many different references a list holds. -/
def countDistinct (references : List TypeReference) : Nat := (Std.HashSet.ofList references).size

/-! ### Resolution -/

mutual

/-- Resolve a reference.  A name that `lookup` finds becomes its handle and the
    arguments are resolved in turn; anything else stays, its arguments included. -/
def resolve (lookup : String → Option TypeHandle) : TypeReference → TypeReference
  | ⟨.name text, arguments⟩ =>
    match lookup text with
    | some handle => ⟨.handle handle, resolveMany lookup arguments⟩
    | none => ⟨.name text, arguments⟩
  | ⟨.handle handle, arguments⟩ => ⟨.handle handle, arguments⟩

/-- Resolve each reference of a list that may be absent. -/
def resolveMany (lookup : String → Option TypeHandle) :
    Option (List TypeReference) → Option (List TypeReference)
  | none => none
  | some references => some (resolveAll lookup references)

/-- Resolve each reference of a list. -/
def resolveAll (lookup : String → Option TypeHandle) : List TypeReference → List TypeReference
  | [] => []
  | reference :: rest => resolve lookup reference :: resolveAll lookup rest

end

/-- A list is resolved reference by reference. -/
theorem resolveAll_eq_map (lookup : String → Option TypeHandle)
    (references : List TypeReference) :
    resolveAll lookup references = references.map (resolve lookup) := by
  induction references with
  | nil => rfl
  | cons reference rest ih => simp [resolveAll, ih]

/-- An absent list stays absent, any other is resolved reference by reference. -/
theorem resolveMany_eq_map (lookup : String → Option TypeHandle)
    (references : Option (List TypeReference)) :
    resolveMany lookup references = references.map (List.map (resolve lookup)) := by
  cases references with
  | none => rfl
  | some references => simp [resolveMany, resolveAll_eq_map]

end TypeReference

end Declarations
