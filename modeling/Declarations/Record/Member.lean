/-
  Declarations/Record/Member.lean
  ===============================
  **Members of classes and interfaces: properties, methods, constructors.**

  Whatever a source text may leave out is an `Option`: a name (a computed member
  has none), a type, an access level, a flag.  `none` means that nothing was
  said, which is not the same as `some false`.
-/
import Declarations.Record.Parameter

namespace Declarations

/-- A property of a class or an interface. -/
structure Property where
  id : EntityId := .unassigned
  name : Option String := none
  type : Option TypeReference := none
  access : Option Access := none
  isStatic : Option Bool := none
  isOptional : Option Bool := none
  isReadonly : Option Bool := none
deriving BEq, Repr, Inhabited

/-- A property of which at most the name is known. -/
def Property.named (name : Option String) : Property := { name }

/-- A method of a class or an interface. -/
structure Method where
  id : EntityId := .unassigned
  name : Option String := none
  parameters : Parameters := ∅
  returnType : Option TypeReference := none
  typeParameters : Option (List TypeHandle) := none
  access : Option Access := none
  isStatic : Option Bool := none
  isAbstract : Option Bool := none
  isAsync : Option Bool := none
  isGenerator : Option Bool := none
deriving BEq, Inhabited

/-- A method of which at most the name is known. -/
def Method.named (name : Option String) : Method := { name }

/-- The constructor of a class: parameters, and neither name nor return type. -/
structure Constructor where
  id : EntityId := .unassigned
  parameters : Parameters := ∅
deriving BEq, Inhabited

end Declarations
