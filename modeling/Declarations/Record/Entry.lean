/-
  Declarations/Record/Entry.lean
  ==============================
  **What a module declares: variables, functions, classes, interfaces.**

  A class or interface that was declared under a name carries the handle minted
  for it; every reference that resolves to the declaration holds this handle.
-/
import Declarations.Record.Member

namespace Declarations

/-- A variable of a module. -/
structure Variable where
  id : EntityId := .unassigned
  name : Option String := none
  type : Option TypeReference := none
  isConstant : Option Bool := none
deriving BEq, Repr, Inhabited

/-- A variable of which only the name is known. -/
def Variable.named (name : String) : Variable := { name := some name }

/-- A function of a module. -/
structure Function where
  id : EntityId := .unassigned
  name : String := ""
  parameters : Parameters := ∅
  returnType : Option TypeReference := none
  typeParameters : Option (List TypeHandle) := none
  isAsync : Option Bool := none
  isGenerator : Option Bool := none
deriving BEq, Inhabited

/-- A function of which only the name is known. -/
def Function.named (name : String) : Function := { name }

/-- A class.  It has one constructor at most. -/
structure Class where
  id : EntityId := .unassigned
  name : String := ""
  handle : Option TypeHandle := none
  properties : List Property := []
  methods : List Method := []
  constructor : Option Constructor := none
  superclass : Option TypeReference := none
  implemented : Option (List TypeReference) := none
  isAbstract : Option Bool := none
  typeParameters : Option (List TypeHandle) := none
deriving BEq, Inhabited

/-- A class of which only the name is known. -/
def Class.named (name : String) : Class := { name }

/-- An interface. -/
structure Interface where
  id : EntityId := .unassigned
  name : String := ""
  handle : Option TypeHandle := none
  properties : List Property := []
  methods : List Method := []
  extended : Option (List TypeReference) := none
  typeParameters : Option (List TypeHandle) := none
deriving BEq, Inhabited

/-- An interface of which only the name is known. -/
def Interface.named (name : String) : Interface := { name }

/-- A declaration of a module. -/
inductive Entry where
  | «class» (c : Class)
  | interface (i : Interface)
  | variable (v : Variable)
  | function (f : Function)
deriving BEq, Inhabited

namespace Entry

/-- The kind of an entry. -/
def kind : Entry → Kind
  | .class _ => .class
  | .interface _ => .interface
  | .variable _ => .variable
  | .function _ => .function

/-- The identifier of an entry. -/
def id : Entry → EntityId
  | .class c => c.id
  | .interface i => i.id
  | .variable v => v.id
  | .function f => f.id

/-- The name of an entry.  Only a variable may lack one. -/
def name? : Entry → Option String
  | .class c => some c.name
  | .interface i => some i.name
  | .variable v => v.name
  | .function f => some f.name

/-- The class, if the entry is one. -/
def asClass? : Entry → Option Class
  | .class c => some c
  | _ => none

/-- The interface, if the entry is one. -/
def asInterface? : Entry → Option Interface
  | .interface i => some i
  | _ => none

/-- The variable, if the entry is one. -/
def asVariable? : Entry → Option Variable
  | .variable v => some v
  | _ => none

/-- The function, if the entry is one. -/
def asFunction? : Entry → Option Function
  | .function f => some f
  | _ => none

end Entry

end Declarations
