/-
  Declarations/Kind.lean
  ======================
  **Kinds of record and levels of access.**

  Every record that this library builds has a kind, and the kind alone decides
  whether the record opens a scope of its own: exactly the records that may
  declare type parameters do (`Kind.opensScope`).  The kind `type` belongs to
  type references, and `unknown` to nothing yet.
-/

namespace Declarations

/-- What a record is. -/
inductive Kind where
  | unknown
  | variable
  | function
  | «class»
  | interface
  | method
  | constructor
  | property
  | parameter
  | module
  | program
  | type
deriving DecidableEq, Repr, Inhabited

namespace Kind

/-- All kinds, in the order in which they are declared. -/
def all : List Kind :=
  [.unknown, .variable, .function, .class, .interface, .method, .constructor, .property,
    .parameter, .module, .program, .type]

/-- The written form of a kind. -/
def text : Kind → String
  | .unknown => "unknown"
  | .variable => "variable"
  | .function => "function"
  | .class => "class"
  | .interface => "interface"
  | .method => "method"
  | .constructor => "constructor"
  | .property => "property"
  | .parameter => "parameter"
  | .module => "module"
  | .program => "program"
  | .type => "type"

instance : ToString Kind := ⟨text⟩

/-- The kind with a given written form. -/
def ofText? (s : String) : Option Kind := all.find? (·.text = s)

/-- Whether a record of this kind has a scope of its own: the kinds that may
    declare type parameters.  A record of any other kind shares the scope of
    the record that contains it. -/
def opensScope : Kind → Bool
  | .class | .interface | .function | .method => true
  | _ => false

/-- Reading a kind undoes writing it, so the written forms differ. -/
theorem ofText?_text (k : Kind) : ofText? k.text = some k := by cases k <;> decide

end Kind

/-- Who may use a member of a class. -/
inductive Access where
  | «public»
  | «protected»
  | «private»
deriving DecidableEq, Repr

namespace Access

/-- All levels, the widest first. -/
def all : List Access := [.public, .protected, .private]

/-- The written form of an access level. -/
def text : Access → String
  | .public => "public"
  | .protected => "protected"
  | .private => "private"

instance : ToString Access := ⟨text⟩

/-- The access level with a given written form. -/
def ofText? (s : String) : Option Access := all.find? (·.text = s)

/-- Reading an access level undoes writing it. -/
theorem ofText?_text (a : Access) : ofText? a.text = some a := by cases a <;> decide

end Access

end Declarations
