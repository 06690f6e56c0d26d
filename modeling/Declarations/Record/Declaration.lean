/-
  Declarations/Record/Declaration.lean
  ====================================
  **Declarations: the children that a record can be given.**

  A declaration says what is to be declared, before there is a record of it.
  `Declaration.bare` is the record it starts from, and `Record.slotFor?` the slot
  that this record takes in its owner: the next position of a list, the one place
  of a constructor, or the position at which a parameter is declared.  The last
  two may be taken already; then the declaration means the record that is there.
-/
import Declarations.Record.Place

namespace Declarations

/-- Something to be declared in a record. -/
inductive Declaration where
  | «class» (name : String)
  | interface (name : String)
  | «variable» (name : String)
  | function (name : String)
  | constructor
  | method (name : Option String)
  | property (name : Option String)
  | parameter (index : Nat)
deriving DecidableEq, Repr

namespace Declaration

/-- The kind of record that is declared. -/
def kind : Declaration → Kind
  | .class _ => .class
  | .interface _ => .interface
  | .variable _ => .variable
  | .function _ => .function
  | .constructor => .constructor
  | .method _ => .method
  | .property _ => .property
  | .parameter _ => .parameter

/-- The name under which a new type is declared, if it is one.  A class or
    interface with the empty name declares none. -/
def typeName? : Declaration → Option String
  | .class name | .interface name => if name.isEmpty then none else some name
  | _ => none

/-- The record that a declaration starts from: unregistered, and with the handle
    if it declares a type. -/
def bare (handle : Option TypeHandle) : Declaration → Record
  | .class name => .class { Class.named name with handle }
  | .interface name => .interface { Interface.named name with handle }
  | .variable name => .variable (.named name)
  | .function name => .function (.named name)
  | .constructor => .constructor {}
  | .method name => .method (.named name)
  | .property name => .property (.named name)
  | .parameter index => .parameter (.ofIndex index)

@[simp]
theorem kind_bare (handle : Option TypeHandle) (d : Declaration) :
    (d.bare handle).kind = d.kind := by
  cases d <;> rfl

/-- Where the owner of a declaration stands, for a declaration made on the record
    at `place`: there, except that a property declared on a constructor belongs
    to the class. -/
def ownerPlace (d : Declaration) (place : Place) : Place :=
  match d, place.getLast? with
  | .property _, some .constructor => place.dropLast
  | _, _ => place

end Declaration

/-- The slot that a declaration takes in a record; `none` if the record takes no
    such declarations. -/
def Record.slotFor? : Record → Declaration → Option Slot
  | .module m, .class _ | .module m, .interface _ | .module m, .variable _
  | .module m, .function _ => some (.entry m.entries.length)
  | .class _, .constructor => some .constructor
  | .class c, .method _ => some (.method c.methods.length)
  | .class c, .property _ => some (.property c.properties.length)
  | .interface t, .method _ => some (.method t.methods.length)
  | .interface t, .property _ => some (.property t.properties.length)
  | .function _, .parameter index | .method _, .parameter index
  | .constructor _, .parameter index => some (.parameter index)
  | _, _ => none

/-- The record with a child declared in it, and the slot of the child.  A taken
    slot keeps its child. -/
def Record.declare? (r : Record) (child : Declaration) : Option (Slot × Record) :=
  (r.slotFor? child).map fun slot =>
    (slot, if (r.child? slot).isSome then r else r.put slot (child.bare none))

end Declarations
