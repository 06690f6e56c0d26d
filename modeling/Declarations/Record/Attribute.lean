/-
  Declarations/Record/Attribute.lean
  ==================================
  **Attributes: the parts of a record that are set one at a time.**

  Each attribute has its own type of value (`Attribute.Value`), and a record
  either has an attribute, then set or not yet, or is of a kind without it.
  `Record.read?` and `Record.write?` are the only access: what was written is
  read (`read?_of_write?`), writing one attribute leaves every other as it was
  (`read?_of_write?_of_ne`), and of two writes the later counts
  (`write?_of_write?`).
-/
import Declarations.Record.Basic

namespace Declarations

/-- The attributes of records. -/
inductive Attribute where
  | name
  | type
  | returnType
  | superclass
  | access
  | isAbstract
  | isStatic
  | isOptional
  | isReadonly
  | isRest
  | isConstant
  | isAsync
  | isGenerator
deriving DecidableEq, Repr

namespace Attribute

/-- The type of an attribute's values. -/
abbrev Value : Attribute → Type
  | .name => String
  | .type | .returnType | .superclass => TypeReference
  | .access => Access
  | .isAbstract | .isStatic | .isOptional | .isReadonly | .isRest | .isConstant | .isAsync
  | .isGenerator => Bool

/-- Whether a value says anything: the empty name does not. -/
def isPresent : (a : Attribute) → a.Value → Bool
  | .name, text => !text.isEmpty
  | _, _ => true

/-- Resolve the value of an attribute, if it is a type reference. -/
def resolve (lookup : String → Option TypeHandle) : (a : Attribute) → a.Value → a.Value
  | .type, reference => TypeReference.resolve lookup reference
  | .returnType, reference => TypeReference.resolve lookup reference
  | .superclass, reference => TypeReference.resolve lookup reference
  | _, value => value

end Attribute

namespace Record

/-- The value of an attribute: `none` if the record is of a kind without it,
    `some none` if it is not set. -/
def read? : Record → (a : Attribute) → Option (Option a.Value)
  | .variable v, .name => some v.name
  | .variable v, .type => some v.type
  | .variable v, .isConstant => some v.isConstant
  | .property p, .name => some p.name
  | .property p, .type => some p.type
  | .property p, .access => some p.access
  | .property p, .isStatic => some p.isStatic
  | .property p, .isOptional => some p.isOptional
  | .property p, .isReadonly => some p.isReadonly
  | .parameter p, .name => some p.name
  | .parameter p, .type => some p.type
  | .parameter p, .isRest => some p.isRest
  | .parameter p, .isOptional => some p.isOptional
  | .function f, .returnType => some f.returnType
  | .function f, .isAsync => some f.isAsync
  | .function f, .isGenerator => some f.isGenerator
  | .method m, .name => some m.name
  | .method m, .returnType => some m.returnType
  | .method m, .access => some m.access
  | .method m, .isStatic => some m.isStatic
  | .method m, .isAbstract => some m.isAbstract
  | .method m, .isAsync => some m.isAsync
  | .method m, .isGenerator => some m.isGenerator
  | .class c, .superclass => some c.superclass
  | .class c, .isAbstract => some c.isAbstract
  | _, _ => none

/-- Set or clear an attribute; `none` if the record is of a kind without it. -/
def write? : Record → (a : Attribute) → Option a.Value → Option Record
  | .variable v, .name, x => some (.variable { v with name := x })
  | .variable v, .type, x => some (.variable { v with type := x })
  | .variable v, .isConstant, x => some (.variable { v with isConstant := x })
  | .property p, .name, x => some (.property { p with name := x })
  | .property p, .type, x => some (.property { p with type := x })
  | .property p, .access, x => some (.property { p with access := x })
  | .property p, .isStatic, x => some (.property { p with isStatic := x })
  | .property p, .isOptional, x => some (.property { p with isOptional := x })
  | .property p, .isReadonly, x => some (.property { p with isReadonly := x })
  | .parameter p, .name, x => some (.parameter { p with name := x })
  | .parameter p, .type, x => some (.parameter { p with type := x })
  | .parameter p, .isRest, x => some (.parameter { p with isRest := x })
  | .parameter p, .isOptional, x => some (.parameter { p with isOptional := x })
  | .function f, .returnType, x => some (.function { f with returnType := x })
  | .function f, .isAsync, x => some (.function { f with isAsync := x })
  | .function f, .isGenerator, x => some (.function { f with isGenerator := x })
  | .method m, .name, x => some (.method { m with name := x })
  | .method m, .returnType, x => some (.method { m with returnType := x })
  | .method m, .access, x => some (.method { m with access := x })
  | .method m, .isStatic, x => some (.method { m with isStatic := x })
  | .method m, .isAbstract, x => some (.method { m with isAbstract := x })
  | .method m, .isAsync, x => some (.method { m with isAsync := x })
  | .method m, .isGenerator, x => some (.method { m with isGenerator := x })
  | .class c, .superclass, x => some (.class { c with superclass := x })
  | .class c, .isAbstract, x => some (.class { c with isAbstract := x })
  | _, _, _ => none

/-! ### Reading and writing -/

/-- A record has an attribute exactly if it can be written. -/
theorem isSome_write? (r : Record) (a : Attribute) (x : Option a.Value) :
    (r.write? a x).isSome = (r.read? a).isSome := by
  rcases r with _ | _ | e | _ | _ | _ | _
  case entry => cases e <;> cases a <;> rfl
  all_goals cases a <;> rfl

/-- What was written is read. -/
theorem read?_of_write? {r r' : Record} {a : Attribute} {x : Option a.Value}
    (h : r.write? a x = some r') : r'.read? a = some x := by
  rcases r with _ | _ | e | _ | _ | _ | _
  case entry => cases e <;> cases a <;> simp [write?] at h <;> subst h <;> rfl
  all_goals cases a <;> simp [write?] at h <;> subst h <;> rfl

/-- Writing one attribute leaves the others as they were. -/
theorem read?_of_write?_of_ne {r r' : Record} {a b : Attribute} {x : Option a.Value}
    (h : r.write? a x = some r') (ne : b ≠ a) : r'.read? b = r.read? b := by
  rcases r with _ | _ | e | _ | _ | _ | _
  case entry =>
    cases e <;> cases a <;> simp [write?] at h <;> subst h <;> cases b <;>
      first | rfl | exact absurd rfl ne
  all_goals
    cases a <;> simp [write?] at h <;> subst h <;> cases b <;> first | rfl | exact absurd rfl ne

/-- Of two writes to an attribute the later counts. -/
theorem write?_of_write? {r r' : Record} {a : Attribute} {x : Option a.Value}
    (h : r.write? a x = some r') (y : Option a.Value) : r'.write? a y = r.write? a y := by
  rcases r with _ | _ | e | _ | _ | _ | _
  case entry => cases e <;> cases a <;> simp [write?] at h <;> subst h <;> rfl
  all_goals cases a <;> simp [write?] at h <;> subst h <;> rfl

end Record

end Declarations
