/-
  Declarations/Record/Basic.lean
  ==============================
  **Records of any kind.**

  `Record` gathers the ten types of record, so that what all records have (a
  kind, an identifier) and what several have (a name, parameters, type
  parameters, properties, methods) is asked in one way.  A reader answers `none`
  where a record has no such part, and a writer then refuses.

  The four kinds of entry stand in `Record` as entries; `Record.class` and its
  companions are their names for use in patterns.
-/
import Declarations.Record.Module

namespace Declarations

/-- A record of any kind. -/
inductive Record where
  | program (p : Program)
  | module (m : Module)
  | entry (e : Entry)
  | constructor (k : Constructor)
  | method (m : Method)
  | property (p : Property)
  | parameter (p : Parameter)
deriving BEq, Inhabited

namespace Record

/-- A class as a record. -/
@[match_pattern]
abbrev «class» (c : Class) : Record := .entry (.class c)

/-- An interface as a record. -/
@[match_pattern]
abbrev interface (i : Interface) : Record := .entry (.interface i)

/-- A variable as a record. -/
@[match_pattern]
abbrev «variable» (v : Variable) : Record := .entry (.variable v)

/-- A function as a record. -/
@[match_pattern]
abbrev function (f : Function) : Record := .entry (.function f)

/-! ### What every record has -/

/-- The kind of a record. -/
def kind : Record → Kind
  | .program _ => .program
  | .module _ => .module
  | .entry e => e.kind
  | .constructor _ => .constructor
  | .method _ => .method
  | .property _ => .property
  | .parameter _ => .parameter

/-- The identifier of a record. -/
def id : Record → EntityId
  | .program p => p.id
  | .module m => m.id
  | .entry e => e.id
  | .constructor k => k.id
  | .method m => m.id
  | .property p => p.id
  | .parameter p => p.id

/-- The record under another identifier. -/
def withId (id : EntityId) : Record → Record
  | .program p => .program { p with id }
  | .module m => .module { m with id }
  | .class c => .class { c with id }
  | .interface i => .interface { i with id }
  | .variable v => .variable { v with id }
  | .function f => .function { f with id }
  | .constructor k => .constructor { k with id }
  | .method m => .method { m with id }
  | .property p => .property { p with id }
  | .parameter p => .parameter { p with id }

@[simp]
theorem id_withId (id : EntityId) (r : Record) : (r.withId id).id = id := by
  rcases r with _ | _ | e | _ | _ | _ | _
  case entry => cases e <;> rfl
  all_goals rfl

@[simp]
theorem kind_withId (id : EntityId) (r : Record) : (r.withId id).kind = r.kind := by
  rcases r with _ | _ | e | _ | _ | _ | _
  case entry => cases e <;> rfl
  all_goals rfl

/-! ### What some records have -/

/-- The name, of a record that has been given one. -/
def name? : Record → Option String
  | .entry e => e.name?
  | .method m => m.name
  | .property p => p.name
  | .parameter p => p.name
  | _ => none

/-- The parameters of a function, method or constructor. -/
def parameters? : Record → Option Parameters
  | .function f => some f.parameters
  | .method m => some m.parameters
  | .constructor k => some k.parameters
  | _ => none

/-- The list of type parameters of a class, interface, function or method; the
    list is itself absent until a type parameter is declared. -/
def typeParameters? : Record → Option (Option (List TypeHandle))
  | .class c => some c.typeParameters
  | .interface i => some i.typeParameters
  | .function f => some f.typeParameters
  | .method m => some m.typeParameters
  | _ => none

/-- The record with another list of type parameters. -/
def withTypeParameters? (handles : Option (List TypeHandle)) : Record → Option Record
  | .class c => some (.class { c with typeParameters := handles })
  | .interface i => some (.interface { i with typeParameters := handles })
  | .function f => some (.function { f with typeParameters := handles })
  | .method m => some (.method { m with typeParameters := handles })
  | _ => none

/-- The properties of a class or interface. -/
def properties? : Record → Option (List Property)
  | .class c => some c.properties
  | .interface i => some i.properties
  | _ => none

/-- The methods of a class or interface. -/
def methods? : Record → Option (List Method)
  | .class c => some c.methods
  | .interface i => some i.methods
  | _ => none

/-- What was written as a list of type parameters is what is read. -/
theorem typeParameters?_of_withTypeParameters? {handles : Option (List TypeHandle)} {r r' : Record}
    (h : r.withTypeParameters? handles = some r') : r'.typeParameters? = some handles := by
  rcases r with _ | _ | e | _ | _ | _ | _
  case entry => cases e <;> simp [withTypeParameters?] at h <;> subst h <;> rfl
  case method => simp [withTypeParameters?] at h; subst h; rfl
  all_goals simp [withTypeParameters?] at h

end Record

end Declarations
