/-
  Declarations/Session.lean
  =========================
  **Building a program or a module, step by step.**

  A session builds one root record, a program or a lone module.  It holds

  * the root as built so far, with every record at its final place,
  * the lineage in which it registers each new record under its owner,
  * the workspace with all handles and frames,
  * the root scope of each module that the program has opened, so that a module
    opened again goes on in the scope it had,
  * the drafts: the records that are open, the innermost first, each with its
    place in the root and the scope that its type references are resolved in.

  A `Step` works on the innermost draft, or on the program itself when none is
  open.  `Session.step?` answers `none` for a step that the record at hand has no
  use for (a parameter of a class, an entry of a method); every other step
  succeeds.  Nothing is ever removed, and an absent value leaves all as it was.
-/
import Declarations.Record.Attribute
import Declarations.Record.Declaration
import Declarations.Scope

namespace Declarations

/-- An open record. -/
structure Draft where
  place : Place
  scope : Scope
deriving DecidableEq, Repr

/-- A root record under construction. -/
structure Session where
  root : Record
  lineage : Lineage
  workspace : Workspace
  moduleScopes : Std.ExtTreeMap String Scope
  drafts : List Draft

/-- One step of building. -/
inductive Step where
  | openModule (path : String)                           -- open a module of the program
  | declare (declaration : Declaration)                  -- declare a child and open it
  | close                                                -- close the innermost draft
  | addImport (path asName name : String)
  | addExport (asName name : String)
  | set (a : Attribute) (value : Option a.Value)
  | addTypeParameters (parameters : List TypeIdentifier)
  | addImplements (references : List TypeReference)      -- interfaces that a class implements
  | addExtends (references : List TypeReference)         -- interfaces that an interface extends

/-- Append to a list that is absent until something is appended. -/
def appendTo {α : Type} (list : Option (List α)) : List α → Option (List α)
  | [] => list
  | new => some (list.getD [] ++ new)

namespace Session

/-! ### Beginning -/

/-- Build on a program.  The program is registered as the first record of a new
    lineage; its modules keep the identifiers that they have. -/
def ofProgram (w : Workspace) (p : Program) : Session :=
  let (id, lineage) := Lineage.empty.alloc .program
  { root := .program { p with id }
    lineage
    workspace := w
    moduleScopes := ∅
    drafts := [] }

/-- Build on a lone module, which is open from the beginning.  It is registered
    as the first record of a new lineage and has a new root scope. -/
def ofModule (w : Workspace) (m : Module) : Session :=
  let (id, lineage) := Lineage.empty.alloc .module
  let (scope, w) := w.root m.path
  { root := .module { m with id }
    lineage
    workspace := w
    moduleScopes := ∅
    drafts := [⟨[], scope⟩] }

/-! ### Reading -/

/-- The record at a place of the root. -/
def record? (s : Session) (place : Place) : Option Record := s.root.get? place

/-- The innermost draft and its record. -/
def current? (s : Session) : Option (Draft × Record) :=
  s.drafts.head?.bind fun draft => (s.record? draft.place).map (draft, ·)

/-! ### Opening records -/

/-- The session with another record at a place. -/
def replace (s : Session) (place : Place) (r : Record) : Session :=
  { s with root := s.root.replace place r }

/-- Register a new record under its owner and put it into a slot of the owner. -/
def adopt (s : Session) (place : Place) (owner : Record) (slot : Slot) (child : Record) : Session :=
  let (id, lineage) := s.lineage.attach child.kind owner.id
  { s with lineage, root := s.root.replace place (owner.put slot (child.withId id)) }

/-- Open the record at a place: in a fork of the surrounding scope if its kind
    opens a scope, else in the surrounding scope itself. -/
def openDraft (s : Session) (place : Place) (kind : Kind) (surrounding : Scope) : Session :=
  let (scope, workspace) := s.workspace.enter surrounding kind
  { s with workspace, drafts := ⟨place, scope⟩ :: s.drafts }

/-- Mint and bind the handle of a declaration that declares a type. -/
def declareType (s : Session) (scope : Scope) (d : Declaration) : Option TypeHandle × Session :=
  match d.typeName? with
  | none => (none, s)
  | some name =>
    let (handle, workspace) := s.workspace.declareNominal scope name
    (some handle, { s with workspace })

/-- Declare a child of the innermost draft's record and open it.  A class or
    interface is bound to its handle in the surrounding scope first, so that it
    and all that follows can refer to it.  A taken slot is opened as it is. -/
def declare? (s : Session) (d : Declaration) : Option Session :=
  s.drafts.head?.bind fun draft =>
    let place := d.ownerPlace draft.place
    (s.record? place).bind fun owner =>
      (owner.slotFor? d).map fun slot =>
        let (handle, s) := s.declareType draft.scope d
        let s := if (owner.child? slot).isSome then s else s.adopt place owner slot (d.bare handle)
        s.openDraft (place ++ [slot]) d.kind draft.scope

/-- Open the module at a path of the program, when nothing else is open.  A
    module that is not there yet is created; one without an identifier is
    registered; one opened before goes on in its root scope. -/
def openModule? (s : Session) (path : String) : Option Session :=
  match s.drafts, s.root with
  | [], .program p =>
    let m := p.modules[path]?.getD (.atPath path)
    let (id, lineage) :=
      if m.id.isAssigned then (m.id, s.lineage) else s.lineage.attach .module p.id
    let (scope, workspace) :=
      match s.moduleScopes[path]? with
      | some scope => (scope, s.workspace)
      | none => s.workspace.root path
    some
      { root := .program { p with modules := p.modules.insert path { m with id } }
        lineage
        workspace
        moduleScopes := s.moduleScopes.insert path scope
        drafts := [⟨[.module path], scope⟩] }
  | _, _ => none

/-! ### Changing the innermost record -/

/-- Change the record of the innermost draft, if `change` applies to it. -/
def edit? (s : Session) (change : Scope → Record → Option Record) : Option Session :=
  s.current?.bind fun (draft, r) => (change draft.scope r).map (s.replace draft.place)

/-- Set an attribute.  A reference is resolved first; an absent value and the
    empty name change nothing. -/
def set? (s : Session) (a : Attribute) (value : Option a.Value) : Option Session :=
  s.current?.bind fun (draft, r) =>
    match value.filter a.isPresent with
    | none => (r.read? a).map fun _ => s
    | some value =>
      (r.write? a (some (a.resolve (s.workspace.lookup draft.scope) value))).map
        (s.replace draft.place)

/-- Declare type parameters in the draft's scope and append their handles. -/
def addTypeParameters? (s : Session) (parameters : List TypeIdentifier) : Option Session :=
  s.current?.bind fun (draft, r) =>
    r.typeParameters?.bind fun old =>
      let (handles, workspace) := s.workspace.declareTypeParameters draft.scope parameters
      (r.withTypeParameters? (appendTo old handles)).map fun r =>
        { s with workspace }.replace draft.place r

/-- Append to the interfaces that a class implements, each resolved. -/
def addImplements? (s : Session) (references : List TypeReference) : Option Session :=
  s.edit? fun scope r =>
    match r with
    | .class c =>
      let resolved := references.map (s.workspace.resolve scope)
      some (.class { c with implemented := appendTo c.implemented resolved })
    | _ => none

/-- Append to the interfaces that an interface extends, each resolved. -/
def addExtends? (s : Session) (references : List TypeReference) : Option Session :=
  s.edit? fun scope r =>
    match r with
    | .interface i =>
      let resolved := references.map (s.workspace.resolve scope)
      some (.interface { i with extended := appendTo i.extended resolved })
    | _ => none

/-- Change the module of the innermost draft, if it is one. -/
def editModule? (s : Session) (change : Module → Module) : Option Session :=
  s.edit? fun _ r =>
    match r with
    | .module m => some (.module (change m))
    | _ => none

/-! ### Running -/

/-- Take one step, if the innermost record has a use for it. -/
def step? (s : Session) : Step → Option Session
  | .openModule path => s.openModule? path
  | .declare d => s.declare? d
  | .close =>
    match s.drafts with
    | [] => none
    | _ :: drafts => some { s with drafts }
  | .addImport path asName name => s.editModule? (·.addImport path asName name)
  | .addExport asName name => s.editModule? (·.addExport asName name)
  | .set a value => s.set? a value
  | .addTypeParameters parameters => s.addTypeParameters? parameters
  | .addImplements references => s.addImplements? references
  | .addExtends references => s.addExtends? references

/-- Take steps in order, as long as each has a use. -/
def run? (s : Session) (steps : List Step) : Option Session := steps.foldlM step? s

@[simp]
theorem run?_nil (s : Session) : s.run? [] = some s := rfl

@[simp]
theorem run?_cons (s : Session) (step : Step) (steps : List Step) :
    s.run? (step :: steps) = (s.step? step).bind (·.run? steps) := rfl

/-- Running two lists of steps in turn is running their concatenation. -/
theorem run?_append (s : Session) (first second : List Step) :
    s.run? (first ++ second) = (s.run? first).bind (·.run? second) := by
  simp [run?, List.foldlM_append]

end Session

end Declarations
