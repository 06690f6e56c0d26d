/-
  Declarations/Record/Module.lean
  ===============================
  **Modules and programs.**

  A module keeps its entries in the order of their declaration; several may
  share a name, and the first one answers to it (`Module.entryNamed?`).  Imports,
  exports and the modules of a program have no order: equal content is an equal
  value, in whatever order it came together.
-/
import Declarations.Record.Entry

namespace Declarations

/-- Names by alias. -/
abbrev Aliases := Std.ExtTreeMap String String

/-- A module. -/
structure Module where
  id : EntityId := .unassigned
  path : String := ""
  imports : Std.ExtTreeMap String Aliases := ∅ -- path of a module, then local alias
  exports : Aliases := ∅                       -- exported alias, then local name
  entries : List Entry := []
deriving BEq, Inhabited

namespace Module

/-- An empty module at a path. -/
def atPath (path : String) : Module := { path }

/-- The first entry declared under a name. -/
def entryNamed? (m : Module) (name : String) : Option Entry :=
  m.entries.find? (·.name? = some name)

/-- The classes, in order of declaration. -/
def classes (m : Module) : List Class := m.entries.filterMap Entry.asClass?

/-- The interfaces, in order of declaration. -/
def interfaces (m : Module) : List Interface := m.entries.filterMap Entry.asInterface?

/-- Add an entry after all others. -/
def push (m : Module) (e : Entry) : Module := { m with entries := m.entries ++ [e] }

/-- Record that `name` of the module at `path` is imported as `asName`. -/
def addImport (m : Module) (path asName name : String) : Module :=
  { m with imports := m.imports.insert path ((m.imports[path]?.getD ∅).insert asName name) }

/-- Record that the local declaration `name` is exported as `asName`. -/
def addExport (m : Module) (asName name : String) : Module :=
  { m with exports := m.exports.insert asName name }

/-- The name imported from the module at `path` as `asName`. -/
def import? (m : Module) (path asName : String) : Option String :=
  m.imports[path]?.bind (·[asName]?)

/-- The local name exported as `asName`. -/
def export? (m : Module) (asName : String) : Option String := m.exports[asName]?

/-- The latest import of an alias from a path counts. -/
theorem import?_addImport (m : Module) (path asName name path' asName' : String) :
    (m.addImport path asName name).import? path' asName' =
      if path = path' ∧ asName = asName' then some name else m.import? path' asName' := by
  by_cases samePath : path = path'
  · subst samePath
    cases h : m.imports[path]? <;>
      simp [import?, addImport, Std.ExtTreeMap.getElem?_insert, h]
  · simp [import?, addImport, Std.ExtTreeMap.getElem?_insert, samePath]

/-- The latest export under an alias counts. -/
theorem export?_addExport (m : Module) (asName name asName' : String) :
    (m.addExport asName name).export? asName' =
      if asName = asName' then some name else m.export? asName' := by
  simp [export?, addExport, Std.ExtTreeMap.getElem?_insert]

end Module

/-- A set of modules by path. -/
structure Program where
  id : EntityId := .unassigned
  modules : Std.ExtTreeMap String Module := ∅
deriving BEq, Inhabited

end Declarations
