/-
  Declarations/Proofs/Record/Links.lean
  =====================================
  **Imports and exports.**

  A `Link` is one import or export to be recorded.  Each has a key: the path and the alias of
  an import, the alias of an export.  A module in which links were recorded in order has under
  each key the name of the last link with this key (`Links.named`), so the order of links with
  different keys does not matter (`Links.eq`).

  Without imports and exports (`Record.unlinked`) a record is as it was in every other
  respect: all that steps ask of it and do to it, except for recording links, is the same.
-/
import Declarations.Proofs.Record.Surface
import Mathlib.Data.List.Induction

namespace Declarations

/-! ## 1. One module -/

/-- An import or an export to be recorded. -/
inductive Link where
  | imported (path asName name : String)
  | exported (asName name : String)
deriving DecidableEq

/-- What the imports and exports of a module are found under. -/
inductive Link.Key where
  | imported (path asName : String)
  | exported (asName : String)
deriving DecidableEq

namespace Link

def key : Link → Key
  | .imported path asName _ => .imported path asName
  | .exported asName _ => .exported asName

def name : Link → String
  | .imported _ _ name => name
  | .exported _ name => name

/-- The name that a link gives to a key, if it is for this key. -/
def named? (key : Key) (l : Link) : Option String := if l.key = key then some l.name else none

end Link

namespace Module

variable {m m' : Module} {l : Link} {ls ls' : List Link} {key : Link.Key} {path : String}

/-- Record a link. -/
def link (m : Module) : Link → Module
  | .imported path asName name => m.addImport path asName name
  | .exported asName name => m.addExport asName name

/-- The name under a key. -/
def linked? (m : Module) : Link.Key → Option String
  | .imported path asName => m.import? path asName
  | .exported asName => m.export? asName

/-- The latest link counts. -/
theorem linked?_link (m : Module) (l : Link) (key : Link.Key) :
    (m.link l).linked? key = (l.named? key).or (m.linked? key) := by
  cases l <;> cases key
  case imported.imported path asName name path' asName' =>
    rw [link, linked?, import?_addImport, Link.named?]
    by_cases hkey : path = path' ∧ asName = asName' <;> simp [Link.key, Link.name, linked?, hkey]
  case exported.exported asName name asName' =>
    rw [link, linked?, export?_addExport, Link.named?]
    by_cases hkey : asName = asName' <;> simp [Link.key, Link.name, linked?, hkey]
  all_goals rfl

theorem mem_imports_link : path ∈ (m.link l).imports ↔
    path ∈ m.imports ∨ ∃ asName name, l = .imported path asName name := by
  cases l with
  | imported path' asName name =>
    rw [link, addImport, Std.ExtTreeMap.mem_insert]
    by_cases hpath : path' = path <;> simp [hpath, or_comm]
  | exported asName name => simp [link, addExport]

/-- Recording an import leaves no table of aliases empty. -/
theorem of_getElem?_imports_link {aliases : Aliases} (h : (m.link l).imports[path]? = some aliases)
    (hempty : aliases.isEmpty) : m.imports[path]? = some aliases := by
  cases l with
  | imported path' asName name =>
    rw [link, addImport, Std.ExtTreeMap.getElem?_insert] at h
    split at h
    next =>
      obtain rfl := Option.some.inj h
      simp at hempty
    next => exact h
  | exported asName name => exact h

/-- How the imports and exports of a module came about: the links were recorded in order in
    a module that had others before. -/
structure Links (ls : List Link) (old m : Module) : Prop where
  -- under each key is the last name given to it, or the one that was there
  named (key : Link.Key) : m.linked? key =
    (ls.filterMap (·.named? key)).getLast?.or (old.linked? key)
  -- a path has a table of aliases if it had one or was imported from
  paths (path : String) : path ∈ m.imports ↔
    path ∈ old.imports ∨ ∃ asName name, .imported path asName name ∈ ls
  -- an empty table is one that was there
  nonempty {path : String} {aliases : Aliases} : m.imports[path]? = some aliases →
    aliases.isEmpty → old.imports[path]? = some aliases

theorem links_foldl (m : Module) (ls : List Link) : Links ls m (ls.foldl link m) := by
  induction ls using List.reverseRecOn with
  | nil => exact ⟨fun _ => rfl, fun _ => by simp, fun h _ => h⟩
  | append_singleton ls l ih =>
    rw [List.foldl_append, List.foldl_cons, List.foldl_nil]
    constructor
    case named =>
      intro key
      rw [linked?_link, ih.named, List.filterMap_append, List.filterMap_cons]
      cases l.named? key with
      | none => simp
      | some name => simp
    case paths =>
      intro path
      rw [mem_imports_link, ih.paths, or_assoc]
      simp only [List.mem_append, List.mem_singleton, exists_or, eq_comm]
    case nonempty =>
      exact fun h hempty => ih.nonempty (of_getElem?_imports_link h hempty) hempty

theorem getElem?_imports_eq (m : Module) (path : String) (aliases : Aliases)
    (h : m.imports[path]? = some aliases) (asName : String) :
    aliases[asName]? = m.linked? (.imported path asName) := by
  rw [linked?, import?, h, Option.bind_some]

/-- Tables with the same keys and the same names under them are the same. -/
theorem imports_exports_eq (hlinked : ∀ key, m.linked? key = m'.linked? key)
    (hpaths : ∀ path, path ∈ m.imports ↔ path ∈ m'.imports) :
    m.imports = m'.imports ∧ m.exports = m'.exports := by
  constructor
  · apply Std.ExtTreeMap.ext_getElem?
    intro path
    have hpath := hpaths path
    rw [Std.ExtTreeMap.mem_iff_isSome_getElem?, Std.ExtTreeMap.mem_iff_isSome_getElem?] at hpath
    cases h : m.imports[path]? <;> cases h' : m'.imports[path]?
    case none.none => rfl
    case some.some aliases aliases' =>
      refine congrArg some (Std.ExtTreeMap.ext_getElem? fun asName => ?_)
      rw [getElem?_imports_eq m path aliases h, getElem?_imports_eq m' path aliases' h', hlinked]
    all_goals simp [h, h'] at hpath
  · exact Std.ExtTreeMap.ext_getElem? fun asName => hlinked (.exported asName)

theorem filterMap_named? (ls : List Link) (key : Link.Key) :
    ls.filterMap (·.named? key) = (ls.filter (·.key = key)).map Link.name := by
  rw [← List.filterMap_eq_map, List.filterMap_filter]
  simp [Link.named?]

theorem exists_imported_iff (ls : List Link) (path : String) :
    (∃ asName name, .imported path asName name ∈ ls) ↔
      ∃ asName, ls.filter (·.key = .imported path asName) ≠ [] := by
  constructor
  · rintro ⟨asName, name, hmem⟩
    exact ⟨asName, List.ne_nil_of_mem (List.mem_filter.mpr ⟨hmem, by simp [Link.key]⟩)⟩
  · rintro ⟨asName, hne⟩
    obtain ⟨l, hl⟩ := List.exists_mem_of_ne_nil _ hne
    obtain ⟨hmem, hkey⟩ := List.mem_filter.mp hl
    cases l with
    | imported path' asName' name =>
      obtain ⟨rfl, rfl⟩ := Link.Key.imported.inj (of_decide_eq_true hkey)
      exact ⟨_, name, hmem⟩
    | exported asName' name => cases of_decide_eq_true hkey

/-- **Links that are in the same order for each key make the same imports and exports.** -/
theorem Links.eq {old : Module} (h : Links ls old m) (h' : Links ls' old m')
    (hsame : ∀ key, ls.filter (·.key = key) = ls'.filter (·.key = key)) :
    m.imports = m'.imports ∧ m.exports = m'.exports := by
  apply imports_exports_eq
  · intro key
    rw [h.named, h'.named, filterMap_named?, filterMap_named?, hsame]
  · intro path
    rw [h.paths, h'.paths, exists_imported_iff, exists_imported_iff]
    simp only [hsame]

end Module

/-! ## 2. Records without imports and exports -/

/-- A module without imports and exports. -/
def Module.unlinked (m : Module) : Module := { m with imports := ∅, exports := ∅ }

namespace Record

variable {r r' child : Record} {slot : Slot} {place : Place}

/-- A record without the imports and exports of the modules in it. -/
def unlinked : Record → Record
  | .program p => .program { p with modules := p.modules.map fun _ => Module.unlinked }
  | .module m => .module m.unlinked
  | r => r

theorem unlinked_eq_self (hprogram : r.kind ≠ .program) (hmodule : r.kind ≠ .module) :
    r.unlinked = r := by
  cases r with
  | program => exact absurd rfl hprogram
  | module => exact absurd rfl hmodule
  | _ => rfl

@[simp] theorem kind_unlinked (r : Record) : r.unlinked.kind = r.kind := by
  cases r <;> rfl

@[simp] theorem id_unlinked (r : Record) : r.unlinked.id = r.id := by
  cases r <;> rfl

theorem unlinked_withId_bare (d : Declaration) (handle : Option TypeHandle) (id : EntityId) :
    ((d.bare handle).withId id).unlinked = (d.bare handle).withId id := by
  cases d <;> rfl

/-! ### Places -/

theorem child?_unlinked (r : Record) (slot : Slot) :
    r.unlinked.child? slot = (r.child? slot).map unlinked := by
  rcases r with _ | _ | e | _ | _ | _ | _
  case entry =>
    cases e <;> cases slot <;> simp only [unlinked, child?, Option.map_map, Option.map_none] <;> rfl
  all_goals
    cases slot <;> simp only [unlinked, Module.unlinked, child?, Std.ExtTreeMap.getElem?_map,
      Option.map_map, Option.map_none] <;> rfl

theorem put_unlinked (r : Record) (slot : Slot) (child : Record) :
    (r.put slot child).unlinked = r.unlinked.put slot child.unlinked := by
  rcases r with _ | _ | e | _ | _ | _ | _
  case entry => cases e <;> cases slot <;> cases child <;> rfl
  case program =>
    cases slot <;> cases child <;> first | rfl | simp [put, unlinked, map_insert_map]
  all_goals cases slot <;> cases child <;> rfl

theorem get?_unlinked (r : Record) (place : Place) :
    r.unlinked.get? place = (r.get? place).map unlinked := by
  induction place generalizing r with
  | nil => rfl
  | cons slot rest ih =>
    rw [get?_cons, get?_cons, child?_unlinked]
    cases r.child? slot with
    | none => rfl
    | some child => exact ih child

theorem replace_unlinked (r : Record) (place : Place) (new : Record) :
    (r.replace place new).unlinked = r.unlinked.replace place new.unlinked := by
  induction place generalizing r with
  | nil => rfl
  | cons slot rest ih =>
    rw [replace, replace, child?_unlinked]
    cases r.child? slot with
    | none => rfl
    | some child =>
      dsimp only [Option.map_some]
      rw [put_unlinked, ih]

/-! ### What steps ask and do -/

@[simp] theorem slotFor?_unlinked (r : Record) (d : Declaration) :
    r.unlinked.slotFor? d = r.slotFor? d := by
  cases r <;> cases d <;> rfl

@[simp] theorem read?_unlinked (r : Record) (a : Attribute) : r.unlinked.read? a = r.read? a := by
  cases r <;> cases a <;> rfl

theorem write?_unlinked (r : Record) (a : Attribute) (x : Option a.Value) :
    r.unlinked.write? a x = (r.write? a x).map unlinked := by
  rcases r with _ | _ | e | _ | _ | _ | _
  case entry => cases e <;> cases a <;> rfl
  all_goals cases a <;> rfl

@[simp] theorem typeParameters?_unlinked (r : Record) :
    r.unlinked.typeParameters? = r.typeParameters? := by
  cases r <;> rfl

theorem withTypeParameters?_unlinked (r : Record) (handles : Option (List TypeHandle)) :
    r.unlinked.withTypeParameters? handles = (r.withTypeParameters? handles).map unlinked := by
  rcases r with _ | _ | e | _ | _ | _ | _
  case entry => cases e <;> rfl
  all_goals rfl

/-- A record is determined by the links of its modules and by the rest. -/
theorem eq_of_unlinked_eq (hrest : r.unlinked = r'.unlinked)
    (hlinks : ∀ q m m', r.get? q = some (.module m) → r'.get? q = some (.module m') →
      m.imports = m'.imports ∧ m.exports = m'.exports) : r = r' := by
  have hmodule : ∀ {m m' : Module}, m.unlinked = m'.unlinked →
      m.imports = m'.imports ∧ m.exports = m'.exports → m = m' := by
    rintro ⟨id, path, imports, exports, entries⟩ ⟨id', path', imports', exports', entries'⟩ h
    rintro ⟨rfl, rfl⟩
    simpa [Module.unlinked] using h
  have hkind : r.kind = r'.kind := by rw [← kind_unlinked, hrest, kind_unlinked]
  by_cases hprogram : r.kind = .program
  · obtain ⟨p, rfl⟩ := exists_eq_program hprogram
    obtain ⟨p', rfl⟩ := exists_eq_program (hkind ▸ hprogram)
    obtain ⟨hid, hmodules⟩ : p.id = p'.id ∧ p.modules.map (fun _ => Module.unlinked) =
        p'.modules.map fun _ => Module.unlinked := by
      simpa [unlinked] using hrest
    have htable : p.modules = p'.modules := by
      apply Std.ExtTreeMap.ext_getElem?
      intro path
      have hsame := congrArg (·[path]?) hmodules
      simp only [Std.ExtTreeMap.getElem?_map] at hsame
      cases h : p.modules[path]? <;> cases h' : p'.modules[path]? <;> simp [h, h'] at hsame ⊢
      refine hmodule hsame (hlinks [.module path] _ _ ?_ ?_)
      · rw [get?_singleton, child?, h, Option.map_some]
      · rw [get?_singleton, child?, h', Option.map_some]
    cases p; cases p'
    simp_all
  by_cases hmod : r.kind = .module
  · obtain ⟨m, rfl⟩ := exists_eq_module hmod
    obtain ⟨m', rfl⟩ := exists_eq_module (hkind ▸ hmod)
    exact congrArg module (hmodule (module.inj hrest) (hlinks [] m m' rfl rfl))
  · rw [← unlinked_eq_self hprogram hmod, hrest,
      unlinked_eq_self (hkind ▸ hprogram) (hkind ▸ hmod)]

/-! ### The links of a record -/

/-- The imports and exports of a record: a module with nothing else. -/
def ledger : Record → Module
  | .module m => { imports := m.imports, exports := m.exports }
  | _ => {}

theorem links_of_ledger_eq {ls : List Link} {old m : Module}
    (h : (Record.module m).ledger = ls.foldl Module.link (Record.module old).ledger) :
    Module.Links ls old m := by
  have hlinks := Module.links_foldl (Record.module old).ledger ls
  rw [← h] at hlinks
  refine ⟨fun key => ?_, hlinks.paths, hlinks.nonempty⟩
  cases key with
  | imported path asName => exact hlinks.named (.imported path asName)
  | exported asName => exact hlinks.named (.exported asName)

end Record

end Declarations
