/-
  Declarations/Lineage.lean
  =========================
  **Who contains whom.**

  A record is held by the record around it and has no way back to it.  A
  `Lineage` is the way back: a table that gives every registered record an
  identifier, the position of its row, and keeps the record's kind and at most
  one link to a parent.

  * `Lineage.alloc` and `Lineage.attach` add a row, the second one with a link
    that is written down unseen: its target need not be registered yet.
  * `Lineage.link` adds a link between two rows, once per row, and refuses one
    that would make a record its own ancestor.
  * `Lineage.firstAncestors` walks the links upwards.  A table built with
    `attach` alone may hold a cycle, so a walk says how far it goes.  When a
    walk ends it does so within `size` steps, since all that it meets are
    different and only the last may be unregistered; hence `Lineage.ancestors`.
-/
import Declarations.Kind

namespace Declarations

/-! ### Identifiers -/

/-- The identifier of a record: the position of its row in a lineage. -/
@[ext]
structure EntityId where
  raw : Nat
deriving DecidableEq, Repr, Hashable

namespace EntityId

/-- The identifier of a record that no lineage has registered.  It is the last
    number of 32 bits, so a table stops short of that many rows. -/
def unassigned : EntityId := ⟨UInt32.size - 1⟩

instance : Inhabited EntityId := ⟨unassigned⟩

/-- Whether a lineage handed out this identifier. -/
def isAssigned (id : EntityId) : Bool := id != unassigned

/-- How messages name a record. -/
def describe (id : EntityId) : String :=
  if id.isAssigned then "EntityId(" ++ toString id.raw ++ ")" else "EntityId(unassigned)"

end EntityId

/-! ### Refused links -/

/-- Why a link was refused. -/
inductive LinkError where
  | cyclic (child parent : EntityId)            -- `child` would be its own ancestor
  | unknownEntity (id : EntityId)               -- `id` has no row
  | alreadyAttached (child existing : EntityId) -- `child` has another parent already
deriving DecidableEq, Repr

/-- The message for a refused link. -/
def LinkError.message : LinkError → String
  | .cyclic child parent =>
    "cyclic ancestry: " ++ child.describe ++ " is " ++ parent.describe ++ " or one of its ancestors"
  | .unknownEntity id => "entity " ++ id.describe ++ " is not registered in this lineage"
  | .alreadyAttached child existing =>
    child.describe ++ " is already attached to " ++ existing.describe

/-! ### The table -/

/-- One row: a registered record's kind and its link. -/
structure Lineage.Row where
  kind : Kind
  parent : Option EntityId
deriving DecidableEq, Repr

/-- A table of records, by identifier. -/
structure Lineage where
  rows : Array Lineage.Row
deriving DecidableEq, Repr

namespace Lineage

/-- The table without rows. -/
def empty : Lineage := ⟨#[]⟩

instance : EmptyCollection Lineage := ⟨empty⟩

instance : Inhabited Lineage := ⟨empty⟩

/-- How many records are registered. -/
def size (t : Lineage) : Nat := t.rows.size

/-- Whether no record is registered. -/
def isEmpty (t : Lineage) : Bool := t.size == 0

/-- The kind of a registered record. -/
def kind? (t : Lineage) (id : EntityId) : Option Kind := t.rows[id.raw]?.map Row.kind

/-- The parent of a record, if it is registered and linked. -/
def parent? (t : Lineage) (id : EntityId) : Option EntityId := t.rows[id.raw]?.bind Row.parent

/-- Whether a record is registered. -/
def isRegistered (t : Lineage) (id : EntityId) : Bool := id.raw < t.size

/-- The identifier that the next registered record is given. -/
def next (t : Lineage) : EntityId := ⟨t.size⟩

/-- Register a record without a parent. -/
def alloc (t : Lineage) (kind : Kind) : EntityId × Lineage :=
  (t.next, ⟨t.rows.push ⟨kind, none⟩⟩)

/-- Register a record under `parent`, whether or not `parent` is registered. -/
def attach (t : Lineage) (kind : Kind) (parent : EntityId) : EntityId × Lineage :=
  (t.next, ⟨t.rows.push ⟨kind, some parent⟩⟩)

/-! ### Ancestors -/

/-- The first ancestors of a record, nearest first, at most `limit` of them. -/
def firstAncestors (t : Lineage) : (limit : Nat) → EntityId → List EntityId
  | 0, _ => []
  | limit + 1, id =>
    match t.parent? id with
    | none => []
    | some parent => parent :: t.firstAncestors limit parent

/-- All ancestors of a record, nearest first.  Without a cycle above `id` there
    are at most `size` of them: they are pairwise different, and all but the
    last are registered. -/
def ancestors (t : Lineage) (id : EntityId) : List EntityId := t.firstAncestors t.size id

/-- The nearest ancestor of a given kind. -/
def nearest (t : Lineage) (id : EntityId) (kind : Kind) : Option EntityId :=
  (t.ancestors id).find? fun ancestor => t.kind? ancestor = some kind

/-- Set the link of a row. -/
def setParent (t : Lineage) (child parent : EntityId) : Lineage :=
  ⟨t.rows.modify child.raw fun row => { row with parent := some parent }⟩

/-- Link `child` under `parent`.  Both must be registered; then the link must
    close no cycle; then `child` must have no other parent.  A link that is
    there already is granted again. -/
def link (t : Lineage) (child parent : EntityId) : Except LinkError Lineage :=
  if !t.isRegistered child then
    .error (.unknownEntity child)
  else if !t.isRegistered parent then
    .error (.unknownEntity parent)
  else if child = parent ∨ child ∈ t.ancestors parent then
    .error (.cyclic child parent)
  else
    match t.parent? child with
    | none => .ok (t.setParent child parent)
    | some existing =>
      if existing = parent then .ok t else .error (.alreadyAttached child existing)

/-! ### What a new row and a new link change -/

theorem parent?_alloc (t : Lineage) (kind : Kind) (id : EntityId) :
    (t.alloc kind).2.parent? id = t.parent? id := by
  simp only [parent?, alloc, Array.getElem?_push]
  split
  · next last => simp [last]
  · rfl

theorem parent?_attach (t : Lineage) (kind : Kind) (parent id : EntityId) :
    (t.attach kind parent).2.parent? id = if id = t.next then some parent else t.parent? id := by
  simp only [parent?, attach, next, size, EntityId.ext_iff, Array.getElem?_push]
  split <;> rfl

theorem kind?_alloc (t : Lineage) (kind : Kind) (id : EntityId) :
    (t.alloc kind).2.kind? id = if id = t.next then some kind else t.kind? id := by
  simp only [kind?, alloc, next, size, EntityId.ext_iff, Array.getElem?_push]
  split <;> rfl

theorem kind?_attach (t : Lineage) (kind : Kind) (parent id : EntityId) :
    (t.attach kind parent).2.kind? id = if id = t.next then some kind else t.kind? id := by
  simp only [kind?, attach, next, size, EntityId.ext_iff, Array.getElem?_push]
  split <;> rfl

theorem parent?_setParent (t : Lineage) (child parent id : EntityId) :
    (t.setParent child parent).parent? id =
      if child = id then (t.kind? id).map fun _ => parent else t.parent? id := by
  simp only [parent?, kind?, setParent, EntityId.ext_iff, Array.getElem?_modify]
  split
  · cases t.rows[id.raw]? <;> rfl
  · rfl

theorem kind?_setParent (t : Lineage) (child parent id : EntityId) :
    (t.setParent child parent).kind? id = t.kind? id := by
  simp only [kind?, setParent, Array.getElem?_modify]
  split
  · cases t.rows[id.raw]? <;> rfl
  · rfl

end Lineage

end Declarations
