/-
  Declarations/Record/Place.lean
  ==============================
  **Where a record stands in another.**

  Records contain records: a program its modules, a module its entries, a class
  or interface its properties and methods, a class its constructor, a callable
  its parameters.  A `Slot` names one child of a record and a `Place` is a path
  of slots from a root.  All that is needed of the eight kinds of containment
  is to look into a slot (`Record.child?`) and to fill it (`Record.put`); reading
  and replacing at a place follow the path.

  Filling a position past the end of a list appends, so that filling makes new
  children and replaces old ones alike.  Where the record has the slot and the
  child is of the kind for it, filling is seen in this slot and in no other
  (`Record.child?_put`).
-/
import Declarations.Record.Basic

namespace Declarations

/-- A child of a record. -/
inductive Slot where
  | module (path : String)
  | entry (position : Nat)
  | constructor
  | method (position : Nat)
  | property (position : Nat)
  | parameter (index : Nat)
deriving DecidableEq, Repr

/-- A path of slots, from a root record downwards. -/
abbrev Place := List Slot

/-! ### Filling a position of a list -/

/-- The list with `x` at a position, or at the end if the list is too short. -/
def fillAt {α : Type} (xs : List α) (position : Nat) (x : α) : List α :=
  xs.take position ++ x :: xs.drop (position + 1)

theorem getElem?_fillAt {α : Type} {xs : List α} {position : Nat} (x : α)
    (h : position ≤ xs.length) (other : Nat) :
    (fillAt xs position x)[other]? = if position = other then some x else xs[other]? := by
  have len : (xs.take position).length = position := by simp [h]
  unfold fillAt
  rcases Nat.lt_trichotomy other position with below | same | above
  · rw [List.getElem?_append_left (by omega), if_neg (by omega), List.getElem?_take_of_lt below]
  · subst same
    rw [List.getElem?_append_right (by omega), if_pos rfl]
    simp [len]
  · obtain ⟨k, rfl⟩ : ∃ k, other = position + 1 + k := ⟨other - position - 1, by omega⟩
    rw [List.getElem?_append_right (by omega), if_neg (by omega), len,
      show position + 1 + k - position = k + 1 by omega]
    simp

theorem fillAt_length {α : Type} (xs : List α) (x : α) : fillAt xs xs.length x = xs ++ [x] := by
  simp [fillAt]

/-! ### One slot -/

/-- Whether a record is of the kind that a slot is for. -/
def Slot.accepts : Slot → Record → Bool
  | .module _, .module _ => true
  | .entry _, .entry _ => true
  | .constructor, .constructor _ => true
  | .method _, .method _ => true
  | .property _, .property _ => true
  | .parameter _, .parameter _ => true
  | _, _ => false

namespace Record

/-- The child in a slot. -/
def child? : Record → Slot → Option Record
  | .program p, .module path => p.modules[path]?.map .module
  | .module m, .entry i => m.entries[i]?.map .entry
  | .class c, .constructor => c.constructor.map .constructor
  | .class c, .method i => c.methods[i]?.map .method
  | .class c, .property i => c.properties[i]?.map .property
  | .interface t, .method i => t.methods[i]?.map .method
  | .interface t, .property i => t.properties[i]?.map .property
  | .function f, .parameter i => (f.parameters.get? i).map .parameter
  | .method m, .parameter i => (m.parameters.get? i).map .parameter
  | .constructor k, .parameter i => (k.parameters.get? i).map .parameter
  | _, _ => none

/-- Fill a slot.  A record without the slot, or a child of the wrong kind for
    it, changes nothing. -/
def put : Record → Slot → Record → Record
  | .program p, .module path, .module m => .program { p with modules := p.modules.insert path m }
  | .module m, .entry i, .entry e => .module { m with entries := fillAt m.entries i e }
  | .class c, .constructor, .constructor k => .class { c with constructor := some k }
  | .class c, .method i, .method m => .class { c with methods := fillAt c.methods i m }
  | .class c, .property i, .property p => .class { c with properties := fillAt c.properties i p }
  | .interface t, .method i, .method m => .interface { t with methods := fillAt t.methods i m }
  | .interface t, .property i, .property p =>
    .interface { t with properties := fillAt t.properties i p }
  | .function f, .parameter i, .parameter p =>
    .function { f with parameters := f.parameters.insert i p }
  | .method m, .parameter i, .parameter p =>
    .method { m with parameters := m.parameters.insert i p }
  | .constructor k, .parameter i, .parameter p =>
    .constructor { k with parameters := k.parameters.insert i p }
  | r, _, _ => r

/-- Whether a slot can be filled: the record has such slots, and the position is
    in the list or next after it. -/
def HasSlot : Record → Slot → Prop
  | .program _, .module _ => True
  | .module m, .entry i => i ≤ m.entries.length
  | .class _, .constructor => True
  | .class c, .method i => i ≤ c.methods.length
  | .class c, .property i => i ≤ c.properties.length
  | .interface t, .method i => i ≤ t.methods.length
  | .interface t, .property i => i ≤ t.properties.length
  | .function _, .parameter _ | .method _, .parameter _ | .constructor _, .parameter _ => True
  | _, _ => False

/-- Filling a slot is seen in this slot and in no other. -/
theorem child?_put {r child : Record} {slot : Slot} (has : r.HasSlot slot)
    (accepts : slot.accepts child) (other : Slot) :
    (r.put slot child).child? other = if slot = other then some child else r.child? other := by
  rcases r with _ | _ | e | _ | _ | _ | _
  case entry =>
    cases e <;> cases slot <;> simp [HasSlot] at has <;> cases child <;>
      simp [Slot.accepts] at accepts <;> cases other <;>
      simp [put, child?, getElem?_fillAt, has, Parameters.get?_insert] <;> split <;> simp_all
  all_goals
    cases slot <;> simp [HasSlot] at has <;> cases child <;> simp [Slot.accepts] at accepts <;>
      cases other <;> simp [put, child?, getElem?_fillAt, has, Parameters.get?_insert,
        Std.ExtTreeMap.getElem?_insert] <;> split <;> simp_all

/-! ### A path of slots -/

/-- The record at a place. -/
def get? : Record → Place → Option Record
  | r, [] => some r
  | r, slot :: rest => (r.child? slot).bind (·.get? rest)

/-- The root with another record at a place; the same root if there is no
    record at the place. -/
def replace : Record → Place → Record → Record
  | _, [], new => new
  | r, slot :: rest, new =>
    match r.child? slot with
    | some child => r.put slot (child.replace rest new)
    | none => r

@[simp]
theorem get?_nil (r : Record) : r.get? [] = some r := rfl

theorem get?_cons (r : Record) (slot : Slot) (rest : Place) :
    r.get? (slot :: rest) = (r.child? slot).bind (·.get? rest) := rfl

/-- Going down two paths in turn is going down their concatenation. -/
theorem get?_append (r : Record) (p q : Place) :
    r.get? (p ++ q) = (r.get? p).bind (·.get? q) := by
  induction p generalizing r with
  | nil => rfl
  | cons slot rest ih =>
    rw [List.cons_append, get?_cons, get?_cons]
    cases r.child? slot with
    | none => rfl
    | some child => exact ih child

end Record

end Declarations
