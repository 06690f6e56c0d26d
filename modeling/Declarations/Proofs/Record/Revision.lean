/-
  Declarations/Proofs/Record/Revision.lean
  ========================================
  **Steps that change one record and nothing else.**

  Imports, exports, attributes and lists of interfaces are changes of the innermost
  record alone.  What becomes of it depends on the record, the step and on what
  names mean at the time, and on nothing else of the session
  (`Record.revise?`).  Identifier, children, type parameters and outline stay
  (`revise?_keeps`).
-/
import Declarations.Session
import Declarations.Proofs.Record.View

namespace Declarations.Record

variable {lookup : String → Option TypeHandle} {step : Step} {r r' : Record}

/-- The record after a step that changes it alone.  There is none if the step is
    of another sort, if the record has no use for it, or if it sets nothing. -/
def revise? (lookup : String → Option TypeHandle) : Step → Record → Option Record
  | .addImport path asName name, .module m => some (.module (m.addImport path asName name))
  | .addExport asName name, .module m => some (.module (m.addExport asName name))
  | .set a value, r =>
    (value.filter a.isPresent).bind fun value => r.write? a (some (a.resolve lookup value))
  | .addImplements references, .class c =>
    let resolved := references.map (TypeReference.resolve lookup)
    some (.class { c with implemented := appendTo c.implemented resolved })
  | .addExtends references, .interface i =>
    let resolved := references.map (TypeReference.resolve lookup)
    some (.interface { i with extended := appendTo i.extended resolved })
  | _, _ => none

theorem write?_keeps {a : Attribute} {x : Option a.Value} (h : r.write? a x = some r') :
    r'.outline = r.outline ∧ r'.id = r.id ∧ r'.child? = r.child? ∧
      r'.typeParameters? = r.typeParameters? := by
  rcases r with _ | _ | e | _ | _ | _ | _
  case entry =>
    cases e <;> cases a <;> simp [write?] at h <;> subst h <;>
      exact ⟨rfl, rfl, funext fun slot => by cases slot <;> rfl, rfl⟩
  all_goals
    cases a <;> simp [write?] at h <;> subst h <;>
      exact ⟨rfl, rfl, funext fun slot => by cases slot <;> rfl, rfl⟩

/-- A revision keeps all that the records around and below depend on. -/
theorem revise?_keeps (h : r.revise? lookup step = some r') :
    r'.outline = r.outline ∧ r'.id = r.id ∧ r'.child? = r.child? ∧
      r'.typeParameters? = r.typeParameters? := by
  unfold revise? at h
  split at h
  case h_3 =>
    obtain ⟨value, -, hwrite⟩ := Option.bind_eq_some_iff.mp h
    exact write?_keeps hwrite
  case h_6 => simp at h
  all_goals
    obtain rfl := Option.some.inj h
    exact ⟨rfl, rfl, funext fun slot => by cases slot <;> rfl, rfl⟩

end Declarations.Record
