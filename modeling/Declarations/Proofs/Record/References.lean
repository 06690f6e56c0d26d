/-
  Declarations/Proofs/Record/References.lean
  ==========================================
  **The type references that a record holds by itself.**

  `Record.references` lists them, those of its children left out: the type of a
  field, the type that a callable returns, what a class or interface extends and
  implements.  A revision adds references that the step gives, as the names at hand
  resolve them (`mem_references_of_revise?`), and nothing else adds any.

  A step is given names alone if neither its references nor its type parameters
  hold a handle (`Step.UsesNames`).
-/
import Declarations.Proofs.Reference.Handles
import Declarations.Proofs.Record.Naming
import Declarations.Proofs.Record.Revision

namespace Declarations

/-! ## 1. What a step is given -/

namespace Step

def references : Step → List TypeReference
  | .set .type (some reference) => [reference]
  | .set .returnType (some reference) => [reference]
  | .set .superclass (some reference) => [reference]
  | .addImplements references | .addExtends references => references
  | _ => []

def typeParameters : Step → List TypeIdentifier
  | .addTypeParameters parameters => parameters
  | _ => []

/-- The step is given no handles. -/
def UsesNames (step : Step) : Prop :=
  (∀ reference ∈ step.references, reference.handles = []) ∧
    ∀ parameter ∈ step.typeParameters, parameter.handle? = none

instance (step : Step) : Decidable step.UsesNames := inferInstanceAs (Decidable (_ ∧ _))

end Step

/-! ## 2. What a record holds -/

namespace Record

def references : Record → List TypeReference
  | .variable v => v.type.toList
  | .property p => p.type.toList
  | .parameter p => p.type.toList
  | .function f => f.returnType.toList
  | .method m => m.returnType.toList
  | .class c => c.superclass.toList ++ c.implemented.getD []
  | .interface i => i.extended.getD []
  | _ => []

variable {lookup : String → Option TypeHandle} {step : Step} {r r' : Record}
variable {reference : TypeReference}

theorem shallow_references : Shallow references := by
  intro r slot _ child' _ _
  unfold put
  split <;> rfl

theorem references_put (r : Record) (slot : Slot) (child : Record) :
    (r.put slot child).references = r.references := by
  unfold put
  split <;> rfl

theorem references_withId_bare (d : Declaration) (handle : Option TypeHandle) (id : EntityId) :
    ((d.bare handle).withId id).references = [] := by
  cases d <;> rfl

theorem references_withTypeParameters? {handles : Option (List TypeHandle)}
    (h : r.withTypeParameters? handles = some r') : r'.references = r.references := by
  rcases r with _ | _ | e | _ | _ | _ | _
  case entry => cases e <;> simp [withTypeParameters?] at h <;> subst h <;> rfl
  all_goals simp [withTypeParameters?] at h <;> subst h <;> rfl

theorem mem_references_of_write? {a : Attribute} {value : a.Value}
    (h : r.write? a (some (a.resolve lookup value)) = some r') (hmem : reference ∈ r'.references) :
    reference ∈ r.references ∨
      ∃ given ∈ (Step.set a (some value)).references, reference = given.resolve lookup := by
  rcases r with _ | _ | e | _ | _ | _ | _
  case entry =>
    cases e <;> cases a <;> simp [write?] at h <;> subst h <;>
      simp_all [references, Step.references, Attribute.resolve]
    case class.superclass => exact hmem.elim Or.inr (Or.inl ∘ Or.inr)
  all_goals
    cases a <;> simp [write?] at h <;> subst h <;>
      simp_all [references, Step.references, Attribute.resolve]

/-- What a revision adds to the references was given and resolved. -/
theorem mem_references_of_revise? (h : r.revise? lookup step = some r')
    (hmem : reference ∈ r'.references) :
    reference ∈ r.references ∨ ∃ given ∈ step.references, reference = given.resolve lookup := by
  have happend : ∀ (old : Option (List TypeReference)) (given : List TypeReference),
      reference ∈ (appendTo old (given.map (TypeReference.resolve lookup))).getD [] →
      reference ∈ old.getD [] ∨ ∃ g ∈ given, reference = g.resolve lookup := by
    intro old given hmem
    rw [getD_appendTo, List.mem_append, List.mem_map] at hmem
    exact hmem.imp_right fun ⟨g, hg, heq⟩ => ⟨g, hg, heq.symm⟩
  unfold revise? at h
  split at h
  case h_3 a value r =>
    obtain ⟨given, hgiven, hwrite⟩ := Option.bind_eq_some_iff.mp h
    obtain ⟨rfl, -⟩ := Option.filter_eq_some_iff.mp hgiven
    exact mem_references_of_write? hwrite hmem
  case h_4 given c =>
    obtain rfl := Option.some.inj h
    rcases List.mem_append.mp hmem with hmem | hmem
    · exact Or.inl (List.mem_append_left _ hmem)
    · exact (happend _ _ hmem).imp_left (List.mem_append_right _)
  case h_5 given i =>
    obtain rfl := Option.some.inj h
    exact happend _ _ hmem
  case h_6 => simp at h
  all_goals
    obtain rfl := Option.some.inj h
    exact Or.inl hmem

end Record

end Declarations
