/-
  Declarations/Proofs/Reference/Handles.lean
  ==========================================
  **The handles in a reference.**

  A reference holds handles at any depth: its own identifier may be one, and so
  may those of its arguments, of their arguments, and so on
  (`TypeReference.handles`).  Resolution adds no handle but those that the lookup
  gives (`mem_handles_resolve`).
-/
import Declarations.Reference

namespace Declarations.TypeReference

variable {lookup : String → Option TypeHandle} {handle : TypeHandle} {reference : TypeReference}
variable {references : List TypeReference}

mutual

/-- The handles in a reference, at any depth. -/
def handles : TypeReference → List TypeHandle
  | ⟨identifier, arguments⟩ => identifier.handle?.toList ++ handlesOfArguments arguments

def handlesOfArguments : Option (List TypeReference) → List TypeHandle
  | none => []
  | some references => handlesOfAll references

def handlesOfAll : List TypeReference → List TypeHandle
  | [] => []
  | reference :: rest => handles reference ++ handlesOfAll rest

end

mutual

/-- A resolved reference holds what was given and what was looked up. -/
theorem mem_handles_resolve : (reference : TypeReference) →
    handle ∈ (resolve lookup reference).handles →
    handle ∈ reference.handles ∨ ∃ name, lookup name = some handle
  | ⟨.handle _, _⟩, h => Or.inl h
  | ⟨.name text, arguments⟩, h => by
    unfold resolve at h
    cases hlookup : lookup text with
    | none =>
      rw [hlookup] at h
      exact Or.inl h
    | some found =>
      simp only [hlookup, handles, TypeIdentifier.handle?, Option.toList_some, List.cons_append,
        List.nil_append, List.mem_cons] at h
      rcases h with rfl | h
      · exact Or.inr ⟨text, hlookup⟩
      · exact (mem_handlesOfArguments_resolve arguments h).imp_left
          (List.mem_append_right _)

theorem mem_handlesOfArguments_resolve : (arguments : Option (List TypeReference)) →
    handle ∈ handlesOfArguments (resolveMany lookup arguments) →
    handle ∈ handlesOfArguments arguments ∨ ∃ name, lookup name = some handle
  | none, h => Or.inl h
  | some references, h => mem_handlesOfAll_resolve references h

theorem mem_handlesOfAll_resolve : (references : List TypeReference) →
    handle ∈ handlesOfAll (resolveAll lookup references) →
    handle ∈ handlesOfAll references ∨ ∃ name, lookup name = some handle
  | [], h => Or.inl h
  | reference :: rest, h => by
    rcases List.mem_append.mp h with h | h
    · exact (mem_handles_resolve reference h).imp_left (List.mem_append_left _)
    · exact (mem_handlesOfAll_resolve rest h).imp_left (List.mem_append_right _)

end

end Declarations.TypeReference
