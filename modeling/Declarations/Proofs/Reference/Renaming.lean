/-
  Declarations/Proofs/Reference/Renaming.lean
  ===========================================
  **References under other handles.**

  A renaming `τ` gives handles other numbers.  A reference keeps its tree, its names
  and the names that its handles are shown under.

  Resolution commutes with renaming, as long as the reference as written holds no
  handle: the renamed outcome is the outcome of a renamed lookup (`rename_resolve`).
-/
import Declarations.Proofs.Reference.Handles

namespace Declarations

variable {τ τ' : Nat → Nat} {lookup : String → Option TypeHandle}

/-! ## 1. Handles and identifiers -/

namespace TypeHandle

/-- The handle with the number that `τ` gives it. -/
def rename (τ : Nat → Nat) (handle : TypeHandle) : TypeHandle := ⟨τ handle.id, handle.display⟩

@[simp] theorem rename_self (handle : TypeHandle) : handle.rename (fun i => i) = handle := rfl

@[simp] theorem rename_rename (τ τ' : Nat → Nat) (handle : TypeHandle) :
    (handle.rename τ).rename τ' = handle.rename (τ' ∘ τ) := rfl

@[simp] theorem display_rename (handle : TypeHandle) : (handle.rename τ).display = handle.display :=
  rfl

end TypeHandle

namespace TypeIdentifier

def rename (τ : Nat → Nat) : TypeIdentifier → TypeIdentifier
  | .name text => .name text
  | .handle declared => .handle (declared.rename τ)

@[simp] theorem rename_self (identifier : TypeIdentifier) :
    identifier.rename (fun i => i) = identifier := by
  cases identifier <;> rfl

@[simp] theorem rename_rename (τ τ' : Nat → Nat) (identifier : TypeIdentifier) :
    (identifier.rename τ).rename τ' = identifier.rename (τ' ∘ τ) := by
  cases identifier <;> rfl

end TypeIdentifier

/-! ## 2. References -/

namespace TypeReference

mutual

/-- The reference with the numbers that `τ` gives its handles. -/
def rename (τ : Nat → Nat) : TypeReference → TypeReference
  | ⟨identifier, arguments⟩ => ⟨identifier.rename τ, renameMany τ arguments⟩

def renameMany (τ : Nat → Nat) : Option (List TypeReference) → Option (List TypeReference)
  | none => none
  | some references => some (renameAll τ references)

def renameAll (τ : Nat → Nat) : List TypeReference → List TypeReference
  | [] => []
  | reference :: rest => rename τ reference :: renameAll τ rest

end

mutual

@[simp] theorem rename_self : (reference : TypeReference) →
    reference.rename (fun i => i) = reference
  | ⟨identifier, arguments⟩ => by
    rw [rename, TypeIdentifier.rename_self, renameMany_self arguments]

theorem renameMany_self : (arguments : Option (List TypeReference)) →
    renameMany (fun i => i) arguments = arguments
  | none => rfl
  | some references => by rw [renameMany, renameAll_self references]

theorem renameAll_self : (references : List TypeReference) →
    renameAll (fun i => i) references = references
  | [] => rfl
  | reference :: rest => by rw [renameAll, rename_self reference, renameAll_self rest]

end

mutual

@[simp] theorem rename_rename (τ τ' : Nat → Nat) : (reference : TypeReference) →
    (reference.rename τ).rename τ' = reference.rename (τ' ∘ τ)
  | ⟨identifier, arguments⟩ => by
    rw [rename, rename, rename, TypeIdentifier.rename_rename, renameMany_renameMany τ τ' arguments]

theorem renameMany_renameMany (τ τ' : Nat → Nat) : (arguments : Option (List TypeReference)) →
    renameMany τ' (renameMany τ arguments) = renameMany (τ' ∘ τ) arguments
  | none => rfl
  | some references => by
    rw [renameMany, renameMany, renameMany, renameAll_renameAll τ τ' references]

theorem renameAll_renameAll (τ τ' : Nat → Nat) : (references : List TypeReference) →
    renameAll τ' (renameAll τ references) = renameAll (τ' ∘ τ) references
  | [] => rfl
  | reference :: rest => by
    rw [renameAll, renameAll, renameAll, rename_rename τ τ' reference,
      renameAll_renameAll τ τ' rest]

end

/-! ## 3. Renaming and resolution -/

mutual

/-- Without handles there is nothing to rename. -/
theorem rename_of_handles_eq_nil : (reference : TypeReference) → reference.handles = [] →
    reference.rename τ = reference
  | ⟨.handle _, _⟩, h => by simp [handles, TypeIdentifier.handle?] at h
  | ⟨.name _, arguments⟩, h => by
    rw [rename, renameMany_of_handles_eq_nil arguments (List.append_eq_nil_iff.mp h).2,
      TypeIdentifier.rename]

theorem renameMany_of_handles_eq_nil : (arguments : Option (List TypeReference)) →
    handlesOfArguments arguments = [] → renameMany τ arguments = arguments
  | none, _ => rfl
  | some references, h => by rw [renameMany, renameAll_of_handles_eq_nil references h]

theorem renameAll_of_handles_eq_nil : (references : List TypeReference) →
    handlesOfAll references = [] → renameAll τ references = references
  | [], _ => rfl
  | reference :: rest, h => by
    obtain ⟨hfirst, hrest⟩ := List.append_eq_nil_iff.mp h
    rw [renameAll, rename_of_handles_eq_nil reference hfirst,
      renameAll_of_handles_eq_nil rest hrest]

end

mutual

/-- Renaming what a reference was resolved to is resolving it by renamed handles. -/
theorem rename_resolve : (reference : TypeReference) → reference.handles = [] →
    (resolve lookup reference).rename τ =
      resolve (fun name => (lookup name).map (TypeHandle.rename τ)) reference
  | ⟨.handle _, _⟩, h => by simp [handles, TypeIdentifier.handle?] at h
  | ⟨.name text, arguments⟩, h => by
    have harguments : handlesOfArguments arguments = [] := (List.append_eq_nil_iff.mp h).2
    cases hlookup : lookup text with
    | none =>
      simp only [resolve, hlookup, Option.map_none]
      exact rename_of_handles_eq_nil _ h
    | some found =>
      simp only [resolve, hlookup, Option.map_some, rename, TypeIdentifier.rename]
      rw [renameMany_resolveMany arguments harguments]

theorem renameMany_resolveMany : (arguments : Option (List TypeReference)) →
    handlesOfArguments arguments = [] →
    renameMany τ (resolveMany lookup arguments) =
      resolveMany (fun name => (lookup name).map (TypeHandle.rename τ)) arguments
  | none, _ => rfl
  | some references, h => by
    rw [resolveMany, renameMany, renameAll_resolveAll references h, resolveMany]

theorem renameAll_resolveAll : (references : List TypeReference) →
    handlesOfAll references = [] →
    renameAll τ (resolveAll lookup references) =
      resolveAll (fun name => (lookup name).map (TypeHandle.rename τ)) references
  | [], _ => rfl
  | reference :: rest, h => by
    obtain ⟨hfirst, hrest⟩ := List.append_eq_nil_iff.mp h
    rw [resolveAll, renameAll, rename_resolve reference hfirst, renameAll_resolveAll rest hrest,
      resolveAll]

end

end TypeReference

end Declarations
