/-
  Declarations/Proofs/Session/Finality.lean
  =========================================
  **What has been resolved stays, and what has not can be resolved later.**

  Resolution looks at the root first.  If the root is known, as a handle or as a name that is
  bound, the result begins with a handle (`TypeReference.isResolved_resolve_iff`), and such
  a reference is the same to every scope (`TypeReference.resolve_of_isResolved`): no later
  resolution changes it, not even an argument whose name has become bound since.  If the
  root is not known the reference is kept as it was written, and a later resolution finds all
  of it.

  So it does not matter where a reference has been before: one that is read off a record and
  given to a record again is stored as it is, once its root is a handle.
-/
import Declarations.Proofs.Scope.Resolution
import Declarations.Proofs.Session.Setters

namespace Declarations

namespace TypeReference

variable {lookup lookup' : String → Option TypeHandle} {reference : TypeReference}

/-! ## 1. Roots -/

/-- The root is a handle, or a name that `lookup` finds. -/
def RootKnown (lookup : String → Option TypeHandle) (reference : TypeReference) : Prop :=
  reference.identifier.isResolved ∨
    ∃ name, reference.identifier = .name name ∧ (lookup name).isSome

theorem BoundDownTo.rootKnown (h : BoundDownTo lookup reference []) :
    RootKnown lookup reference := by
  obtain ⟨name, handle, hname, hlookup, -⟩ := resolve_of_boundDownTo_nil h
  exact Or.inr ⟨name, hname, by rw [hlookup, Option.isSome_some]⟩

theorem resolve_of_isResolved (h : reference.identifier.isResolved)
    (lookup : String → Option TypeHandle) : resolve lookup reference = reference := by
  obtain ⟨identifier, arguments⟩ := reference
  cases identifier with
  | handle declared => rfl
  | name text => cases h

theorem resolve_of_not_rootKnown (h : ¬ RootKnown lookup reference) :
    resolve lookup reference = reference :=
  resolve_of_not_boundDownTo_nil fun hbound => h hbound.rootKnown

theorem isResolved_resolve_iff :
    (resolve lookup reference).identifier.isResolved ↔ RootKnown lookup reference := by
  constructor
  · intro hresolved
    by_contra hnot
    rw [resolve_of_not_rootKnown hnot] at hresolved
    exact hnot (Or.inl hresolved)
  · rintro (hresolved | ⟨name, hname, hbound⟩)
    · rwa [resolve_of_isResolved hresolved]
    · obtain ⟨handle, hlookup⟩ := Option.isSome_iff_exists.mp hbound
      obtain ⟨identifier, arguments⟩ := reference
      obtain rfl : identifier = .name name := hname
      simp only [resolve, hlookup]
      rfl

/-! ## 2. Two resolutions -/

theorem resolve_resolve_of_rootKnown (h : RootKnown lookup reference) :
    resolve lookup' (resolve lookup reference) = resolve lookup reference :=
  resolve_of_isResolved (isResolved_resolve_iff.mpr h) lookup'

theorem resolve_resolve_of_not_rootKnown (h : ¬ RootKnown lookup reference) :
    resolve lookup' (resolve lookup reference) = resolve lookup' reference := by
  rw [resolve_of_not_rootKnown h]

theorem resolve_resolve (lookup : String → Option TypeHandle) (reference : TypeReference) :
    resolve lookup (resolve lookup reference) = resolve lookup reference := by
  by_cases h : RootKnown lookup reference
  · exact resolve_resolve_of_rootKnown h
  · exact resolve_resolve_of_not_rootKnown h

theorem resolveMany_resolveMany (lookup : String → Option TypeHandle)
    (references : Option (List TypeReference)) :
    resolveMany lookup (resolveMany lookup references) = resolveMany lookup references := by
  rw [resolveMany_eq_map, resolveMany_eq_map, Option.map_map]
  congr 1
  funext list
  rw [Function.comp_apply, List.map_map]
  exact List.map_congr_left fun reference _ => resolve_resolve lookup reference

end TypeReference

/-- The type reference that a value of an attribute is, if it is one. -/
def Attribute.reference? : (a : Attribute) → a.Value → Option TypeReference
  | .type, reference | .returnType, reference | .superclass, reference => some reference
  | _, _ => none

theorem Attribute.resolve_of_isResolved {a : Attribute} {value : a.Value}
    {reference : TypeReference} (hvalue : a.reference? value = some reference)
    (hroot : reference.identifier.isResolved) (lookup : String → Option TypeHandle) :
    a.resolve lookup value = value ∧ a.isPresent value := by
  cases a with
  | type | returnType | superclass =>
    obtain rfl : value = reference := Option.some.inj hvalue
    exact ⟨TypeReference.resolve_of_isResolved hroot lookup, rfl⟩
  | _ => cases hvalue

/-! ## 3. Scopes and records -/

namespace Session

open TypeReference

variable {s : Session} {draft : Draft} {r : Record} {a : Attribute} {value : a.Value}
variable {old : Option a.Value} {reference : TypeReference}

theorem step?_set_of_isResolved (hcurrent : s.current? = some (draft, r))
    (hread : r.read? a = some old) (hvalue : a.reference? value = some reference)
    (hroot : reference.identifier.isResolved) :
    ∃ r', s.step? (.set a (some value)) = some (s.replace draft.place r') ∧
      r.write? a (some value) = some r' := by
  obtain ⟨hresolve, hpresent⟩ := Attribute.resolve_of_isResolved hvalue hroot
    (s.workspace.lookup draft.scope)
  obtain ⟨r', hwrite, hstep⟩ := step?_set_of_present hcurrent hread hpresent
  exact ⟨r', hstep, by rw [← hwrite, hresolve]⟩

theorem step?_set_self (hcurrent : s.current? = some (draft, r))
    (hread : r.read? a = some (some value)) (hvalue : a.reference? value = some reference)
    (hroot : reference.identifier.isResolved) : s.step? (.set a (some value)) = some s := by
  obtain ⟨rest, hdrafts, hrecord⟩ := current?_eq_some_iff.mp hcurrent
  obtain ⟨r', hstep, hwrite⟩ := step?_set_of_isResolved hcurrent hread hvalue hroot
  obtain rfl : r' = r := Option.some.inj (hwrite.symm.trans (Record.write?_self hread))
  rw [hstep, replace, Record.replace_self hrecord]

/-- **A reference whose root is known is resolved once and for all; any other is left to the
    next resolution, as if there had been none before.**

    The two resolutions may be in any two scopes, of any two states.  With both the same,
    resolution is idempotent, for one reference and for a list.  And a reference with a
    resolved root is stored as it is when it is given to a record, whatever has been bound
    meanwhile: where it was read, setting it again changes nothing. -/
theorem resolution_final :
    (∀ (w w' : Workspace) (scope scope' : Scope) (reference : TypeReference),
      (RootKnown (w.lookup scope) reference →
        w'.resolve scope' (w.resolve scope reference) = w.resolve scope reference) ∧
      (¬ RootKnown (w.lookup scope) reference →
        w'.resolve scope' (w.resolve scope reference) = w'.resolve scope' reference)) ∧
    (∀ (w : Workspace) (scope : Scope),
      (∀ reference, w.resolve scope (w.resolve scope reference) = w.resolve scope reference) ∧
      ∀ references, w.resolveMany scope (w.resolveMany scope references) =
        w.resolveMany scope references) ∧
    (∀ (s : Session) (draft : Draft) (r : Record) (a : Attribute) (old : Option a.Value)
      (value : a.Value) (reference : TypeReference), s.current? = some (draft, r) →
      r.read? a = some old → a.reference? value = some reference →
      reference.identifier.isResolved →
      (∃ r', s.step? (.set a (some value)) = some (s.replace draft.place r') ∧
        r'.read? a = some (some value)) ∧
      (old = some value → s.step? (.set a (some value)) = some s)) := by
  refine ⟨fun w w' scope scope' reference => ⟨?known, ?unknown⟩, fun w scope => ⟨?one, ?many⟩, ?_⟩
  case known => exact resolve_resolve_of_rootKnown
  case unknown => exact resolve_resolve_of_not_rootKnown
  case one => exact resolve_resolve (w.lookup scope)
  case many => exact resolveMany_resolveMany (w.lookup scope)
  intro s draft r a old value reference hcurrent hread hvalue hroot
  obtain ⟨r', hstep, hwrite⟩ := step?_set_of_isResolved hcurrent hread hvalue hroot
  refine ⟨⟨r', hstep, Record.read?_of_write? hwrite⟩, ?_⟩
  rintro rfl
  exact step?_set_self hcurrent hread hvalue hroot

/-- `Box<Item>` is given to a class as the class to extend, while `Box` is known and `Item` is
    not.  Then the class declares `Item` as its type parameter.  Given to the class again,
    the stored reference stays, and so does the session; but `Item<Box>`, which could not be
    resolved at first, is resolved now. -/
theorem resolution_final_argument :
    ∃ before after draft r stored, (ofProgram ∅ {}).run? [.openModule "app",
        .declare (.class "Box"), .close, .declare (.class "User"),
        .set .superclass (some (.applied (.name "Box") [.bare (.name "Item")]))] = some before ∧
      before.step? (.addTypeParameters [.name "Item"]) = some after ∧
      after.current? = some (draft, r) ∧
      before.workspace.lookup draft.scope "Item" = none ∧
      after.workspace.lookup draft.scope "Item" = some ⟨3, "Item"⟩ ∧
      stored = .applied (.handle ⟨1, "app::Box"⟩) [.bare (.name "Item")] ∧
      r.read? .superclass = some (some stored) ∧
      after.step? (.set .superclass (some stored)) = some after ∧
      after.workspace.resolve draft.scope (before.workspace.resolve draft.scope
          (.applied (.name "Item") [.bare (.name "Box")])) =
        .applied (.handle ⟨3, "Item"⟩) [.bare (.handle ⟨1, "app::Box"⟩)] := by
  obtain ⟨before, after, draft, r, stored, hrun, hstep, hcurrent, hunbound, hbound, hbox, hstored,
      hread⟩ : ∃ before after draft r stored, (ofProgram ∅ {}).run? [.openModule "app",
        .declare (.class "Box"), .close, .declare (.class "User"),
        .set .superclass (some (.applied (.name "Box") [.bare (.name "Item")]))] = some before ∧
      before.step? (.addTypeParameters [.name "Item"]) = some after ∧
      after.current? = some (draft, r) ∧
      before.workspace.lookup draft.scope "Item" = none ∧
      after.workspace.lookup draft.scope "Item" = some ⟨3, "Item"⟩ ∧
      after.workspace.lookup draft.scope "Box" = some ⟨1, "app::Box"⟩ ∧
      stored = .applied (.handle ⟨1, "app::Box"⟩) [.bare (.name "Item")] ∧
      r.read? .superclass = some (some stored) :=
    ⟨_, _, _, _, _, rfl, rfl, rfl, rfl, rfl, rfl, rfl, rfl⟩
  obtain ⟨htwo, -, hset⟩ := resolution_final
  have hroot : stored.identifier.isResolved := by
    rw [hstored]
    rfl
  have hunknown : ¬ RootKnown (before.workspace.lookup draft.scope)
      (.applied (.name "Item") [.bare (.name "Box")]) := by
    rintro (hresolved | ⟨name, hname, hknown⟩)
    · cases hresolved
    · obtain rfl : "Item" = name := TypeIdentifier.name.inj hname
      rw [hunbound] at hknown
      cases hknown
  refine ⟨before, after, draft, r, stored, hrun, hstep, hcurrent, hunbound, hbound, hstored, hread,
    (hset after draft r .superclass _ stored stored hcurrent hread rfl hroot).2 rfl, ?_⟩
  rw [(htwo before.workspace after.workspace draft.scope draft.scope _).2 hunknown]
  simp only [Workspace.resolve, applied, bare, resolve, resolveMany, resolveAll, hbound, hbox]

end Session

end Declarations
