/-
  Declarations/Proofs/Scope/Resolution.lean
  =========================================
  **What resolution changes in a reference.**

  Resolution goes down from the root as long as it meets names that are bound.  So
  the node at a position is resolved if all nodes from the root down to it are bound
  names, itself included (`TypeReference.BoundDownTo`), and then its identifier is the
  handle that its name is bound to.  Every other node is kept with all that is below
  it: a name that is not bound and a handle hide what follows them, and bound names
  among their arguments stay as they were written.

  The tree stays the same everywhere.  Each node has as many arguments as before, and
  a node without a list of arguments gets none.
-/
import Declarations.Scope
import Declarations.Proofs.Reference.Positions

namespace Declarations

namespace TypeReference

variable {lookup : String → Option TypeHandle} {reference argument : TypeReference} {index : Nat}
variable {position : Position}

/-! ## 1. Nodes that are reached -/

/-- From the root down to a position, every node is a name that `lookup` finds. -/
def BoundDownTo (lookup : String → Option TypeHandle) (reference : TypeReference)
    (position : Position) : Prop :=
  ∀ above, above <+: position → ∃ name handle,
    reference.identifierAt? above = some (.name name) ∧ lookup name = some handle

theorem BoundDownTo.root (h : BoundDownTo lookup reference position) :
    BoundDownTo lookup reference [] := by
  intro above habove
  exact h above (habove.trans List.nil_prefix)

theorem boundDownTo_cons_iff (h : reference.argument? index = some argument) :
    BoundDownTo lookup reference (index :: position) ↔
      BoundDownTo lookup reference [] ∧ BoundDownTo lookup argument position := by
  constructor
  · intro hbound
    refine ⟨hbound.root, ?_⟩
    intro above habove
    rw [← identifierAt?_cons h]
    exact hbound _ ((List.prefix_cons_inj index).mpr habove)
  · rintro ⟨hroot, hbelow⟩ above habove
    rcases List.prefix_cons_iff.mp habove with rfl | ⟨rest, rfl, hrest⟩
    · exact hroot [] List.nil_prefix
    · rw [identifierAt?_cons h]
      exact hbelow rest hrest

theorem exists_argument?_of_boundDownTo (h : BoundDownTo lookup reference (index :: position)) :
    ∃ argument, reference.argument? index = some argument := by
  obtain ⟨name, handle, hname, -⟩ := h [index] (by simp)
  cases hargument : reference.argument? index with
  | none => simp [identifierAt?, get?_cons, hargument] at hname
  | some argument => exact ⟨argument, rfl⟩

theorem boundDownTo_nil_iff : BoundDownTo lookup reference [] ↔
    ∃ name handle, reference.identifier = .name name ∧ lookup name = some handle := by
  constructor
  · intro h
    obtain ⟨name, handle, hname, hlookup⟩ := h [] List.nil_prefix
    exact ⟨name, handle, Option.some.inj hname, hlookup⟩
  · rintro ⟨name, handle, hname, hlookup⟩ above habove
    obtain rfl := List.prefix_nil.mp habove
    exact ⟨name, handle, congrArg some hname, hlookup⟩

/-! ## 2. What becomes of a node -/

/-- A root that is a bound name becomes its handle, and the arguments are resolved. -/
theorem resolve_of_boundDownTo_nil (h : BoundDownTo lookup reference []) :
    ∃ name handle, reference.identifier = .name name ∧ lookup name = some handle ∧
      resolve lookup reference = ⟨.handle handle, resolveMany lookup reference.arguments⟩ := by
  obtain ⟨name, handle, hname, hlookup⟩ := boundDownTo_nil_iff.mp h
  obtain ⟨identifier, arguments⟩ := reference
  obtain rfl : identifier = .name name := hname
  exact ⟨name, handle, rfl, hlookup, by simp only [resolve, hlookup]⟩

/-- Any other root is kept, and the arguments with it. -/
theorem resolve_of_not_boundDownTo_nil (h : ¬ BoundDownTo lookup reference []) :
    resolve lookup reference = reference := by
  obtain ⟨identifier, arguments⟩ := reference
  cases identifier with
  | handle declared => rfl
  | name text =>
    cases hlookup : lookup text with
    | none => simp only [resolve, hlookup]
    | some handle => exact absurd (boundDownTo_nil_iff.mpr ⟨text, handle, rfl, hlookup⟩) h

theorem arity_resolve (lookup : String → Option TypeHandle) (reference : TypeReference) :
    (resolve lookup reference).arity = reference.arity := by
  by_cases h : BoundDownTo lookup reference []
  · obtain ⟨name, handle, -, -, hresolve⟩ := resolve_of_boundDownTo_nil h
    rw [hresolve, arity, resolveMany_eq_map, Option.map_map, arity]
    simp [Function.comp_def]
  · rw [resolve_of_not_boundDownTo_nil h]

/-- Below a bound name each argument is resolved. -/
theorem argument?_resolve (h : BoundDownTo lookup reference []) (index : Nat) :
    (resolve lookup reference).argument? index =
      (reference.argument? index).map (resolve lookup) := by
  obtain ⟨name, handle, -, -, hresolve⟩ := resolve_of_boundDownTo_nil h
  rw [hresolve, argument?, resolveMany_eq_map, argument?]
  cases reference.arguments with
  | none => rfl
  | some references => exact List.getElem?_map

theorem get?_resolve_of_boundDownTo (h : BoundDownTo lookup reference position) :
    (resolve lookup reference).get? position = (reference.get? position).map (resolve lookup) := by
  induction position generalizing reference with
  | nil => rfl
  | cons index position ih =>
    obtain ⟨argument, hargument⟩ := exists_argument?_of_boundDownTo h
    obtain ⟨hroot, hbelow⟩ := (boundDownTo_cons_iff hargument).mp h
    rw [get?_cons, argument?_resolve hroot, get?_cons, hargument]
    exact ih hbelow

/-- A node that resolution does not reach is kept with all below it. -/
theorem get?_resolve_of_not_boundDownTo (h : ¬ BoundDownTo lookup reference position) :
    (resolve lookup reference).get? position = reference.get? position := by
  induction position generalizing reference with
  | nil => rw [resolve_of_not_boundDownTo_nil h]
  | cons index position ih =>
    by_cases hroot : BoundDownTo lookup reference []
    · rw [get?_cons, argument?_resolve hroot, get?_cons]
      cases hargument : reference.argument? index with
      | none => rfl
      | some argument =>
        rw [boundDownTo_cons_iff hargument] at h
        exact ih fun hbelow => h ⟨hroot, hbelow⟩
    · rw [resolve_of_not_boundDownTo_nil hroot]

theorem arityAt?_resolve (lookup : String → Option TypeHandle) (reference : TypeReference)
    (position : Position) :
    (resolve lookup reference).arityAt? position = reference.arityAt? position := by
  by_cases h : BoundDownTo lookup reference position
  · rw [arityAt?, get?_resolve_of_boundDownTo h, Option.map_map, arityAt?]
    congr 1
    funext found
    exact arity_resolve lookup found
  · rw [arityAt?, get?_resolve_of_not_boundDownTo h, arityAt?]

theorem identifierAt?_resolve_of_boundDownTo (h : BoundDownTo lookup reference position) :
    ∃ name handle, reference.identifierAt? position = some (.name name) ∧
      lookup name = some handle ∧
      (resolve lookup reference).identifierAt? position = some (.handle handle) := by
  obtain ⟨name, handle, hname, hlookup⟩ := h position (List.prefix_refl _)
  refine ⟨name, handle, hname, hlookup, ?_⟩
  obtain ⟨found, hfound, hidentifier⟩ := Option.map_eq_some_iff.mp hname
  obtain ⟨identifier, arguments⟩ := found
  obtain rfl : identifier = .name name := hidentifier
  rw [identifierAt?, get?_resolve_of_boundDownTo h, hfound, Option.map_some, Option.map_some]
  simp only [resolve, hlookup]

end TypeReference

/-! ## 3. Resolution in a scope -/

namespace Workspace

open TypeReference

/-- **Resolution rewrites the bound top part of a reference, and no more.**  Every
    node keeps its arity.  A node that is reached by bound names only, itself one of
    them, becomes the handle that its name is bound to.  Any other node is what it
    was, and so is all below it.  In a list, each reference is resolved for itself,
    and where there is no list there is none afterwards. -/
theorem resolve_rewrites (w : Workspace) (s : Scope) (reference : TypeReference) :
    (∀ position, (w.resolve s reference).arityAt? position = reference.arityAt? position) ∧
    (∀ position, BoundDownTo (w.lookup s) reference position →
      ∃ name handle, reference.identifierAt? position = some (.name name) ∧
        w.lookup s name = some handle ∧
        (w.resolve s reference).identifierAt? position = some (.handle handle)) ∧
    (∀ position, ¬ BoundDownTo (w.lookup s) reference position →
      (w.resolve s reference).identifierAt? position = reference.identifierAt? position ∧
        (w.resolve s reference).get? position = reference.get? position) ∧
    (∀ references, w.resolveMany s references = references.map (List.map (w.resolve s))) := by
  refine ⟨arityAt?_resolve _ reference, ?_, ?_, ?_⟩
  · exact fun position => identifierAt?_resolve_of_boundDownTo
  · intro position hnot
    have hkept := get?_resolve_of_not_boundDownTo hnot
    exact ⟨congrArg (Option.map identifier) hkept, hkept⟩
  · exact resolveMany_eq_map _

/-- `Map<K, List<K>, #5<K>>` in a fork of a scope that knows `Map`, where `K` is bound:
    the root and its first argument are resolved, the other two arguments are kept, and
    so is the `K` in each of them. -/
theorem resolve_rewrites_map :
    ∃ (w : Workspace) (s : Scope), w.lookup s "Map" = some ⟨1, "app::Map"⟩ ∧
      w.lookup s "K" = some ⟨2, "K"⟩ ∧ w.lookup s "List" = none ∧
      ∃ reference : TypeReference, reference = .applied (.name "Map") [.bare (.name "K"),
          .applied (.name "List") [.bare (.name "K")],
          .applied (.handle ⟨5, "K"⟩) [.bare (.name "K")]] ∧
        (w.resolve s reference).arityAt? [] = some (some 3) ∧
        (w.resolve s reference).identifierAt? [0] = some (.handle ⟨2, "K"⟩) ∧
        (w.resolve s reference).get? [1] = some (.applied (.name "List") [.bare (.name "K")]) ∧
        (w.resolve s reference).get? [2] =
          some (.applied (.handle ⟨5, "K"⟩) [.bare (.name "K")]) := by
  obtain ⟨w, s, hmap, hk, hlist⟩ : ∃ (w : Workspace) (s : Scope),
      w.lookup s "Map" = some ⟨1, "app::Map"⟩ ∧ w.lookup s "K" = some ⟨2, "K"⟩ ∧
        w.lookup s "List" = none :=
    ⟨(((((∅ : Workspace).root "app").2.bind ⟨"app", 0, []⟩ "Map" ⟨1, "app::Map"⟩).2.fork
      ⟨"app", 0, []⟩).2.bind ⟨"app", 1, [0]⟩ "K" ⟨2, "K"⟩).2, ⟨"app", 1, [0]⟩, rfl, rfl, rfl⟩
  refine ⟨w, s, hmap, hk, hlist, _, rfl, ?_⟩
  obtain ⟨harity, hbound, hkept, -⟩ := resolve_rewrites w s (.applied (.name "Map")
    [.bare (.name "K"), .applied (.name "List") [.bare (.name "K")],
      .applied (.handle ⟨5, "K"⟩) [.bare (.name "K")]])
  refine ⟨harity [], ?_, (hkept [1] ?_).2, (hkept [2] ?_).2⟩
  · obtain ⟨name, handle, hname, hlookup, hresolved⟩ := hbound [0] (by
      intro above habove
      rcases List.prefix_cons_iff.mp habove with rfl | ⟨rest, rfl, hrest⟩
      · exact ⟨"Map", _, rfl, hmap⟩
      · obtain rfl := List.prefix_nil.mp hrest
        exact ⟨"K", _, rfl, hk⟩)
    obtain rfl : "K" = name := TypeIdentifier.name.inj (Option.some.inj hname)
    rw [hresolved, ← Option.some.inj (hk.symm.trans hlookup)]
  · intro hreached
    obtain ⟨name, handle, hname, hlookup⟩ := hreached [1] (List.prefix_refl _)
    obtain rfl : "List" = name := TypeIdentifier.name.inj (Option.some.inj hname)
    rw [hlist] at hlookup
    cases hlookup
  · intro hreached
    obtain ⟨name, handle, hname, -⟩ := hreached [2] (List.prefix_refl _)
    cases hname

end Workspace

end Declarations
