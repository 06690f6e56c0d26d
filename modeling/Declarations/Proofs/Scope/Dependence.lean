/-
  Declarations/Proofs/Scope/Dependence.lean
  =========================================
  **What resolution depends on.**

  To resolve a reference, a scope is asked what the names in it mean
  (`TypeReference.Mentions`), and nothing else.  So two scopes that give the same
  answers for these names resolve the reference to the same, whatever they are: scopes
  of two modules, of two states, or one scope before and after.

  A scope that binds none of these names itself gives the answers of its parent, and a
  binding of any other name changes no answer for them.  This is why a record may share
  the scope around it or have one of its own, and the references in it mean the same,
  until it declares one of the names that occur in them.
-/
import Declarations.Proofs.Reference.Equality
import Declarations.Proofs.Scope.Binding
import Declarations.Proofs.Scope.Resolution

namespace Declarations

/-! ## 1. The names in a reference -/

namespace TypeReference

variable {lookup lookup' : String → Option TypeHandle} {reference a b : TypeReference}
variable {identifier : TypeIdentifier} {arguments : List TypeReference} {name : String}

/-- A name stands in a reference, at the root or at any depth below it. -/
def Mentions (reference : TypeReference) (name : String) : Prop :=
  ∃ position, reference.nameAt? position = some name

theorem mentions_iff : reference.Mentions name ↔ reference.identifier.name? = some name ∨
    ∃ index argument, reference.argument? index = some argument ∧ argument.Mentions name := by
  constructor
  · rintro ⟨position, hname⟩
    cases position with
    | nil => exact Or.inl hname
    | cons index position =>
      cases hargument : reference.argument? index with
      | none => simp [nameAt?, identifierAt?, get?_cons, hargument] at hname
      | some argument =>
        rw [nameAt?, identifierAt?_cons hargument] at hname
        exact Or.inr ⟨index, argument, hargument, position, hname⟩
  · rintro (hname | ⟨index, argument, hargument, position, hname⟩)
    · exact ⟨[], hname⟩
    · refine ⟨index :: position, ?_⟩
      rwa [nameAt?, identifierAt?_cons hargument]

@[simp] theorem mentions_bare : (bare identifier).Mentions name ↔ identifier.name? = some name := by
  rw [mentions_iff]
  simp [bare, argument?]

@[simp] theorem mentions_applied : (applied identifier arguments).Mentions name ↔
    identifier.name? = some name ∨ ∃ argument ∈ arguments, argument.Mentions name := by
  rw [mentions_iff]
  apply or_congr Iff.rfl
  constructor
  · rintro ⟨index, argument, hargument, hname⟩
    exact ⟨argument, List.mem_of_getElem? hargument, hname⟩
  · rintro ⟨argument, hmem, hname⟩
    obtain ⟨index, hargument⟩ := List.getElem?_of_mem hmem
    exact ⟨index, argument, hargument, hname⟩

/-! ## 2. Resolution by two lookups -/

/-- Two lookups that agree on the names in a reference resolve it to the same. -/
theorem resolve_congr (h : ∀ name, reference.Mentions name → lookup name = lookup' name) :
    resolve lookup reference = resolve lookup' reference := by
  induction reference using argument_induction with
  | step reference ih =>
    obtain ⟨identifier, arguments⟩ := reference
    cases identifier with
    | handle declared => rfl
    | name text =>
      have hroot : lookup text = lookup' text := h text (mentions_iff.mpr (Or.inl rfl))
      have harguments : resolveMany lookup arguments = resolveMany lookup' arguments := by
        rw [resolveMany_eq_map, resolveMany_eq_map]
        apply Option.map_congr
        rintro references rfl
        apply List.map_congr_left
        intro argument hmem
        obtain ⟨index, hargument⟩ := List.getElem?_of_mem hmem
        exact ih index argument hargument fun name hname =>
          h name (mentions_iff.mpr (Or.inr ⟨index, argument, hargument, hname⟩))
      rw [resolve, resolve, hroot, harguments]

/-- Two lookups that find equal types for the names in a reference resolve it, and any
    equal one, to equal references. -/
theorem beq_resolve (heq : (a == b) = true)
    (h : ∀ name, a.Mentions name → (lookup name == lookup' name) = true) :
    (resolve lookup a == resolve lookup' b) = true := by
  induction a using argument_induction generalizing b with
  | step a ih =>
    obtain ⟨hidentifier, harity, harguments⟩ := beq_iff_roots.mp heq
    obtain ⟨i, as⟩ := a
    obtain ⟨j, bs⟩ := b
    cases i <;> cases j
    case handle.handle => exact heq
    case name.name text text' =>
      obtain rfl : text = text' := beq_iff_eq.mp (show (text == text') = true from hidentifier)
      -- the name at the root is found in both ways or in neither
      have hroot := h text (mentions_iff.mpr (Or.inl rfl))
      cases hlookup : lookup text <;> cases hlookup' : lookup' text <;>
        rw [hlookup, hlookup'] at hroot
      case none.none => simpa only [resolve, hlookup, hlookup'] using heq
      case some.some handle handle' =>
        have hbound : BoundDownTo lookup ⟨.name text, as⟩ [] :=
          boundDownTo_nil_iff.mpr ⟨text, handle, rfl, hlookup⟩
        have hbound' : BoundDownTo lookup' ⟨.name text, bs⟩ [] :=
          boundDownTo_nil_iff.mpr ⟨text, handle', rfl, hlookup'⟩
        refine beq_iff_roots.mpr ⟨?_, by rw [arity_resolve, arity_resolve, harity], ?_⟩
        · simp only [resolve, hlookup, hlookup']
          exact hroot
        · intro index resolved resolved' hresolved hresolved'
          rw [argument?_resolve hbound] at hresolved
          rw [argument?_resolve hbound'] at hresolved'
          obtain ⟨x, hx, rfl⟩ := Option.map_eq_some_iff.mp hresolved
          obtain ⟨y, hy, rfl⟩ := Option.map_eq_some_iff.mp hresolved'
          exact ih index x hx (harguments index x y hx hy) fun name hname =>
            h name (mentions_iff.mpr (Or.inr ⟨index, x, hx, hname⟩))
      all_goals cases hroot
    all_goals cases hidentifier

end TypeReference

/-! ## 3. Resolution in scopes -/

namespace Workspace

open TypeReference

variable {w : Workspace} {s parent : Scope} {name : String}

/-- What a scope does not bind itself it takes from its parent. -/
theorem lookup_eq_lookup_parent (hparent : s.parent? = some parent)
    (hfree : ¬ w.isBoundLocally s name) : w.lookup s name = w.lookup parent name := by
  have hlocal : w.localBinding? s name = none := by
    rwa [isBoundLocally_iff, Option.not_isSome_iff_eq_none] at hfree
  rw [lookup_eq_findSome?_walk, Scope.walk_of_parent? hparent, List.findSome?_cons, hlocal,
    ← lookup_eq_findSome?_walk]

/-- **Resolution depends on what the names in the reference mean, and on nothing else.**
    Two scopes, of whatever workspaces, that find the same for each name in a reference
    resolve it to the same; if what they find is only equal, under other display names,
    so are the results, and equal references may be put in.  A scope that binds no name
    of the reference itself resolves it as its parent does.  A binding of a name that is
    not in the reference, in whatever scope, leaves every scope's resolution of it as
    it was. -/
theorem resolve_depends_on_mentioned (w w' : Workspace) (s s' : Scope)
    (reference : TypeReference) :
    ((∀ name, reference.Mentions name → w.lookup s name = w'.lookup s' name) →
      w.resolve s reference = w'.resolve s' reference) ∧
    (∀ reference', (reference == reference') = true →
      (∀ name, reference.Mentions name → (w.lookup s name == w'.lookup s' name) = true) →
      (w.resolve s reference == w'.resolve s' reference') = true) ∧
    (∀ parent, s.parent? = some parent →
      (∀ name, reference.Mentions name → ¬ w.isBoundLocally s name) →
      w.resolve s reference = w.resolve parent reference) ∧
    (∀ name handle, ¬ reference.Mentions name →
      (w.bind s' name handle).2.resolve s reference = w.resolve s reference) := by
  refine ⟨resolve_congr, fun reference' => beq_resolve, ?_, ?_⟩
  · intro parent hparent hfree
    exact resolve_congr fun name hname => lookup_eq_lookup_parent hparent (hfree name hname)
  · intro name handle hnot
    apply resolve_congr
    intro other hother
    apply lookup_bind_of_ne
    rintro rfl
    exact hnot hother

/-- `Map<User, #7>` in a scope that binds `K` alone, around it one that binds `Map`: the
    two resolve it to the same, and so does a scope of another module in which `Map` is
    the same type.  Nothing changes when `List` is bound around them, nor up to equality
    if `#7` is shown otherwise. -/
theorem resolve_depends_on_mentioned_map :
    ∃ (w w' : Workspace) (s s' parent : Scope) (reference reference' : TypeReference),
      reference = .applied (.name "Map") [.bare (.name "User"), .bare (.handle ⟨7, "A"⟩)] ∧
      reference' = .applied (.name "Map") [.bare (.name "User"), .bare (.handle ⟨7, "B"⟩)] ∧
      s.parent? = some parent ∧ w.isBoundLocally s "K" ∧ w'.lookup s' "K" = none ∧
      w.resolve s reference = .applied (.handle ⟨1, "app::Map"⟩)
        [.bare (.name "User"), .bare (.handle ⟨7, "A"⟩)] ∧
      w.resolve s reference = w'.resolve s' reference ∧
      (w.resolve s reference == w'.resolve s' reference') = true ∧
      w.resolve s reference = w.resolve parent reference ∧
      (w.bind parent "List" ⟨3, "app::List"⟩).2.resolve s reference = w.resolve s reference := by
  obtain ⟨w, s, parent, hparent, hk, hmapfree, huserfree, hmap, huser⟩ :
      ∃ (w : Workspace) (s parent : Scope), s.parent? = some parent ∧ w.isBoundLocally s "K" ∧
        ¬ w.isBoundLocally s "Map" ∧ ¬ w.isBoundLocally s "User" ∧
        w.lookup s "Map" = some ⟨1, "app::Map"⟩ ∧ w.lookup s "User" = none :=
    ⟨(((((∅ : Workspace).root "app").2.bind ⟨"app", 0, []⟩ "Map" ⟨1, "app::Map"⟩).2.fork
      ⟨"app", 0, []⟩).2.bind ⟨"app", 1, [0]⟩ "K" ⟨2, "K"⟩).2, ⟨"app", 1, [0]⟩, ⟨"app", 0, []⟩,
      rfl, rfl, Bool.false_ne_true, Bool.false_ne_true, rfl, rfl⟩
  obtain ⟨w', s', hk', hmap', huser'⟩ : ∃ (w' : Workspace) (s' : Scope),
      w'.lookup s' "K" = none ∧ w'.lookup s' "Map" = some ⟨1, "app::Map"⟩ ∧
        w'.lookup s' "User" = none :=
    ⟨(((∅ : Workspace).root "lib").2.bind ⟨"lib", 0, []⟩ "Map" ⟨1, "app::Map"⟩).2, ⟨"lib", 0, []⟩,
      rfl, rfl, rfl⟩
  obtain ⟨reference, hreference⟩ : ∃ reference : TypeReference, reference =
      .applied (.name "Map") [.bare (.name "User"), .bare (.handle ⟨7, "A"⟩)] := ⟨_, rfl⟩
  have hnames : ∀ name, reference.Mentions name → name = "Map" ∨ name = "User" := by
    intro name hname
    simpa [hreference, TypeIdentifier.name?, eq_comm] using hname
  have hlookups : ∀ name, reference.Mentions name → w.lookup s name = w'.lookup s' name := by
    intro name hname
    rcases hnames name hname with rfl | rfl
    · rw [hmap, hmap']
    · rw [huser, huser']
  have hfree : ∀ name, reference.Mentions name → ¬ w.isBoundLocally s name := by
    intro name hname
    rcases hnames name hname with rfl | rfl
    · exact hmapfree
    · exact huserfree
  obtain ⟨hsame, hequal, htransparent, -⟩ := resolve_depends_on_mentioned w w' s s' reference
  obtain ⟨-, -, -, hunbound⟩ := resolve_depends_on_mentioned w w' s parent reference
  refine ⟨w, w', s, s', parent, reference, _, hreference, rfl, hparent, hk, hk', ?_,
    hsame hlookups, hequal _ ?_ ?_, htransparent parent hparent hfree, hunbound "List" _ ?_⟩
  · simp [hreference, resolve, applied, bare, TypeReference.resolve, TypeReference.resolveMany,
      resolveAll, hmap, huser]
  · subst hreference
    rfl
  · intro name hname
    rw [hlookups name hname, beq_self_eq_true]
  · intro hname
    simpa using hnames "List" hname

end Workspace

end Declarations
