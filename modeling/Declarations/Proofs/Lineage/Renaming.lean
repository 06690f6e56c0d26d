/-
  Declarations/Proofs/Lineage/Renaming.lean
  =========================================
  **Lineages of the same tree.**

  A lineage numbers records in the order in which they are registered.  If the places
  of two roots hold records of the same kinds, and one lineage mirrors each, then the
  two lineages differ by a permutation of the identifiers (`Mirrors.renames`), and the
  records at corresponding places have corresponding ones (`Tags.Numbered.exists_perm_ids`).
-/
import Declarations.Proofs.Lineage.Mirrors
import Mathlib.Logic.Equiv.Fintype

namespace Declarations

/-- The tag with another identifier. -/
def Record.Tag.rename (ρ : EntityId → EntityId) (tag : Record.Tag) : Record.Tag :=
  ⟨ρ tag.id, tag.kind⟩

namespace Tags

variable {tags tags' : Tags} {n n' : Nat}

/-- Every record has an identifier of its own, among the first `n`. -/
structure Numbered (tags : Tags) (n : Nat) : Prop where
  raw_lt {q : Place} {tag : Record.Tag} : tags q = some tag → tag.id.raw < n
  unique {p q : Place} {tag tag' : Record.Tag} : tags p = some tag → tags q = some tag' →
    tag.id = tag'.id → p = q

/-- There is a permutation that gives every place of the one root the identifier that
    it has in the other. -/
theorem Numbered.exists_perm_ids (h : tags.Numbered n) (h' : tags'.Numbered n') :
    ∃ ρ : Equiv.Perm EntityId, ∀ q tag tag', tags q = some tag → tags' q = some tag' →
      ρ tag.id = tag'.id := by
  let shared := { x : Place × Record.Tag × Record.Tag //
    tags x.1 = some x.2.1 ∧ tags' x.1 = some x.2.2 }
  have hplace : ∀ x y : shared, x.1.1 = y.1.1 → x = y := by
    rintro ⟨⟨q, tag, tag'⟩, htag, htag'⟩ ⟨⟨_, other, other'⟩, hother, hother'⟩ rfl
    obtain rfl := Option.some.inj (htag.symm.trans hother)
    obtain rfl := Option.some.inj (htag'.symm.trans hother')
    rfl
  have hinjective : Function.Injective fun x : shared => x.1.2.1.id := fun x y hid =>
    hplace x y (h.unique x.2.1 y.2.1 hid)
  have hinjective' : Function.Injective fun x : shared => x.1.2.2.id := fun x y hid =>
    hplace x y (h'.unique x.2.2 y.2.2 hid)
  -- there are no more shared places than numbers
  have hfinite : Finite shared :=
    Finite.of_injective (β := Fin n) (fun x => ⟨x.1.2.1.id.raw, h.raw_lt x.2.1⟩) fun x y hid =>
      hinjective (EntityId.ext (Fin.mk.inj hid))
  obtain ⟨ρ, hρ⟩ := Equiv.Perm.exists_extending_pair _ _ hinjective hinjective'
  exact ⟨ρ, fun q tag tag' htag htag' => hρ ⟨(q, tag, tag'), htag, htag'⟩⟩

end Tags

namespace Lineage

variable {t t' : Lineage} {start start' tags tags' : Tags} {id : EntityId} {ρ : EntityId → EntityId}

/-- The second lineage has the rows of the first, under other identifiers. -/
structure Renames (ρ : EntityId → EntityId) (t t' : Lineage) : Prop where
  kind (id : EntityId) : t'.kind? (ρ id) = t.kind? id
  parent (id : EntityId) : t'.parent? (ρ id) = (t.parent? id).map ρ

theorem kind?_of_not_isRegistered (h : ¬ t.isRegistered id) : t.kind? id = none := by
  rw [kind?, Array.getElem?_eq_none (Nat.le_of_not_lt fun hlt => h (decide_eq_true hlt)),
    Option.map_none]

theorem parent?_of_not_isRegistered (h : ¬ t.isRegistered id) : t.parent? id = none := by
  rw [parent?, Array.getElem?_eq_none (Nat.le_of_not_lt fun hlt => h (decide_eq_true hlt)),
    Option.bind_none]

theorem Mirrors.numbered (h : t.Mirrors start tags)
    (hentered : ∀ q tag, tags q = some tag → Entered start tags q) : tags.Numbered t.size where
  raw_lt htag := of_decide_eq_true (isRegistered_of_kind? (h.kind?_eq (hentered _ _ htag) htag))
  unique htag htag' := h.unique (hentered _ _ htag) (hentered _ _ htag') htag htag'

/-- A row and the row of the other lineage that it corresponds to. -/
theorem Mirrors.row_rename {ρ : Equiv.Perm EntityId} (h : t.Mirrors start tags)
    (h' : t'.Mirrors start' tags') (hentered' : ∀ q tag, tags' q = some tag → Entered start' tags' q)
    (htags : ∀ q, tags' q = (tags q).map (.rename ρ)) (hid : t.isRegistered id) :
    t'.kind? (ρ id) = t.kind? id ∧ t'.parent? (ρ id) = (t.parent? id).map ρ := by
  have htag' : ∀ {q tag}, tags q = some tag → tags' q = some (tag.rename ρ) := by
    intro q tag htag
    rw [htags, htag, Option.map_some]
  obtain ⟨place, tag, hentered, htag, rfl⟩ := h.complete hid
  have hkind := h.kind?_eq hentered htag
  have hkind' := h'.kind?_eq (hentered' _ _ (htag' htag)) (htag' htag)
  refine ⟨hkind'.trans hkind.symm, ?_⟩
  rcases place.eq_nil_or_concat with rfl | ⟨above, slot, rfl⟩
  · -- the roots have no parents
    obtain ⟨kind, hroot, -, hparent⟩ := h.root
    obtain ⟨kind', hroot', -, hparent'⟩ := h'.root
    obtain rfl := Option.some.inj (htag.symm.trans hroot)
    have hzero : ρ ⟨0⟩ = ⟨0⟩ :=
      congrArg Record.Tag.id (Option.some.inj ((htag' htag).symm.trans hroot'))
    rw [hzero, hparent, hparent', Option.map_none]
  · rw [List.concat_eq_append] at hentered htag
    obtain ⟨-, owner, howner, hlink⟩ := h.linked hentered htag
    obtain ⟨-, owner', howner', hlink'⟩ := h'.linked (hentered' _ _ (htag' htag)) (htag' htag)
    obtain rfl := Option.some.inj ((htag' howner).symm.trans howner')
    rw [show t.parent? tag.id = some owner.id from hlink, Option.map_some]
    exact hlink'

/-- **Lineages that mirror roots with corresponding tags have the same rows.** -/
theorem Mirrors.renames {ρ : Equiv.Perm EntityId} (h : t.Mirrors start tags)
    (h' : t'.Mirrors start' tags') (hentered : ∀ q tag, tags q = some tag → Entered start tags q)
    (hentered' : ∀ q tag, tags' q = some tag → Entered start' tags' q)
    (htags : ∀ q, tags' q = (tags q).map (.rename ρ)) : Renames ρ t t' := by
  have hrow : ∀ {id}, t.isRegistered id → t'.kind? (ρ id) = t.kind? id ∧
      t'.parent? (ρ id) = (t.parent? id).map ρ := h.row_rename h' hentered' htags
  -- a row of the second lineage is that of a place, so it has one in the first
  have hfree : ∀ {id}, ¬ t.isRegistered id → ¬ t'.isRegistered (ρ id) := by
    intro id hid hid'
    obtain ⟨place, tag', -, htag', heq⟩ := h'.complete hid'
    rw [htags] at htag'
    obtain ⟨tag, htag, rfl⟩ := Option.map_eq_some_iff.mp htag'
    obtain rfl := ρ.injective heq
    exact hid (isRegistered_of_kind? (h.kind?_eq (hentered _ _ htag) htag))
  constructor
  case kind =>
    intro id
    by_cases hid : t.isRegistered id
    · exact (hrow hid).1
    · rw [kind?_of_not_isRegistered hid, kind?_of_not_isRegistered (hfree hid)]
  case parent =>
    intro id
    by_cases hid : t.isRegistered id
    · exact (hrow hid).2
    · rw [parent?_of_not_isRegistered hid, parent?_of_not_isRegistered (hfree hid),
        Option.map_none]

end Lineage

end Declarations
