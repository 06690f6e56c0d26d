/-
  Declarations/Proofs/Lineage/Mirrors.lean
  ========================================
  **Rows of a lineage and records of a root.**

  A root is built from what it was at the beginning, and each row of the lineage
  but the first belongs to a record that has been registered since: the tag of
  such a record, its identifier and kind, is not what it was at the beginning.
  The places of these records, and the root, are `Entered`.

  `Lineage.Mirrors` says that the rows are the entered places, one each, with the
  kind of the record and a link to the record that contains it.  A registration
  keeps this as long as nothing below the new record is linked already
  (`Mirrors.register`).

  The first 2³² - 1 identifiers are assigned.  The table holds no more rows than
  that, and all statements about its growth say so.
-/
import Declarations.Proofs.Lineage.Ancestors
import Declarations.Proofs.Record.View

namespace Declarations

/-! ## 1. Tags

    An edit changes no tag, a new child adds its own, and opening a module can
    change the tag of the module. -/

namespace Record

/-- What a lineage knows of a record. -/
structure Tag where
  id : EntityId
  kind : Kind

def tag (r : Record) : Tag := ⟨r.id, r.kind⟩

theorem shallow_tag : Shallow tag := by
  intro r slot _ child' _ _
  rw [tag, id_put, kind_put]
  rfl

variable {root r r' owner child : Record} {place : Place} {slot : Slot}

theorem view_tag_replace (hget : root.get? place = some r) (hout : r'.outline = r.outline)
    (hid : r'.id = r.id) (hchildren : r'.child? = r.child?) :
    (root.replace place r').view tag = root.view tag := by
  have htag : r'.tag = r.tag := by rw [tag, tag, hid, kind_eq_of_outline_eq hout]
  rw [view_replace_edited shallow_tag hget hout hchildren, htag, update_view_self tag hget]

theorem view_tag_replace_put (hget : root.get? place = some owner) (hhas : owner.HasSlot slot)
    (hempty : owner.child? slot = none) (haccepts : slot.accepts child)
    (hbare : ∀ s, child.child? s = none) :
    (root.replace place (owner.put slot child)).view tag =
      Function.update (root.view tag) (place ++ [slot]) (some child.tag) := by
  have htag : (owner.put slot child).tag = owner.tag := by rw [tag, id_put, kind_put, tag]
  rw [view_replace_put shallow_tag hget hhas hempty haccepts hbare, htag,
    update_view_self tag hget]

theorem view_tag_insertModule (p : Program) (path : String) (m : Module)
    (hmodule : m = p.modules[path]?.getD (.atPath path)) (id : EntityId) :
    (Record.program { p with modules := p.modules.insert path { m with id } }).view tag =
      Function.update ((Record.program p).view tag) [.module path] (some ⟨id, .module⟩) := by
  have htag : (Record.program { p with modules := p.modules.insert path { m with id } }).tag =
      (Record.program p).tag := rfl
  rw [view_insertModule shallow_tag p path m hmodule id, htag,
    update_view_self tag (get?_nil (.program p))]
  rfl

end Record

/-- The tags of the records at all places of a root. -/
abbrev Tags := Place → Option Record.Tag

/-- The root and all places with another tag than at the beginning. -/
def Entered (start tags : Tags) (place : Place) : Prop := place = [] ∨ tags place ≠ start place

/-! ## 2. Rows and entered places -/

/-- The rows of a lineage are the entered places, linked as the records are
    contained in each other. -/
structure Lineage.Mirrors (t : Lineage) (start tags : Tags) : Prop where
  -- the first row is that of the root
  root : ∃ kind, tags [] = some ⟨⟨0⟩, kind⟩ ∧ t.kind? ⟨0⟩ = some kind ∧ t.parent? ⟨0⟩ = none
  -- nothing is removed
  kept {place : Place} : tags place = none → start place = none
  -- of what was there at the beginning, only a module without an identifier can
  -- have another tag
  known {place : Place} {tag : Record.Tag} : start place = some tag →
    tags place = some tag ∨ (¬ tag.id.isAssigned ∧ ∃ path, place = [.module path])
  -- an entered place has a row, linked to the record that contains it
  linked {place : Place} {slot : Slot} {tag : Record.Tag} :
    Entered start tags (place ++ [slot]) → tags (place ++ [slot]) = some tag →
    t.kind? tag.id = some tag.kind ∧
      ∃ owner, tags place = some owner ∧ t.Linked tag.id owner.id
  -- no two entered places share a row
  unique {p q : Place} {tag tag' : Record.Tag} : Entered start tags p → Entered start tags q →
    tags p = some tag → tags q = some tag' → tag.id = tag'.id → p = q
  -- every row belongs to an entered place
  complete {id : EntityId} : t.isRegistered id →
    ∃ place tag, Entered start tags place ∧ tags place = some tag ∧ tag.id = id

namespace Lineage

variable {t : Lineage} {start tags : Tags} {place : Place} {slot : Slot} {tag owner : Record.Tag}
variable {kind : Kind}

theorem isRegistered_attach (t : Lineage) (kind : Kind) (parent id : EntityId) :
    (t.attach kind parent).2.isRegistered id ↔ t.isRegistered id ∨ id = t.next := by
  rw [isRegistered, isRegistered, decide_eq_true_iff, decide_eq_true_iff, EntityId.ext_iff]
  simp only [attach, next, size, Array.size_push]
  exact Nat.lt_succ_iff_lt_or_eq

theorem isAssigned_of_lt {id : EntityId} (h : id.raw < EntityId.unassigned.raw) :
    id.isAssigned := by
  have hne : id ≠ .unassigned := by
    rintro rfl
    exact absurd h (Nat.lt_irrefl _)
  simpa [EntityId.isAssigned] using hne

namespace Mirrors

theorem kind?_eq (h : t.Mirrors start tags) (hentered : Entered start tags place)
    (htag : tags place = some tag) : t.kind? tag.id = some tag.kind := by
  rcases place.eq_nil_or_concat with rfl | ⟨place, slot, rfl⟩
  · obtain ⟨kind, hroot, hkind, -⟩ := h.root
    obtain rfl := Option.some.inj (htag.symm.trans hroot)
    exact hkind
  · rw [List.concat_eq_append] at hentered htag
    exact (h.linked hentered htag).1

theorem isAssigned (h : t.Mirrors start tags) (hsize : t.size ≤ EntityId.unassigned.raw)
    (hentered : Entered start tags place) (htag : tags place = some tag) : tag.id.isAssigned := by
  have hreg := isRegistered_of_kind? (h.kind?_eq hentered htag)
  exact isAssigned_of_lt (Nat.lt_of_lt_of_le (of_decide_eq_true hreg) hsize)

theorem id_ne_next (h : t.Mirrors start tags) (hentered : Entered start tags place)
    (htag : tags place = some tag) : tag.id ≠ t.next :=
  next_ne_of_isRegistered (isRegistered_of_kind? (h.kind?_eq hentered htag))

theorem entered_update_iff (h : t.Mirrors start tags) (hnext : t.next.isAssigned)
    (hunfiled : ∀ tag, tags (place ++ [slot]) = some tag → ¬ tag.id.isAssigned) (q : Place) :
    Entered start (Function.update tags (place ++ [slot]) (some ⟨t.next, kind⟩)) q ↔
      q = place ++ [slot] ∨ Entered start tags q := by
  by_cases hq : q = place ++ [slot]
  · subst hq
    simp only [Entered, Function.update_self, true_or, iff_true]
    apply Or.inr
    intro hstart
    -- at the beginning nothing had the identifier of the new row
    rcases h.known hstart.symm with hold | ⟨hunassigned, -⟩
    · exact hunfiled _ hold hnext
    · exact hunassigned hnext
  · simp [Entered, hq]

theorem cases_of_update (h : t.Mirrors start tags) (hnext : t.next.isAssigned)
    (hunfiled : ∀ tag, tags (place ++ [slot]) = some tag → ¬ tag.id.isAssigned) {q : Place}
    (hq : Entered start (Function.update tags (place ++ [slot]) (some ⟨t.next, kind⟩)) q)
    (htag : Function.update tags (place ++ [slot]) (some ⟨t.next, kind⟩) q = some tag) :
    (q = place ++ [slot] ∧ tag = ⟨t.next, kind⟩) ∨
      (q ≠ place ++ [slot] ∧ Entered start tags q ∧ tags q = some tag ∧ tag.id ≠ t.next) := by
  rcases Place.update_eq_some_iff.mp htag with hnew | ⟨hnew, htag⟩
  · exact Or.inl hnew
  · have hold := ((h.entered_update_iff hnext hunfiled q).mp hq).resolve_left hnew
    exact Or.inr ⟨hnew, hold, htag, h.id_ne_next hold htag⟩

/-- **Registering a record under its container keeps rows and places in step.**
    The record is not there or has no identifier, and nothing below it is linked. -/
theorem register (h : t.Mirrors start tags) (hsize : t.size < EntityId.unassigned.raw)
    (howner : tags place = some owner)
    (hunfiled : ∀ tag, tags (place ++ [slot]) = some tag →
      ¬ tag.id.isAssigned ∧ ∃ path, place ++ [slot] = [.module path])
    (hbelow : ∀ next, ¬ Entered start tags (place ++ [slot] ++ [next])) :
    (t.attach kind owner.id).2.Mirrors start
      (Function.update tags (place ++ [slot]) (some ⟨t.next, kind⟩)) := by
  have hnext : t.next.isAssigned := isAssigned_of_lt hsize
  have hunassigned : ∀ tag, tags (place ++ [slot]) = some tag → ¬ tag.id.isAssigned :=
    fun tag htag => (hunfiled tag htag).1
  have hsame : ∀ {q}, q ≠ place ++ [slot] →
      Function.update tags (place ++ [slot]) (some ⟨t.next, kind⟩) q = tags q :=
    fun hq => Function.update_of_ne hq _ _
  constructor
  case root =>
    obtain ⟨rootKind, hroot, hkind, hparent⟩ := h.root
    have hne := next_ne_of_isRegistered (isRegistered_of_kind? hkind)
    refine ⟨rootKind, ?_, ?_, ?_⟩
    · rw [hsame (by simp), hroot]
    · rw [kind?_attach, if_neg hne, hkind]
    · rw [parent?_attach, if_neg hne, hparent]
  case kept =>
    intro q hq
    by_cases hnew : q = place ++ [slot]
    · simp [hnew] at hq
    · exact h.kept (by rwa [hsame hnew] at hq)
  case known =>
    intro q tag hstart
    by_cases hnew : q = place ++ [slot]
    · subst hnew
      exact Or.inr ((h.known hstart).elim (hunfiled tag) id)
    · rw [hsame hnew]
      exact h.known hstart
  case linked =>
    intro q s tag hq htag
    rcases h.cases_of_update hnext hunassigned hq htag with ⟨hnew, rfl⟩ | ⟨-, hold, htag, hne⟩
    · obtain ⟨rfl, rfl⟩ : q = place ∧ s = slot := by simpa using hnew
      refine ⟨?_, owner, ?_, ?_⟩
      · rw [kind?_attach, if_pos rfl]
      · rw [hsame (by simp), howner]
      · rw [Linked, parent?_attach, if_pos rfl]
    · obtain ⟨hkind, above, habove, hlink⟩ := h.linked hold htag
      -- the container is not the new record, below which nothing is entered
      have hcontainer : q ≠ place ++ [slot] := by
        rintro rfl
        exact hbelow s hold
      refine ⟨?_, above, ?_, ?_⟩
      · rw [kind?_attach, if_neg hne, hkind]
      · rw [hsame hcontainer, habove]
      · rwa [Linked, parent?_attach, if_neg hne]
  case unique =>
    intro p q tag tag' hp hq htag htag' hid
    rcases h.cases_of_update hnext hunassigned hp htag with ⟨rfl, rfl⟩ | ⟨-, hp, htag, hne⟩ <;>
      rcases h.cases_of_update hnext hunassigned hq htag' with ⟨rfl, rfl⟩ | ⟨-, hq, htag', hne'⟩
    · rfl
    · exact absurd hid.symm hne'
    · exact absurd hid hne
    · exact h.unique hp hq htag htag' hid
  case complete =>
    intro id hid
    have hentered : ∀ q, Entered start (Function.update tags (place ++ [slot])
        (some ⟨t.next, kind⟩)) q ↔ q = place ++ [slot] ∨ Entered start tags q :=
      h.entered_update_iff hnext hunassigned
    rcases (isRegistered_attach t kind owner.id id).mp hid with hold | rfl
    · obtain ⟨q, tag, hq, htag, rfl⟩ := h.complete hold
      -- what had the place of the new row had no identifier, and no row
      have hnew : q ≠ place ++ [slot] := by
        rintro rfl
        exact hunassigned tag htag (isAssigned_of_lt (Nat.lt_trans (of_decide_eq_true hold) hsize))
      exact ⟨q, tag, (hentered q).mpr (Or.inr hq), by rw [hsame hnew, htag], rfl⟩
    · exact ⟨_, _, (hentered _).mpr (Or.inl rfl), Function.update_self _ _ _, rfl⟩

theorem of_alloc (root : Record) (hid : root.id = ⟨0⟩) :
    (Lineage.empty.alloc root.kind).2.Mirrors (root.view Record.tag) (root.view Record.tag) := by
  have hroot : root.view Record.tag [] = some ⟨⟨0⟩, root.kind⟩ := by
    rw [Record.view_nil, Record.tag, hid]
  have honly : ∀ {q}, Entered (root.view Record.tag) (root.view Record.tag) q → q = [] :=
    fun hq => hq.resolve_right fun hne => hne rfl
  constructor
  case root => exact ⟨root.kind, hroot, rfl, rfl⟩
  case kept => exact id
  case known => exact Or.inl
  case linked => exact fun hq => absurd (honly hq) (by simp)
  case unique => exact fun hp hq _ _ _ => (honly hp).trans (honly hq).symm
  case complete =>
    intro id hreg
    have hzero : id = ⟨0⟩ := EntityId.ext (Nat.lt_one_iff.mp (of_decide_eq_true hreg))
    exact ⟨[], _, Or.inl rfl, hroot, hzero.symm⟩

end Mirrors

end Lineage

end Declarations
