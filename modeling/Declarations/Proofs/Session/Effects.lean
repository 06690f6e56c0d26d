/-
  Declarations/Proofs/Session/Effects.lean
  ========================================
  **What a step leaves alone.**

  A step works on one record, that of the innermost draft, or on the program itself
  (`Session.target`).  All other records stay where they are and as they are, with one
  exception: a property that a constructor declares goes into the class around it.
  At most one record is added, in a slot that was vacant: past the end of a list, or
  where there was nothing (`Record.Vacant`).  It is a module that is opened for the first
  time or what is declared, and what is declared decides the list or the index that it
  goes to (`Declaration.GoesTo`); no other step adds any (`Session.Adds`).  No row of the
  lineage changes, and no frame but that of the record at work.

  `Session.Effect` says all of this of one step, and `effect_of_step?` that it is true of
  every step that is taken after any run from nothing.
-/
import Declarations.Proofs.Session.Places
import Declarations.Proofs.Session.Scoping
import Declarations.Proofs.Session.Sites
import Declarations.Proofs.Record.Surface

namespace Declarations

/-! ## 1. Slots for new records -/

/-- The slots for what is declared: in the entries, the methods or the properties, that
    of the constructor, or that of the parameter with the index. -/
def Declaration.GoesTo : Declaration → Slot → Prop
  | .class _, .entry _ | .interface _, .entry _ | .variable _, .entry _ | .function _, .entry _ =>
    True
  | .constructor, .constructor => True
  | .method _, .method _ => True
  | .property _, .property _ => True
  | .parameter index, .parameter i => i = index
  | _, _ => False

namespace Record

variable {r r' : Record} {slot : Slot} {lookup : String → Option TypeHandle} {step : Step}
variable {d : Declaration}

/-- A slot that a new child can take: the next position of a list, or a slot of
    another sort that is empty. -/
def Vacant : Record → Slot → Prop
  | .program p, .module path => p.modules[path]? = none
  | .module m, .entry i => i = m.entries.length
  | .class c, .constructor => c.constructor = none
  | .class c, .method i => i = c.methods.length
  | .class c, .property i => i = c.properties.length
  | .interface t, .method i => i = t.methods.length
  | .interface t, .property i => i = t.properties.length
  | .function f, .parameter i => f.parameters.get? i = none
  | .method m, .parameter i => m.parameters.get? i = none
  | .constructor k, .parameter i => k.parameters.get? i = none
  | _, _ => False

theorem vacant_iff : r.Vacant slot ↔ r.HasSlot slot ∧ r.child? slot = none := by
  have hlist : ∀ {n i : Nat}, i = n ↔ i ≤ n ∧ n ≤ i := fun {n i} => by omega
  rcases r with _ | _ | e | _ | _ | _ | _
  case entry => cases e <;> cases slot <;> simp [Vacant, HasSlot, child?, hlist]
  all_goals cases slot <;> simp [Vacant, HasSlot, child?, hlist]

/-- A record takes what is declared in the vacant slot for it. -/
theorem slotFor?_vacant_iff :
    r.slotFor? d = some slot ∧ r.child? slot = none ↔ d.GoesTo slot ∧ r.Vacant slot := by
  constructor
  · rintro ⟨hslot, hempty⟩
    refine ⟨?_, vacant_iff.mpr ⟨hasSlot_of_slotFor? hslot, hempty⟩⟩
    unfold slotFor? at hslot
    split at hslot <;> simp only [Option.some.injEq, reduceCtorEq] at hslot <;> subst hslot <;>
      simp [Declaration.GoesTo]
  · rintro ⟨hgoes, hvacant⟩
    refine ⟨?_, (vacant_iff.mp hvacant).2⟩
    unfold Vacant at hvacant
    split at hvacant <;> cases d <;> simp_all [Declaration.GoesTo, slotFor?]

theorem exists_eq_class_of_child? {child : Record} (h : r.child? .constructor = some child) :
    ∃ c, r = .class c := by
  rcases r with _ | _ | e | _ | _ | _ | _
  case entry =>
    cases e with
    | «class» c => exact ⟨c, rfl⟩
    | _ => cases h
  all_goals cases h

/-- A revision adds references after the old ones, or sets one attribute. -/
theorem references_of_revise? (h : r.revise? lookup step = some r') :
    r.references <+: r'.references ∨
      ∃ a value x, step = .set a (some value) ∧ r.write? a (some x) = some r' := by
  have happend : ∀ (old : Option (List TypeReference)) (new : List TypeReference),
      old.getD [] <+: (appendTo old new).getD [] := by
    intro old new
    rw [getD_appendTo]
    exact List.prefix_append _ _
  unfold revise? at h
  split at h
  case h_3 r a value =>
    obtain ⟨given, hgiven, hwrite⟩ := Option.bind_eq_some_iff.mp h
    obtain ⟨rfl, -⟩ := Option.filter_eq_some_iff.mp hgiven
    exact Or.inr ⟨a, given, _, rfl, hwrite⟩
  case h_4 given c =>
    obtain rfl := Option.some.inj h
    exact Or.inl ((List.prefix_append_right_inj _).mpr (happend _ _))
  case h_5 given i =>
    obtain rfl := Option.some.inj h
    exact Or.inl (happend _ _)
  case h_6 => simp at h
  all_goals
    obtain rfl := Option.some.inj h
    exact Or.inl List.prefix_rfl

end Record

namespace Session

variable {frames : Place → Option Nat} {start s s' : Session} {step : Step} {steps : List Step}
variable {q : Place} {r r' : Record} {draft : Draft} {rest : List Draft} {frame : Nat}

/-! ## 2. One step -/

/-- Where a step is at work: at the innermost draft, or at the root if there is none. -/
def target (s : Session) : Place := (s.drafts.head?.map Draft.place).getD []

theorem target_eq (hdrafts : s.drafts = draft :: rest) : s.target = draft.place := by
  rw [target, hdrafts]
  rfl

/-- A declaration that opens a scope makes a new record, with a handle if it declares a
    type, and opens it. -/
theorem Advance.exists_declared {d : Declaration} (hadvance : s.Advance (.declare d) s')
    (hscope : d.kind.opensScope) :
    ∃ draft rest id, s.drafts = draft :: rest ∧ s.root.get? s'.target = none ∧
      s'.root.get? s'.target = some ((d.bare (s.declareType draft.scope d).1).withId id) := by
  cases hadvance with
  | childReopened draft rest _ owner child slot hdrafts howner hslot hchild =>
    rw [(Record.opens_nothing_of_child? hslot hchild).2] at hscope
    cases hscope
  | childDeclared draft rest _ owner slot handle declared scope workspace hdrafts howner hslot
      hempty hdeclared =>
    refine ⟨draft, rest, s.lineage.next, hdrafts, (Record.get?_concat howner slot).trans hempty, ?_⟩
    rw [hdeclared]
    exact Record.get?_declared howner hslot handle s.lineage.next
  | edited _ draft rest r r' hdrafts hrecord houtline hid hchildren htypes hrevise =>
    simp [Record.revise?] at hrevise

/-- The step adds a record, with the next identifier, in a slot of the record at the place:
    a module under a path at which the program has none, or what is declared, in the vacant
    slot for it.  A module that is there, or a slot that is taken, is opened again; a step
    that sets, appends, links or closes adds nothing. -/
inductive Adds (s : Session) : Step → Place → Slot → Record → Prop where
  | module {p : Program} {path : String} (hdrafts : s.drafts = []) (hroot : s.root = .program p)
      (hmissing : p.modules[path]? = none) :
      Adds s (.openModule path) [] (.module path)
        (.module { Module.atPath path with id := s.lineage.next })
  | child {draft : Draft} {rest : List Draft} {d : Declaration} {owner : Record} {slot : Slot}
      (hdrafts : s.drafts = draft :: rest)
      (howner : s.root.get? (d.ownerPlace draft.place) = some owner)
      (hgoes : d.GoesTo slot) (hvacant : owner.Vacant slot) :
      Adds s (.declare d) (d.ownerPlace draft.place) slot
        ((d.bare (s.declareType draft.scope d).1).withId s.lineage.next)

/-- What one step does to the records, the rows and the frames of a session. -/
structure Effect (frames : Place → Option Nat) (s : Session) (step : Step) (s' : Session) :
    Prop where
  -- no record is removed, moved or replaced
  kept {q : Place} {r : Record} : s.root.get? q = some r →
    ∃ r', s'.root.get? q = some r' ∧ r'.kind = r.kind ∧ r'.id = r.id
  -- a record at which the step is not at work stays as it is, but for its children; a
  -- class gains the property that its constructor declares
  others {q : Place} {r r' : Record} : q ≠ s.target → s.root.get? q = some r →
    s'.root.get? q = some r' → r'.surface = r.surface ∨
      ∃ name c, step = .declare (.property name) ∧ s.target = q ++ [.constructor] ∧
        r = .class c ∧ r' = .class { c with
          properties := c.properties ++ [{ Property.named name with id := s.lineage.next }] }
  -- a record is new exactly if the step adds it
  new {q : Place} {slot : Slot} {r : Record} : s.Adds step q slot r ↔
    s.root.get? (q ++ [slot]) = none ∧ s'.root.get? (q ++ [slot]) = some r
  -- the step adds no record, or one, in a vacant slot of the record at work or of the
  -- class around it; and there is one row more, which links the record to its owner
  added : ((∀ q slot r, ¬ s.Adds step q slot r) ∧ s'.places = s.places ∧
      s'.lineage.size = s.lineage.size) ∨
    ∃ q owner slot r, s.Adds step q slot r ∧ s.root.get? q = some owner ∧ owner.Vacant slot ∧
      (s.target = q ∨ s.target = q ++ [.constructor]) ∧
      s'.places = insert (q ++ [slot]) s.places ∧ s'.lineage.size = s.lineage.size + 1 ∧
      s'.lineage.kind? r.id = some r.kind ∧ s'.lineage.parent? r.id = some owner.id
  -- the rows that were there stay
  rows {id : EntityId} : s.lineage.isRegistered id →
    s'.lineage.kind? id = s.lineage.kind? id ∧ s'.lineage.parent? id = s.lineage.parent? id
  -- a frame that changes is the one of the record at work: of a module in which a type
  -- is declared, or of a record that gains type parameters
  bindings {frame : Nat} : s'.workspace.bindings frame ≠ s.workspace.bindings frame →
    frames s.target = some frame ∧
      ((∃ m d name, s.root.get? s.target = some (.module m) ∧ step = .declare d ∧
          d.typeName? = some name) ∨
        ∃ parameters, step = .addTypeParameters parameters)
  -- a stored reference stays as it is, resolved or not, until an attribute is set anew
  references {q : Place} {r r' : Record} : s.root.get? q = some r → s'.root.get? q = some r' →
    r.references <+: r'.references ∨ ∃ a value x, step = .set a (some value) ∧ q = s.target ∧
      r.write? a (some x) = some r'

theorem Tracks.kept_of_advance (h : Tracks start s) (hblank : start.Blank)
    (hsize : s.lineage.size ≤ EntityId.unassigned.raw) (hadvance : s.Advance step s')
    (hget : s.root.get? q = some r) :
    ∃ r', s'.root.get? q = some r' ∧ r'.kind = r.kind ∧ r'.id = r.id := by
  have htags : s'.tags q = some r.tag := by
    rcases hadvance.tags_cases with ⟨htags, -⟩ | ⟨other, kind, hregisters⟩
    · rw [htags, tags_eq_some hget]
    · have hnew := h.not_mem_places hblank hsize hregisters
      have hother : q ≠ other := by
        rintro rfl
        exact hnew (by rw [mem_places, tags_eq_some hget, Option.isSome_some])
      rw [hregisters.tags, Function.update_of_ne hother, tags_eq_some hget]
  obtain ⟨r', hget', htag⟩ := exists_get?_of_tags htags
  exact ⟨r', hget', congrArg Record.Tag.kind htag, congrArg Record.Tag.id htag⟩

theorem Advance.rows_eq (hadvance : s.Advance step s') {id : EntityId}
    (hid : s.lineage.isRegistered id) :
    s'.lineage.kind? id = s.lineage.kind? id ∧ s'.lineage.parent? id = s.lineage.parent? id := by
  rcases hadvance.tags_cases with ⟨-, hlineage⟩ | ⟨other, kind, hregisters⟩
  · rw [hlineage]
    exact ⟨rfl, rfl⟩
  · obtain ⟨owner, hlineage⟩ := hregisters.lineage
    have hne : id ≠ s.lineage.next := by
      rintro rfl
      simp [Lineage.isRegistered, Lineage.next] at hid
    rw [hlineage, Lineage.kind?_attach, if_neg hne, Lineage.parent?_attach, if_neg hne]
    exact ⟨rfl, rfl⟩

/-- A step away from a record leaves it as it is by itself. -/
theorem Scoped.others_of_advance (h : Scoped frames s) (hadvance : s.Advance step s')
    (hq : q ≠ s.target) (hget : s.root.get? q = some r) (hget' : s'.root.get? q = some r') :
    r'.surface = r.surface ∨
      ∃ name c, step = .declare (.property name) ∧ s.target = q ++ [.constructor] ∧
        r = .class c ∧ r' = .class { c with
          properties := c.properties ++ [{ Property.named name with id := s.lineage.next }] } := by
  -- enough that the surfaces at the place are the same
  have hsame : s'.root.view Record.surface q = s.root.view Record.surface q →
      r'.surface = r.surface := by
    intro hview
    rw [Record.view, Record.view, hget, hget'] at hview
    exact Option.some.inj hview
  cases hadvance with
  | moduleOpened p path m id lineage scope workspace hdrafts hroot hmodule =>
    have htarget : s.target = [] := by rw [target, hdrafts]; rfl
    refine Or.inl (hsame ?_)
    rw [Record.view_insertModule Record.shallow_surface p path m hmodule id, ← hroot,
      Function.update_apply]
    split
    next hpath =>
      rw [hpath, hroot] at hget
      obtain rfl := Record.eq_module_of_get? hmodule hget
      rw [hpath, hroot, Record.view, hget]
      rfl
    next => rw [Function.update_of_ne (htarget ▸ hq)]
  | childDeclared draft rest d owner slot handle declared scope workspace hdrafts howner hslot
      hempty =>
    have htarget := target_eq hdrafts
    by_cases hplace : q = d.ownerPlace draft.place
    · -- the owner is not the record at work, so it is the class around a constructor
      subst hplace
      obtain rfl := Option.some.inj (hget.symm.trans howner)
      have hconstructor : draft.place = d.ownerPlace draft.place ++ [.constructor] := by
        rcases d.ownerPlace_cases draft.place with heq | heq
        · exact absurd (heq.trans htarget.symm) hq
        · exact heq
      obtain ⟨name, rfl⟩ : ∃ name, d = .property name := by
        cases d with
        | property name => exact ⟨name, rfl⟩
        | _ => exact absurd htarget.symm hq
      obtain ⟨label, hlabel⟩ := (h.drafts (hdrafts ▸ List.mem_cons_self)).1
      obtain ⟨child, hchild, -⟩ := exists_get?_of_labels hlabel
      rw [hconstructor, Record.get?_concat hget] at hchild
      obtain ⟨c, rfl⟩ := Record.exists_eq_class_of_child? hchild
      obtain rfl := Option.some.inj hslot
      rw [Record.get?_replace hget (Record.outline_put _ _ _)] at hget'
      refine Or.inr ⟨name, c, rfl, htarget.trans hconstructor, rfl, ?_⟩
      rw [← Option.some.inj hget', Declaration.bare, Record.withId, Record.put, fillAt_length]
    · refine Or.inl (hsame ?_)
      have hne : q ≠ d.ownerPlace draft.place ++ [slot] := by
        rintro rfl
        rw [Record.get?_concat howner, hempty] at hget
        cases hget
      rw [Record.view_replace_put Record.shallow_surface howner
        (Record.hasSlot_of_slotFor? hslot) hempty (Record.accepts_of_slotFor? hslot (by simp))
        (Record.child?_withId_bare d handle _), Function.update_of_ne hne,
        Function.update_of_ne hplace]
  | typeParametersAdded draft rest r₀ r₁ old parameters handles workspace hdrafts hrecord hold
      hdeclared hnew =>
    obtain ⟨houtline, -, hchildren, -⟩ := Record.withTypeParameters?_keeps hnew
    refine Or.inl (hsame ?_)
    rw [Record.view_replace_edited Record.shallow_surface hrecord houtline hchildren,
      Function.update_of_ne (target_eq hdrafts ▸ hq)]
  | edited _ draft rest r₀ r₁ hdrafts hrecord houtline hid hchildren =>
    refine Or.inl (hsame ?_)
    rw [Record.view_replace_edited Record.shallow_surface hrecord houtline hchildren,
      Function.update_of_ne (target_eq hdrafts ▸ hq)]
  | _ => exact Or.inl (hsame rfl)

/-- A new record is a module that is opened, or what is declared. -/
theorem Advance.new_cases (hadvance : s.Advance step s') (hnew : s.root.get? q = none)
    (hget' : s'.root.get? q = some r') :
    (∃ p path, step = .openModule path ∧ s.drafts = [] ∧ s.root = .program p ∧
        p.modules[path]? = none ∧ q = [.module path] ∧
        r' = .module { Module.atPath path with id := s.lineage.next } ∧
        s'.lineage = (s.lineage.attach .module p.id).2) ∨
      ∃ draft rest d owner slot, step = .declare d ∧ s.drafts = draft :: rest ∧
        s.root.get? (d.ownerPlace draft.place) = some owner ∧ owner.slotFor? d = some slot ∧
        owner.child? slot = none ∧ q = d.ownerPlace draft.place ++ [slot] ∧
        r' = (d.bare (s.declareType draft.scope d).1).withId s.lineage.next ∧
        s'.lineage = (s.lineage.attach d.kind owner.id).2 := by
  -- enough that there are no new places but this one
  have hnone : s.tags q = none := Record.view_eq_none_iff.mpr hnew
  have hold : s'.tags q ≠ s.tags q := by
    rw [hnone, tags_eq_some hget']
    simp
  cases hadvance with
  | moduleOpened p path m id lineage scope workspace hdrafts hroot hmodule hregister =>
    rw [tags, Record.view_tag_insertModule p path m hmodule id, ← hroot] at hold
    obtain rfl : q = [.module path] := by
      by_contra hne
      exact hold (Function.update_of_ne hne _ _)
    rw [hroot, Record.get?_singleton] at hnew
    have hmissing : p.modules[path]? = none := Option.map_eq_none_iff.mp hnew
    rw [Record.get?_singleton, Record.child?, Std.ExtTreeMap.getElem?_insert_self] at hget'
    obtain rfl : m = .atPath path := by rw [hmodule, hmissing, Option.getD_none]
    obtain ⟨rfl, rfl⟩ := Prod.mk.inj (hregister.resolve_left fun h => by cases h.1).2
    exact Or.inl ⟨p, path, rfl, hdrafts, hroot, hmissing, rfl, (Option.some.inj hget').symm, rfl⟩
  | childDeclared draft rest d owner slot handle declared scope workspace hdrafts howner hslot
      hempty hdeclared =>
    have hhas := Record.hasSlot_of_slotFor? hslot
    have haccepts : slot.accepts ((d.bare handle).withId s.lineage.next) :=
      Record.accepts_of_slotFor? hslot (by simp)
    rw [tags, Record.view_tag_replace_put howner hhas hempty haccepts
      (Record.child?_withId_bare d handle _)] at hold
    obtain rfl : q = d.ownerPlace draft.place ++ [slot] := by
      by_contra hne
      exact hold (Function.update_of_ne hne _ _)
    rw [Record.get?_declared howner hslot] at hget'
    refine Or.inr ⟨draft, rest, d, owner, slot, rfl, hdrafts, howner, hslot, hempty, rfl, ?_, rfl⟩
    rw [hdeclared]
    exact (Option.some.inj hget').symm
  | typeParametersAdded draft rest r₀ r₁ old parameters handles workspace hdrafts hrecord hold'
      hdeclared hadded =>
    obtain ⟨houtline, hid, hchildren, -⟩ := Record.withTypeParameters?_keeps hadded
    exact absurd (congrFun (Record.view_tag_replace hrecord houtline hid hchildren) q) hold
  | edited _ draft rest r₀ r₁ hdrafts hrecord houtline hid hchildren =>
    exact absurd (congrFun (Record.view_tag_replace hrecord houtline hid hchildren) q) hold
  | _ => exact absurd rfl hold

/-- A new record is one that the step adds, with a row that links it to its owner. -/
theorem Advance.adds_of_new (hadvance : s.Advance step s') (hnew : s.root.get? q = none)
    (hget' : s'.root.get? q = some r') : ∃ above slot owner, q = above ++ [slot] ∧
      s.Adds step above slot r' ∧ s.root.get? above = some owner ∧
      s'.lineage = (s.lineage.attach r'.kind owner.id).2 := by
  rcases hadvance.new_cases hnew hget' with
    ⟨p, path, rfl, hdrafts, hroot, hmissing, rfl, rfl, hlineage⟩ |
    ⟨draft, rest, d, owner, slot, rfl, hdrafts, howner, hslot, hempty, rfl, rfl, hlineage⟩
  · exact ⟨[], .module path, .program p, rfl, .module hdrafts hroot hmissing,
      congrArg some hroot, hlineage⟩
  · obtain ⟨hgoes, hvacant⟩ := Record.slotFor?_vacant_iff.mp ⟨hslot, hempty⟩
    refine ⟨_, slot, owner, rfl, .child hdrafts howner hgoes hvacant, howner, ?_⟩
    rw [hlineage, Record.kind_withId, Declaration.kind_bare]

/-- What is added goes into a vacant slot at the record at work, or of the class around it. -/
theorem Adds.vacant (hadds : s.Adds step q slot r) : ∃ owner, s.root.get? q = some owner ∧
    owner.Vacant slot ∧ (s.target = q ∨ s.target = q ++ [.constructor]) := by
  cases hadds with
  | module hdrafts hroot hmissing =>
    refine ⟨_, congrArg some hroot, hmissing, Or.inl ?_⟩
    rw [target, hdrafts]
    rfl
  | @child draft rest d owner slot hdrafts howner hgoes hvacant =>
    refine ⟨owner, howner, hvacant, ?_⟩
    rw [target_eq hdrafts]
    exact (d.ownerPlace_cases draft.place).imp_left Eq.symm

theorem Adds.id_eq (hadds : s.Adds step q slot r) : r.id = s.lineage.next := by
  cases hadds with
  | module => rfl
  | child => exact Record.id_withId _ _

/-- What the step adds is there after it. -/
theorem Adds.get?_of_advance (hadds : s.Adds step q slot r) (hadvance : s.Advance step s') :
    s'.root.get? (q ++ [slot]) = some r := by
  cases hadds with
  | @module p path hdrafts hroot hmissing =>
    cases hadvance with
    | moduleOpened p' _ m id lineage scope workspace _ hroot' hmodule hregister =>
      obtain rfl := Record.program.inj (hroot.symm.trans hroot')
      obtain rfl : m = .atPath path := by rw [hmodule, hmissing, Option.getD_none]
      obtain ⟨rfl, rfl⟩ := Prod.mk.inj (hregister.resolve_left fun h => by cases h.1).2
      rw [List.nil_append, Record.get?_singleton, Record.child?, Std.ExtTreeMap.getElem?_insert_self]
      rfl
    | edited _ _ _ _ _ _ _ _ _ _ _ hrevise => simp [Record.revise?] at hrevise
  | @child draft rest d owner slot hdrafts howner hgoes hvacant =>
    obtain ⟨hslot, hempty⟩ := Record.slotFor?_vacant_iff.mpr ⟨hgoes, hvacant⟩
    cases hadvance with
    | childReopened draft' rest' _ owner' child slot' hdrafts' howner' hslot' hchild =>
      obtain ⟨rfl, -⟩ := List.cons.inj (hdrafts.symm.trans hdrafts')
      obtain rfl := Option.some.inj (howner.symm.trans howner')
      obtain rfl := Option.some.inj (hslot.symm.trans hslot')
      cases hempty.symm.trans hchild
    | childDeclared draft' rest' _ owner' slot' handle declared scope workspace hdrafts' howner'
        hslot' _ hdeclared =>
      obtain ⟨rfl, -⟩ := List.cons.inj (hdrafts.symm.trans hdrafts')
      obtain rfl := Option.some.inj (howner.symm.trans howner')
      obtain rfl := Option.some.inj (hslot.symm.trans hslot')
      rw [hdeclared]
      exact Record.get?_declared howner hslot handle s.lineage.next
    | edited _ _ _ _ _ _ _ _ _ _ _ hrevise => simp [Record.revise?] at hrevise

/-- **A record is new exactly if the step adds it.** -/
theorem Advance.adds_iff (hadvance : s.Advance step s') : s.Adds step q slot r ↔
    s.root.get? (q ++ [slot]) = none ∧ s'.root.get? (q ++ [slot]) = some r := by
  constructor
  · intro hadds
    obtain ⟨owner, howner, hvacant, -⟩ := hadds.vacant
    refine ⟨?_, hadds.get?_of_advance hadvance⟩
    rw [Record.get?_concat howner, (Record.vacant_iff.mp hvacant).2]
  · rintro ⟨hnew, hget'⟩
    obtain ⟨above, taken, owner, hplace, hadds, -⟩ := hadvance.adds_of_new hnew hget'
    obtain ⟨rfl, hlast⟩ := List.append_inj' hplace rfl
    obtain rfl := List.singleton_inj.mp hlast
    exact hadds

/-- A step adds one record at most, and a row for it. -/
theorem Tracks.added_of_advance (h : Tracks start s) (hblank : start.Blank)
    (hsize : s.lineage.size ≤ EntityId.unassigned.raw) (hadvance : s.Advance step s') :
    ((∀ q slot r, ¬ s.Adds step q slot r) ∧ s'.places = s.places ∧
        s'.lineage.size = s.lineage.size) ∨
      ∃ q owner slot r, s.Adds step q slot r ∧ s.root.get? q = some owner ∧ owner.Vacant slot ∧
        (s.target = q ∨ s.target = q ++ [.constructor]) ∧
        s'.places = insert (q ++ [slot]) s.places ∧ s'.lineage.size = s.lineage.size + 1 ∧
        s'.lineage.kind? r.id = some r.kind ∧ s'.lineage.parent? r.id = some owner.id := by
  rcases hadvance.tags_cases with ⟨htags, hlineage⟩ | ⟨place, kind, hregisters⟩
  · refine Or.inl ⟨?_, by rw [places, places, htags], by rw [hlineage]⟩
    intro q slot r hadds
    obtain ⟨hnew, hget'⟩ := hadvance.adds_iff.mp hadds
    have htag := tags_eq_some hget'
    rw [htags, show s.tags (q ++ [slot]) = none from Record.view_eq_none_iff.mpr hnew] at htag
    cases htag
  right
  have hplaces : s'.places = insert place s.places := by
    ext q
    rw [Set.mem_insert_iff, mem_places, mem_places, hregisters.tags, Function.update_apply]
    split <;> simp_all
  have hnew : s.root.get? place = none := by
    have hnot := h.not_mem_places hblank hsize hregisters
    rw [mem_places, Option.not_isSome_iff_eq_none] at hnot
    exact Record.view_eq_none_iff.mp hnot
  obtain ⟨tag, htag⟩ := Option.isSome_iff_exists.mp hregisters.mem_places
  obtain ⟨r, hget', -⟩ := exists_get?_of_tags htag
  obtain ⟨q, slot, owner, rfl, hadds, howner, hlineage⟩ := hadvance.adds_of_new hnew hget'
  obtain ⟨owner', howner', hvacant, htarget⟩ := hadds.vacant
  obtain rfl := Option.some.inj (howner.symm.trans howner')
  refine ⟨q, owner, slot, r, hadds, howner, hvacant, htarget, hplaces, hregisters.size_eq, ?_⟩
  rw [hadds.id_eq, hlineage, Lineage.kind?_attach, if_pos rfl, Lineage.parent?_attach, if_pos rfl]
  exact ⟨rfl, rfl⟩

/-- A frame that changes is the nearest one of the innermost draft. -/
theorem Advance.bindings_cases (hadvance : s.Advance step s')
    (hchanged : s'.workspace.bindings frame ≠ s.workspace.bindings frame) :
    ∃ draft rest, s.drafts = draft :: rest ∧ draft.scope.frame = frame ∧
      ((∃ m d name, s.root.get? draft.place = some (.module m) ∧ step = .declare d ∧
          d.typeName? = some name) ∨
        ∃ r parameters, s.root.get? draft.place = some r ∧ r.kind.opensScope ∧
          step = .addTypeParameters parameters) := by
  cases hadvance with
  | moduleOpened p path m id lineage scope workspace hdrafts hroot hmodule hregister hscope =>
    refine absurd ?_ hchanged
    rcases hscope with ⟨-, rfl⟩ | ⟨-, hnew⟩
    · rfl
    · rw [(Prod.mk.inj hnew).2]
      exact Workspace.bindings_root s.workspace path frame
  | childDeclared draft rest d owner slot handle declared scope workspace hdrafts howner hslot
      hempty hdeclared henter =>
    have hentered := Workspace.bindings_enter declared draft.scope d.kind frame
    rw [henter] at hentered
    rw [hentered] at hchanged
    rw [declareType_eq] at hdeclared
    obtain rfl := congrArg Session.workspace (Prod.mk.inj hdeclared).2
    cases hname : d.typeName? with
    | none =>
      rw [hname] at hchanged
      exact absurd rfl hchanged
    | some name =>
      rw [hname] at hchanged
      have hframe : draft.scope.frame = frame := by
        by_contra hne
        exact hchanged (Workspace.bindings_bind_of_ne (Ne.symm hne) _ _)
      obtain ⟨m, rfl⟩ := Record.exists_eq_module (Record.kind_eq_module_of_typeName? hslot hname)
      have hplace : d.ownerPlace draft.place = draft.place := by
        cases d with
        | property => cases hname
        | _ => rfl
      rw [hplace] at howner
      exact ⟨draft, rest, hdrafts, hframe, Or.inl ⟨m, d, name, howner, rfl, hname⟩⟩
  | typeParametersAdded draft rest r r' old parameters handles workspace hdrafts hrecord hold
      hdeclared hnew =>
    have hframe : draft.scope.frame = frame := by
      by_contra hne
      have hsame := Workspace.bindings_declareTypeParameters_of_ne (w := s.workspace)
        (Ne.symm hne) parameters
      rw [hdeclared] at hsame
      exact hchanged hsame
    exact ⟨draft, rest, hdrafts, hframe,
      Or.inr ⟨r, parameters, hrecord, Record.opensScope_of_typeParameters? hold, rfl⟩⟩
  | _ => exact absurd rfl hchanged

/-- That frame belongs to the record at work. -/
theorem Scoped.bindings_of_advance (h : Scoped frames s) (hadvance : s.Advance step s')
    (hchanged : s'.workspace.bindings frame ≠ s.workspace.bindings frame) :
    frames s.target = some frame ∧
      ((∃ m d name, s.root.get? s.target = some (.module m) ∧ step = .declare d ∧
          d.typeName? = some name) ∨
        ∃ parameters, step = .addTypeParameters parameters) := by
  obtain ⟨draft, rest, hdrafts, rfl, hcause⟩ := hadvance.bindings_cases hchanged
  rw [target_eq hdrafts]
  have hfits := h.drafts (hdrafts ▸ List.mem_cons_self)
  -- the record at work has a frame, which is then the nearest
  have hown : ∀ {r}, s.root.get? draft.place = some r → r.kind = .module ∨ r.kind.opensScope →
      frames draft.place = some draft.scope.frame := by
    intro r hget hkind
    obtain ⟨own, hown⟩ := Option.isSome_iff_exists.mp ((h.isSome_iff hget).mpr hkind)
    rw [hown, hfits.frame_eq hown]
  rcases hcause with ⟨m, d, name, hget, hstep, hname⟩ | ⟨r, parameters, hget, hscope, hstep⟩
  · exact ⟨hown hget (Or.inl rfl), Or.inl ⟨m, d, name, hget, hstep, hname⟩⟩
  · exact ⟨hown hget (Or.inr hscope), Or.inr ⟨parameters, hstep⟩⟩

/-- Stored references are followed by new ones, unless an attribute is set. -/
theorem Advance.references_of_get? (hadvance : s.Advance step s') (hget : s.root.get? q = some r)
    (hget' : s'.root.get? q = some r') :
    r.references <+: r'.references ∨ ∃ a value x, step = .set a (some value) ∧ q = s.target ∧
      r.write? a (some x) = some r' := by
  -- enough that the references at the place are the same
  have hsame : s'.root.view Record.references q = s.root.view Record.references q →
      r.references <+: r'.references := by
    intro hview
    rw [Record.view, Record.view, hget, hget'] at hview
    rw [show r'.references = r.references from Option.some.inj hview]
  cases hadvance with
  | moduleOpened p path m id lineage scope workspace hdrafts hroot hmodule =>
    have hprogram : (Record.program { p with modules := p.modules.insert path { m with id } }
        ).references = (Record.program p).references := rfl
    refine Or.inl (hsame ?_)
    rw [Record.view_insertModule Record.shallow_references p path m hmodule, hprogram,
      Record.update_view_self _ (Record.get?_nil (.program p)), ← hroot, Function.update_apply]
    split
    next hpath =>
      rw [hpath, hroot] at hget
      obtain rfl := Record.eq_module_of_get? hmodule hget
      rw [hpath, hroot, Record.view, hget]
      rfl
    next => rfl
  | childDeclared draft rest d owner slot handle declared scope workspace hdrafts howner hslot
      hempty =>
    have hne : q ≠ d.ownerPlace draft.place ++ [slot] := by
      rintro rfl
      rw [Record.get?_concat howner, hempty] at hget
      cases hget
    refine Or.inl (hsame ?_)
    rw [Record.view_replace_put Record.shallow_references howner
      (Record.hasSlot_of_slotFor? hslot) hempty (Record.accepts_of_slotFor? hslot (by simp))
      (Record.child?_withId_bare d handle _), Function.update_of_ne hne, Record.references_put,
      Record.update_view_self _ howner]
  | typeParametersAdded draft rest r₀ r₁ old parameters handles workspace hdrafts hrecord hold
      hdeclared hnew =>
    obtain ⟨houtline, -, hchildren, -⟩ := Record.withTypeParameters?_keeps hnew
    refine Or.inl (hsame ?_)
    rw [Record.view_replace_edited Record.shallow_references hrecord houtline hchildren,
      Record.references_withTypeParameters? hnew, Record.update_view_self _ hrecord]
  | edited _ draft rest r₀ r₁ hdrafts hrecord houtline hid hchildren htypes hrevise =>
    by_cases hq : q = draft.place
    · subst hq
      obtain rfl := Option.some.inj (hget.symm.trans hrecord)
      obtain rfl := Option.some.inj (hget'.symm.trans (Record.get?_replace hrecord houtline))
      refine (Record.references_of_revise? hrevise).imp_right ?_
      rintro ⟨a, value, x, hstep, hwrite⟩
      exact ⟨a, value, x, hstep, (target_eq hdrafts).symm, hwrite⟩
    · refine Or.inl (hsame ?_)
      rw [Record.view_replace_edited Record.shallow_references hrecord houtline hchildren,
        Function.update_of_ne hq]
  | _ => exact Or.inl (hsame rfl)

/-! ## 3. Every step after a run -/

/-- **Every step, after any run from nothing, works on one record: it adds one record
    beside the others at most, and all else stays as it is.** -/
theorem effect_of_step? (hblank : start.Blank) (hrun : start.run? steps = some s)
    (hsize : s.lineage.size ≤ EntityId.unassigned.raw) (hstep : s.step? step = some s') :
    ∃ frames, Scoped frames s ∧ Effect frames s step s' := by
  have hadvance := advance_of_step? hstep
  have htracks := tracks_of_run? hblank.begins hrun hsize
  obtain ⟨frames, hscoped⟩ := scoped_of_run? hblank hrun
  refine ⟨frames, hscoped, ?_⟩
  constructor
  case kept => exact htracks.kept_of_advance hblank hsize hadvance
  case others => exact hscoped.others_of_advance hadvance
  case new => exact hadvance.adds_iff
  case added => exact htracks.added_of_advance hblank hsize hadvance
  case rows => exact hadvance.rows_eq
  case bindings => exact hscoped.bindings_of_advance hadvance
  case references => exact hadvance.references_of_get?

/-- A constructor declares a property, which its class gains: it is the second one. -/
theorem effect_property_of_constructor :
    ∃ s s', (ofProgram ∅ {}).run? [.openModule "app", .declare (.class "User"),
        .declare (.property (some "id")), .close, .declare .constructor] = some s ∧
      s.step? (.declare (.property (some "name"))) = some s' ∧
      s.target = [.module "app", .entry 0, .constructor] ∧
      s.Adds (.declare (.property (some "name"))) [.module "app", .entry 0] (.property 1)
        (.property { Property.named (some "name") with id := s.lineage.next }) ∧
      ∃ frames, Scoped frames s ∧ Effect frames s (.declare (.property (some "name"))) s' := by
  obtain ⟨s, s', hrun, hsize, hstep, htarget, hnew, hget'⟩ : ∃ s s',
      (ofProgram ∅ {}).run? [.openModule "app", .declare (.class "User"),
        .declare (.property (some "id")), .close, .declare .constructor] = some s ∧
      s.lineage.size = 5 ∧ s.step? (.declare (.property (some "name"))) = some s' ∧
      s.target = [.module "app", .entry 0, .constructor] ∧
      s.root.get? [.module "app", .entry 0, .property 1] = none ∧
      s'.root.get? [.module "app", .entry 0, .property 1] =
        some (.property { Property.named (some "name") with id := s.lineage.next }) :=
    ⟨_, _, rfl, rfl, rfl, rfl, rfl, rfl⟩
  obtain ⟨frames, hscoped, heffect⟩ :=
    effect_of_step? (Or.inl ⟨∅, rfl⟩) hrun (by rw [hsize]; decide) hstep
  exact ⟨s, s', hrun, hstep, htarget, heffect.new.mpr ⟨hnew, hget'⟩, frames, hscoped, heffect⟩

end Session

end Declarations
