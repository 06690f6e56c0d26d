/-
  Declarations/Proofs/Session/Readings.lean
  =========================================
  **One record, step by step.**

  While a session goes on, a record changes in few ways.  It begins as a module that is
  opened or as what a declaration starts from (`Record.IsNew`).  What it holds by itself,
  apart from its children and from the identifier of a module, is a reading `Record.Own`.
  Such a reading only changes when the record is the one at work, and then the step adds
  type parameters or revises the record (`Advance.own_cases`).
-/
import Declarations.Proofs.Session.Effects
import Declarations.Proofs.Session.Persistence

namespace Declarations

namespace Record

variable {α : Type} {f : Record → α}

/-! ## 1. New records and records by themselves -/

/-- A record as it is made: a module without anything in it, or what a declaration starts
    from, with a handle if it declares a type. -/
inductive IsNew : Record → Prop where
  | module (path : String) (id : EntityId) : IsNew (.module { Module.atPath path with id })
  | declared (d : Declaration) (handle : Option TypeHandle) (id : EntityId)
      (hhandle : handle.isSome = d.typeName?.isSome) : IsNew ((d.bare handle).withId id)

/-- A reading that children do not enter, nor the identifier of a module. -/
structure Own (f : Record → α) : Prop where
  put (r : Record) (slot : Slot) (child : Record) : f (r.put slot child) = f r
  moduleId (m : Module) (id : EntityId) : f (.module { m with id }) = f (.module m)

theorem Own.shallow (h : Own f) : Shallow f :=
  fun r slot _ child' _ _ => h.put r slot child'

end Record

/-- Whether a step adds something to the record at work. -/
def Step.amends : Step → Bool
  | .addTypeParameters _ | .addImport .. | .addExport .. | .addImplements _ | .addExtends _ => true
  | _ => false

namespace Session

variable {s s' : Session} {step : Step} {q : Place} {r r' : Record}
variable {draft : Draft} {rest : List Draft}

/-! ## 2. One step -/

theorem Advance.isNew (hadvance : s.Advance step s') (hnew : s.root.get? q = none)
    (hget' : s'.root.get? q = some r') : r'.IsNew := by
  rcases hadvance.new_cases hnew hget' with
    ⟨p, path, -, -, -, -, -, rfl, -⟩ | ⟨draft, rest, d, owner, slot, -, -, -, -, -, -, rfl, -⟩
  · exact .module path _
  · refine .declared d _ _ ?_
    rw [declareType_eq]
    cases d.typeName? <;> rfl

/-- A step that adds something is at work on a record. -/
theorem Advance.exists_get?_of_amends (hadvance : s.Advance step s') (hamends : step.amends)
    (hdrafts : s.drafts = draft :: rest) : ∃ r, s.root.get? draft.place = some r := by
  cases hadvance with
  | typeParametersAdded draft' rest' r r' old parameters handles workspace hdrafts' hrecord =>
    obtain rfl := (List.cons.inj (hdrafts.symm.trans hdrafts')).1
    exact ⟨r, hrecord⟩
  | edited _ draft' rest' r r' hdrafts' hrecord =>
    obtain rfl := (List.cons.inj (hdrafts.symm.trans hdrafts')).1
    exact ⟨r, hrecord⟩
  | _ => cases hamends

/-- **What a record holds by itself changes only if the record is at work**: it gains type
    parameters, or it is revised. -/
theorem Advance.own_cases (hadvance : s.Advance step s') (hget : s.root.get? q = some r) :
    ∃ r', s'.root.get? q = some r' ∧
      (((∀ {α : Type} {f : Record → α}, Record.Own f → f r' = f r) ∧
          ∀ draft rest, s.drafts = draft :: rest → draft.place = q → step.amends = false) ∨
        ∃ draft rest, s.drafts = draft :: rest ∧ draft.place = q ∧
          ((∃ parameters old, step = .addTypeParameters parameters ∧
              r.typeParameters? = some old ∧ r.withTypeParameters? (appendTo old
                (s.workspace.declareTypeParameters draft.scope parameters).1) = some r') ∨
            r.revise? (s.workspace.lookup draft.scope) step = some r')) := by
  obtain ⟨r', hget', -⟩ := hadvance.exists_outline_eq hget
  refine ⟨r', hget', ?_⟩
  -- readings of the record are the same if the views of the roots are
  have hown : (∀ {α : Type} {f : Record → α}, Record.Own f →
      s'.root.view f q = s.root.view f q) →
      ∀ {α : Type} {f : Record → α}, Record.Own f → f r' = f r := by
    intro hview α f hf
    have hsame := hview hf
    rw [Record.view, Record.view, hget, hget'] at hsame
    exact Option.some.inj hsame
  have helsewhere : ∀ {draft : Draft} {rest : List Draft}, s.drafts = draft :: rest →
      draft.place ≠ q → ∀ draft' rest', s.drafts = draft' :: rest' → draft'.place = q →
        step.amends = false := by
    intro draft rest hdrafts hq draft' rest' hdrafts' hq'
    obtain rfl := (List.cons.inj (hdrafts.symm.trans hdrafts')).1
    exact absurd hq' hq
  cases hadvance with
  | moduleOpened p path m id lineage scope workspace hdrafts hroot hmodule =>
    refine Or.inl ⟨hown fun {α f} hf => ?_, fun _ _ _ _ => rfl⟩
    have hprogram : f (.program { p with modules := p.modules.insert path { m with id } }) =
        f (.program p) :=
      hf.put (.program p) (.module path) (.module { m with id })
    rw [Record.view_insertModule hf.shallow p path m hmodule, hprogram,
      Record.update_view_self _ (Record.get?_nil (.program p)), ← hroot, Function.update_apply]
    split
    next hpath =>
      rw [hpath, hroot] at hget
      obtain rfl := Record.eq_module_of_get? hmodule hget
      rw [hf.moduleId, hpath, hroot]
      exact (Record.view_eq_some_iff.mpr ⟨_, hget, rfl⟩).symm
    next => rfl
  | childDeclared draft rest d owner slot handle declared scope workspace hdrafts howner hslot
      hempty =>
    have hne : q ≠ d.ownerPlace draft.place ++ [slot] := by
      rintro rfl
      rw [Record.get?_concat howner, hempty] at hget
      cases hget
    refine Or.inl ⟨hown fun {α f} hf => ?_, fun _ _ _ _ => rfl⟩
    rw [Record.view_replace_put hf.shallow howner (Record.hasSlot_of_slotFor? hslot) hempty
      (Record.accepts_of_slotFor? hslot (by simp)) (Record.child?_withId_bare d handle _),
      Function.update_of_ne hne, hf.put, Record.update_view_self _ howner]
  | typeParametersAdded draft rest r₀ r₁ old parameters handles workspace hdrafts hrecord hold
      hdeclared hnew =>
    obtain ⟨houtline, -, hchildren, -⟩ := Record.withTypeParameters?_keeps hnew
    by_cases hq : draft.place = q
    · subst hq
      obtain rfl := Option.some.inj (hget.symm.trans hrecord)
      obtain rfl := Option.some.inj (hget'.symm.trans (Record.get?_replace hrecord houtline))
      refine Or.inr ⟨draft, rest, hdrafts, rfl, Or.inl ⟨parameters, old, rfl, hold, ?_⟩⟩
      rw [hdeclared]
      exact hnew
    · refine Or.inl ⟨hown fun {α f} hf => ?_, helsewhere hdrafts hq⟩
      rw [Record.view_replace_edited hf.shallow hrecord houtline hchildren,
        Function.update_of_ne (Ne.symm hq)]
  | edited _ draft rest r₀ r₁ hdrafts hrecord houtline hid hchildren htypes hrevise =>
    by_cases hq : draft.place = q
    · subst hq
      obtain rfl := Option.some.inj (hget.symm.trans hrecord)
      obtain rfl := Option.some.inj (hget'.symm.trans (Record.get?_replace hrecord houtline))
      exact Or.inr ⟨draft, rest, hdrafts, rfl, Or.inr hrevise⟩
    · refine Or.inl ⟨hown fun {α f} hf => ?_, helsewhere hdrafts hq⟩
      rw [Record.view_replace_edited hf.shallow hrecord houtline hchildren,
        Function.update_of_ne (Ne.symm hq)]
  | _ => exact Or.inl ⟨hown fun _ => rfl, fun _ _ _ _ => rfl⟩

end Session

end Declarations
