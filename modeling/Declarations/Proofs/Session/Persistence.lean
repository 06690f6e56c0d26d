/-
  Declarations/Proofs/Session/Persistence.lean
  ============================================
  **What stays through a run.**

  Whatever a session refers to by number or by place is still there later: a record
  keeps its place and its outline, a handle its mint, and an identifier is given to
  one record only, however many there are.
-/
import Declarations.Proofs.Lineage.Renaming
import Declarations.Proofs.Scope.Minting
import Declarations.Proofs.Session.Places
import Declarations.Proofs.Session.Sites

namespace Declarations

theorem Record.shallow_outline : Record.Shallow Record.outline :=
  fun _ _ _ _ _ _ => Record.outline_put _ _ _

namespace Session

variable {start s s' : Session} {step : Step} {steps : List Step} {q : Place} {r : Record}

/-! ## 1. Outlines -/

/-- Records keep their outlines. -/
theorem Advance.exists_outline_eq (hadvance : s.Advance step s') (hget : s.root.get? q = some r) :
    ∃ r', s'.root.get? q = some r' ∧ r'.outline = r.outline := by
  apply Record.view_eq_some_iff.mp
  have hview : s.root.view Record.outline q = some r.outline :=
    Record.view_eq_some_iff.mpr ⟨r, hget, rfl⟩
  rw [← hview]
  cases hadvance with
  | moduleOpened p path m id lineage scope workspace hdrafts hroot hmodule =>
    have hprogram : (Record.program { p with modules := p.modules.insert path { m with id } }
        ).outline = (Record.program p).outline := rfl
    rw [Record.view_insertModule Record.shallow_outline p path m hmodule, hprogram,
      Record.update_view_self _ (Record.get?_nil (.program p)), ← hroot, Function.update_apply]
    split
    next hpath =>
      rw [hpath, hroot] at hget
      rw [hview, Record.eq_module_of_get? hmodule hget]
      rfl
    next => rfl
  | childDeclared draft rest d owner slot handle declared scope workspace hdrafts howner hslot
      hempty =>
    have hne : q ≠ d.ownerPlace draft.place ++ [slot] := by
      rintro rfl
      rw [Record.get?_concat howner, hempty] at hget
      cases hget
    rw [Record.view_replace_put Record.shallow_outline howner
      (Record.hasSlot_of_slotFor? hslot) hempty (Record.accepts_of_slotFor? hslot (by simp))
      (Record.child?_withId_bare d handle _), Function.update_of_ne hne, Record.outline_put,
      Record.update_view_self _ howner]
  | typeParametersAdded draft rest r₀ r₁ old parameters handles workspace hdrafts hrecord hold
      hdeclared hnew =>
    obtain ⟨houtline, -, hchildren, -⟩ := Record.withTypeParameters?_keeps hnew
    rw [Record.view_replace_edited Record.shallow_outline hrecord houtline hchildren, houtline,
      Record.update_view_self _ hrecord]
  | edited _ draft rest r₀ r₁ hdrafts hrecord houtline hid hchildren =>
    rw [Record.view_replace_edited Record.shallow_outline hrecord houtline hchildren, houtline,
      Record.update_view_self _ hrecord]
  | _ => rfl

theorem exists_outline_eq_of_run? (hrun : s.run? steps = some s')
    (hget : s.root.get? q = some r) : ∃ r', s'.root.get? q = some r' ∧ r'.outline = r.outline :=
  invariant_of_run? (I := fun s => ∃ r', s.root.get? q = some r' ∧ r'.outline = r.outline)
    ⟨r, hget, rfl⟩
    (fun ⟨_, hget, houtline⟩ hadvance =>
      let ⟨r', hget', houtline'⟩ := hadvance.exists_outline_eq hget
      ⟨r', hget', houtline'.trans houtline⟩) hrun

/-! ## 2. Mints -/

/-- The minted handles stay. -/
theorem Advance.extends (hadvance : s.Advance step s') : s.workspace.Extends s'.workspace := by
  cases hadvance with
  | moduleOpened p path m id lineage scope workspace hdrafts hroot hmodule hregister hscope =>
    rcases hscope with ⟨-, rfl⟩ | ⟨-, hnew⟩
    · exact Workspace.Extends.of_eq rfl
    · rw [(Prod.mk.inj hnew).2]
      exact s.workspace.extends_root path
  | childDeclared draft rest d owner slot handle declared scope workspace hdrafts howner hslot
      hempty hdeclared henter =>
    rw [declareType_eq] at hdeclared
    have hextends : s.workspace.Extends declared := by
      obtain rfl := congrArg Session.workspace (Prod.mk.inj hdeclared).2
      cases d.typeName? with
      | none => exact Workspace.Extends.of_eq rfl
      | some name => exact s.workspace.extends_declareNominal draft.scope name
    have hentered := declared.extends_enter draft.scope d.kind
    rw [henter] at hentered
    exact hextends.trans hentered
  | typeParametersAdded draft rest r r' old parameters handles workspace hdrafts hrecord hold
      hdeclared hnew =>
    have hextends := s.workspace.extends_declareTypeParameters draft.scope parameters
    rw [hdeclared] at hextends
    exact hextends
  | _ => exact Workspace.Extends.of_eq rfl

theorem extends_of_run? (hrun : s.run? steps = some s') : s.workspace.Extends s'.workspace :=
  invariant_of_run? (I := fun v => s.workspace.Extends v.workspace) (Workspace.Extends.of_eq rfl)
    (fun hextends hadvance => hextends.trans hadvance.extends) hrun

/-! ## 3. Identifiers -/

theorem Advance.numbered (hadvance : s.Advance step s') (h : s.tags.Numbered s.lineage.size) :
    s'.tags.Numbered s'.lineage.size := by
  rcases hadvance.tags_cases with ⟨htags, hlineage⟩ | ⟨new, kind, hregisters⟩
  · rwa [htags, hlineage]
  have hsize := hregisters.size_eq
  -- an old identifier is smaller than the new one
  have hold : ∀ {q tag}, s.tags q = some tag → tag.id ≠ s.lineage.next := by
    rintro q tag htag heq
    have hlt := h.raw_lt htag
    rw [heq] at hlt
    exact Nat.lt_irrefl _ hlt
  constructor
  case raw_lt =>
    intro q tag htag
    rw [hregisters.tags] at htag
    rcases Place.update_eq_some_iff.mp htag with ⟨-, rfl⟩ | ⟨-, htag⟩
    · rw [hsize]
      exact Nat.lt_succ_self _
    · exact Nat.lt_of_lt_of_le (h.raw_lt htag) (by omega)
  case unique =>
    intro p q tag tag' htag htag' hid
    rw [hregisters.tags] at htag htag'
    rcases Place.update_eq_some_iff.mp htag with ⟨rfl, rfl⟩ | ⟨-, hp⟩ <;>
      rcases Place.update_eq_some_iff.mp htag' with ⟨rfl, rfl⟩ | ⟨-, hq⟩
    · rfl
    · exact absurd hid.symm (hold hq)
    · exact absurd hid (hold hp)
    · exact h.unique hp hq hid

theorem Blank.numbered (hblank : start.Blank) : start.tags.Numbered start.lineage.size := by
  have hnil : ∀ {q tag}, start.tags q = some tag → q = [] := by
    intro q tag htag
    by_contra hq
    rw [hblank.tags_eq_none hq] at htag
    cases htag
  constructor
  case raw_lt =>
    intro q tag htag
    obtain rfl := hnil htag
    obtain ⟨r, hget, rfl⟩ := exists_get?_of_tags htag
    obtain rfl := Option.some.inj hget
    rcases hblank with ⟨w, rfl⟩ | ⟨w, path, rfl⟩ <;> exact Nat.zero_lt_one
  case unique => exact fun htag htag' _ => (hnil htag).trans (hnil htag').symm

/-- No two records of a session have one identifier, however many there are. -/
theorem numbered_of_run? (hblank : start.Blank) (hrun : start.run? steps = some s) :
    s.tags.Numbered s.lineage.size :=
  invariant_of_run? (I := fun s => s.tags.Numbered s.lineage.size) hblank.numbered
    (fun h hadvance => hadvance.numbered h) hrun

end Session

end Declarations
