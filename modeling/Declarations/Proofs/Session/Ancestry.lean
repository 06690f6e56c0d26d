/-
  Declarations/Proofs/Session/Ancestry.lean
  =========================================
  **When ancestry reaches the program.**

  A session on a program begins a lineage of its own, but the modules of the
  program may have identifiers from another one.  Opening such a module does not
  register it, and what is declared in it is linked to a number that means
  something else here, or nothing: another record, the program, or the new record
  itself.

  `Session.Adopts` says when all is well nevertheless: the identifier of the
  module is one that this session has handed out to a module, to this one or to
  another.  Under this condition, and under no other, the module has its row
  below the program and the walk up from every record declared in it passes the
  module and ends at the program (`reachesProgram_iff`).
-/
import Declarations.Proofs.Session.Containment

namespace Declarations

open Lineage

/-! ## 1. One link of a search -/

theorem Lineage.nearest_of_linked {t : Lineage} {id parent : EntityId} (hends : t.Ends id)
    (h : t.Linked id parent) (kind : Kind) :
    t.nearest id kind =
      if t.kind? parent = some kind then some parent else t.nearest parent kind := by
  rw [nearest, ancestors_of_linked hends h, List.find?_cons]
  by_cases hkind : t.kind? parent = some kind
  · simp [hkind]
  · simp [hkind, nearest]

theorem Lineage.kind?_of_nearest_eq_some {t : Lineage} {id found : EntityId} {kind : Kind}
    (h : t.nearest id kind = some found) : t.kind? found = some kind := by
  simpa using List.find?_some (show (t.ancestors id).find? _ = some found from h)

/-! ## 2. Module rows and adoption -/

/-- There is no module at the path, or one without an identifier. -/
def Program.Lacks (p : Program) (path : String) : Prop :=
  ∀ m, p.modules[path]? = some m → ¬ m.id.isAssigned

namespace Session

variable {w : Workspace} {p : Program} {start s : Session} {steps : List Step}
variable {place : Place} {slot : Slot} {r owner : Record} {path : String} {id : EntityId}

def moduleId? (s : Session) (path : String) : Option EntityId :=
  (s.record? [.module path]).map Record.id

/-- The module at a path is registered as a module of the program. -/
def HasModuleRow (s : Session) (path : String) : Prop :=
  ∃ id, s.moduleId? path = some id ∧ s.lineage.kind? id = some .module ∧
    s.lineage.parent? id = some s.root.id

/-- Ancestry reaches the program from a record of the module at a path. -/
structure ReachesProgram (s : Session) (path : String) (r : Record) : Prop where
  ends : s.lineage.Ends r.id
  last : (s.lineage.ancestors r.id).getLast? = some s.root.id
  module : s.lineage.nearest r.id .module = s.moduleId? path
  program : s.lineage.nearest r.id .program = some s.root.id

/-- The module at a path has the identifier of a module that was registered when
    it was opened: of itself, or of another one. -/
def Adopts (p : Program) (s : Session) (path : String) : Prop :=
  ∃ other, other ∈ s.moduleScopes ∧ p.Lacks other ∧ s.moduleId? other = s.moduleId? path

/-! ## 3. Rows of modules -/

theorem tags_ofProgram {m : Module} (h : p.modules[path]? = some m) :
    (ofProgram w p).tags [.module path] = some ⟨m.id, .module⟩ := by
  refine tags_eq_some (r := .module m) ?_
  rw [Record.get?_singleton]
  exact congrArg (Option.map Record.module) h

theorem Tracks.entered_module_iff (h : Tracks (ofProgram w p) s) :
    Entered (ofProgram w p).tags s.tags [.module path] ↔
      path ∈ s.moduleScopes ∧ p.Lacks path := by
  constructor
  · intro hentered
    refine ⟨h.openedFirst hentered, ?_⟩
    intro m hm
    rcases h.mirrors.known (tags_ofProgram hm) with hsame | ⟨hunassigned, -⟩
    · exact absurd (hsame.trans (tags_ofProgram hm).symm) (hentered.resolve_left (by simp))
    · exact hunassigned
  · rintro ⟨hpath, hlacks⟩
    obtain ⟨tag, htag, hassigned⟩ := h.opened hpath
    apply Or.inr
    intro hsame
    rw [htag] at hsame
    obtain ⟨r, hget, rfl⟩ := exists_get?_of_tags hsame.symm
    rw [Record.get?_singleton] at hget
    obtain ⟨m, hm, rfl⟩ := Option.map_eq_some_iff.mp hget
    exact hlacks m hm hassigned

theorem Tracks.kind_root_ofProgram (h : Tracks (ofProgram w p) s) : s.root.kind = .program := by
  have hroot : (ofProgram w p).tags [] = some ⟨⟨0⟩, .program⟩ := rfl
  rcases h.mirrors.known hroot with hsame | ⟨-, path, hpath⟩
  · exact congrArg Record.Tag.kind (Option.some.inj hsame)
  · simp at hpath

/-- A row of a module is that of one that was registered when it was opened. -/
theorem Tracks.exists_module_of_kind? (h : Tracks (ofProgram w p) s)
    (hkind : s.lineage.kind? id = some .module) :
    ∃ other, other ∈ s.moduleScopes ∧ p.Lacks other ∧ s.moduleId? other = some id := by
  obtain ⟨place, tag, hentered, htag, rfl⟩ := h.mirrors.complete (isRegistered_of_kind? hkind)
  obtain ⟨r, hget, rfl⟩ := exists_get?_of_tags htag
  have hmodule : r.kind = .module := Option.some.inj ((h.kind?_eq hentered hget).symm.trans hkind)
  rcases Record.place_of_kind_eq_module hget hmodule with rfl | ⟨other, rfl⟩
  · obtain rfl : s.root = r := Option.some.inj hget
    exact absurd (h.kind_root_ofProgram.symm.trans hmodule) (by decide)
  · obtain ⟨hopened, hlacks⟩ := h.entered_module_iff.mp hentered
    exact ⟨other, hopened, hlacks, congrArg (Option.map Record.id) hget⟩

/-- **A module has its row below the program exactly if it is adopted.** -/
theorem Tracks.hasModuleRow_iff (h : Tracks (ofProgram w p) s) :
    s.HasModuleRow path ↔ s.Adopts p path := by
  constructor
  · rintro ⟨id, hid, hkind, -⟩
    obtain ⟨other, hopened, hlacks, hother⟩ := h.exists_module_of_kind? hkind
    exact ⟨other, hopened, hlacks, hother.trans hid.symm⟩
  · rintro ⟨other, hopened, hlacks, hsame⟩
    have hentered : Entered (ofProgram w p).tags s.tags ([] ++ [.module other]) :=
      h.entered_module_iff.mpr ⟨hopened, hlacks⟩
    obtain ⟨tag, htag, -⟩ := h.opened hopened
    obtain ⟨r, hget, -⟩ := exists_get?_of_tags htag
    obtain ⟨root, hroot, hlink⟩ := h.linked hentered hget
    obtain rfl : s.root = root := Option.some.inj hroot
    have hfor : (Slot.module other).isFor r.kind :=
      Record.isFor_of_get?_concat (show s.root.get? ([] ++ [.module other]) = some r from hget)
    have hkind : r.kind = .module := of_decide_eq_true hfor
    refine ⟨r.id, ?_, by rw [h.kind?_eq hentered hget, hkind], hlink⟩
    rw [← hsame]
    exact congrArg (Option.map Record.id) hget

/-! ## 4. Declared records -/

/-- A record declared in the run is contained in the root, in a module that the
    run has opened, or in another record declared in the run. -/
theorem Tracks.above_declared (h : Tracks start s)
    (hstart : start.root.get? (place ++ [slot]) = none) (hget : s.root.get? (place ++ [slot]) = some r) :
    place = [] ∨ (∃ path, path ∈ s.moduleScopes ∧ place = [.module path]) ∨
      start.root.get? place = none := by
  rcases h.above (entered_of_get? hstart hget) with (hnil | hnew) | hopened
  · exact Or.inl hnil
  · cases hold : start.root.get? place with
    | none => exact Or.inr (Or.inr rfl)
    | some owner =>
      rcases h.mirrors.known (tags_eq_some hold) with hsame | ⟨-, path, rfl⟩
      · exact absurd (hsame.trans (tags_eq_some hold).symm) hnew
      · exact Or.inr (Or.inl ⟨path, h.openedFirst (Or.inr hnew), rfl⟩)
  · exact Or.inr (Or.inl hopened)

/-- A record directly in a module with a row reaches the program. -/
theorem HasModuleRow.reachesProgram (hrow : s.HasModuleRow path)
    (hroot : s.lineage.kind? s.root.id = some .program ∧ s.lineage.parent? s.root.id = none)
    (hmodule : s.record? [.module path] = some owner) (hlink : s.lineage.Linked r.id owner.id) :
    s.ReachesProgram path r := by
  obtain ⟨id, hid, hkind, hparent⟩ := hrow
  rw [moduleId?, hmodule] at hid
  obtain rfl : owner.id = id := Option.some.inj hid
  have hendsOwner := (ends_iff_of_linked hparent).mpr (ends_of_parent?_eq_none hroot.2)
  have hends := (ends_iff_of_linked hlink).mpr hendsOwner
  constructor
  case ends => exact hends
  case last =>
    rw [ancestors_of_linked hends hlink, ancestors_of_linked hendsOwner hparent,
      ancestors_of_parent?_eq_none hroot.2]
    rfl
  case module => rw [nearest_of_linked hends hlink, if_pos hkind, moduleId?, hmodule]; rfl
  case program =>
    rw [nearest_of_linked hends hlink, if_neg (by simp [hkind]),
      nearest_of_linked hendsOwner hparent, if_pos hroot.1]

/-- So does a record in one that does, unless a module or program comes between. -/
theorem ReachesProgram.of_linked (howner : s.ReachesProgram path owner)
    (hlink : s.lineage.Linked r.id owner.id) (hkind : s.lineage.kind? owner.id = some owner.kind)
    (hprogram : owner.kind ≠ .program) (hmodule : owner.kind ≠ .module) :
    s.ReachesProgram path r := by
  have hends := (ends_iff_of_linked hlink).mpr howner.ends
  constructor
  case ends => exact hends
  case last => rw [ancestors_of_linked hends hlink, List.getLast?_cons, howner.last]; rfl
  case module =>
    rw [nearest_of_linked hends hlink, hkind, if_neg (by simpa using hmodule), howner.module]
  case program =>
    rw [nearest_of_linked hends hlink, hkind, if_neg (by simpa using hprogram), howner.program]

/-- **In a module with a row, every record declared in the run reaches the
    program.** -/
theorem Tracks.reachesProgram (h : Tracks (ofProgram w p) s) (hrow : s.HasModuleRow path)
    {rest : Place} (hrest : rest ≠ [])
    (hdeclared : (ofProgram w p).root.get? (.module path :: rest) = none)
    (hget : s.root.get? (.module path :: rest) = some r) : s.ReachesProgram path r := by
  obtain ⟨rootKind, hroot, hkind, hparent⟩ := h.mirrors.root
  have htag : s.root.tag = ⟨⟨0⟩, rootKind⟩ := Option.some.inj hroot
  have hroot : s.lineage.kind? s.root.id = some .program ∧
      s.lineage.parent? s.root.id = none := by
    rw [← h.kind_root_ofProgram, show s.root.kind = rootKind from congrArg Record.Tag.kind htag,
      show s.root.id = ⟨0⟩ from congrArg Record.Tag.id htag]
    exact ⟨hkind, hparent⟩
  induction rest using List.reverseRecOn generalizing r with
  | nil => exact absurd rfl hrest
  | append_singleton rest slot ih =>
    rw [← List.cons_append] at hdeclared hget
    obtain ⟨owner, howner, hlink⟩ := h.linked (entered_of_get? hdeclared hget) hget
    rcases Decidable.em (rest = []) with rfl | hrest
    · exact hrow.reachesProgram hroot howner hlink
    · -- the owner is neither root nor module, so it was declared in the run too
      have hnotModule : ∀ other, .module path :: rest ≠ [.module other] :=
        fun other heq => hrest (List.cons.inj heq).2
      have hdeclaredOwner : (ofProgram w p).root.get? (.module path :: rest) = none := by
        rcases h.above_declared hdeclared hget with hnil | ⟨other, -, heq⟩ | hnone
        · simp at hnil
        · exact absurd heq (hnotModule other)
        · exact hnone
      have hkindOwner := h.kind?_eq (entered_of_get? hdeclaredOwner howner) howner
      apply (ih hrest hdeclaredOwner howner).of_linked hlink hkindOwner
      case hprogram =>
        intro hkind
        exact absurd (Record.eq_nil_of_kind_eq_program howner hkind) (by simp)
      case hmodule =>
        intro hkind
        rcases Record.place_of_kind_eq_module howner hkind with hnil | ⟨other, heq⟩
        · simp at hnil
        · exact hnotModule other heq

/-! ## 5. The exact condition -/

/-- **A module of a program has its row exactly if it is adopted, and exactly
    then does every record declared in it reach the program.** -/
theorem reachesProgram_iff (hrun : (ofProgram w p).run? steps = some s)
    (hsize : s.lineage.size ≤ EntityId.unassigned.raw) :
    (∀ path, path ∈ s.moduleScopes → (s.HasModuleRow path ↔ s.Adopts p path)) ∧
    ∀ path rest r, rest ≠ [] → (Record.program p).get? (.module path :: rest) = none →
      s.record? (.module path :: rest) = some r → (s.ReachesProgram path r ↔ s.Adopts p path) := by
  have h := tracks_of_run? (Or.inl ⟨w, p, rfl⟩) hrun hsize
  refine ⟨fun path _ => h.hasModuleRow_iff, fun path rest r hrest hdeclared hget => ⟨?_, ?_⟩⟩
  · intro hreaches
    obtain ⟨m, hm⟩ := Record.exists_get?_of_append
      (show s.root.get? ([.module path] ++ rest) = some r from hget)
    have hid : s.moduleId? path = some m.id := congrArg (Option.map Record.id) hm
    -- what a search for a module finds has a row of a module
    have hkind : s.lineage.kind? m.id = some .module :=
      kind?_of_nearest_eq_some (hreaches.module.trans hid)
    obtain ⟨other, hopened, hlacks, hother⟩ := h.exists_module_of_kind? hkind
    exact ⟨other, hopened, hlacks, hother.trans hid.symm⟩
  · intro hadopts
    exact h.reachesProgram (h.hasModuleRow_iff.mpr hadopts) hrest hdeclared hget

/-- A program that is built on again: a class in a new module reaches it. -/
theorem reachesProgram_class_of_new_module :
    ∃ s₀ p s r, (ofProgram ∅ {}).run? [.openModule "old", .close] = some s₀ ∧
      s₀.root = .program p ∧
      (ofProgram s₀.workspace p).run? [.openModule "new", .declare (.class "User")] = some s ∧
      s.record? [.module "new", .entry 0] = some r ∧ s.ReachesProgram "new" r := by
  obtain ⟨s₀, p, s, r, hrun₀, hroot₀, hrun, hget, hsize, hopened, hnew⟩ :
      ∃ s₀ p s r, (ofProgram ∅ {}).run? [.openModule "old", .close] = some s₀ ∧
        s₀.root = .program p ∧
        (ofProgram s₀.workspace p).run? [.openModule "new", .declare (.class "User")] = some s ∧
        s.record? [.module "new", .entry 0] = some r ∧
        s.lineage.size = 3 ∧ "new" ∈ s.moduleScopes ∧ p.modules["new"]? = none :=
    ⟨_, _, _, _, rfl, rfl, rfl, rfl, rfl, by decide, rfl⟩
  have hdeclared : (Record.program p).get? [.module "new", .entry 0] = none := by
    rw [Record.get?_cons, show (Record.program p).child? (.module "new") = none by
      simp [Record.child?, hnew], Option.bind_none]
  have hadopts : s.Adopts p "new" := ⟨"new", hopened, by simp [Program.Lacks, hnew], rfl⟩
  have hbound : s.lineage.size ≤ EntityId.unassigned.raw := by
    rw [hsize]
    decide
  have hreaches := (reachesProgram_iff hrun hbound).2 "new" [.entry 0] r (by simp) hdeclared hget
  exact ⟨s₀, p, s, r, hrun₀, hroot₀, hrun, hget, hreaches.mpr hadopts⟩

/-- A class in the old module does not: it is given the number that the module
    has had from the earlier lineage, so it becomes its own parent, and the walk
    up from it never ends. -/
theorem not_ends_class_of_old_module :
    ∃ s₀ p s r, (ofProgram ∅ {}).run? [.openModule "old", .close] = some s₀ ∧
      s₀.root = .program p ∧
      (ofProgram s₀.workspace p).run? [.openModule "old", .declare (.class "User")] = some s ∧
      "old" ∈ s.moduleScopes ∧ ¬ s.HasModuleRow "old" ∧
      (Record.program p).get? [.module "old", .entry 0] = none ∧
      s.record? [.module "old", .entry 0] = some r ∧ ¬ s.lineage.Ends r.id := by
  obtain ⟨s₀, p, s, r, hrun₀, hroot₀, hrun, hopened, hid, hkind, hdeclared, hget, hparent⟩ :
      ∃ s₀ p s r, (ofProgram ∅ {}).run? [.openModule "old", .close] = some s₀ ∧
        s₀.root = .program p ∧
        (ofProgram s₀.workspace p).run? [.openModule "old", .declare (.class "User")] = some s ∧
        "old" ∈ s.moduleScopes ∧ s.moduleId? "old" = some ⟨1⟩ ∧
        s.lineage.kind? ⟨1⟩ = some .class ∧
        (Record.program p).get? [.module "old", .entry 0] = none ∧
        s.record? [.module "old", .entry 0] = some r ∧ s.lineage.Linked r.id r.id :=
    ⟨_, _, _, _, rfl, rfl, rfl, by decide, rfl, rfl, rfl, rfl, rfl⟩
  refine ⟨s₀, p, s, r, hrun₀, hroot₀, hrun, hopened, ?_, hdeclared, hget, ?_⟩
  · rintro ⟨id, hid', hkind', -⟩
    obtain rfl : ⟨1⟩ = id := Option.some.inj (hid.symm.trans hid')
    exact absurd (hkind.symm.trans hkind') (by decide)
  · intro hends
    exact hends.not_isAncestor_self (Relation.TransGen.single hparent)

end Session

end Declarations
