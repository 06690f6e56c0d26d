/-
  Declarations/Proofs/Session/EntryPoints.lean
  ============================================
  **A module alone and a module of a program.**

  A module can be built by itself or as the one module of a program.  The two are set up
  differently, but after that they are the same: a session on a lone module stands in a
  session on a program (`Session.inProgram`), in which every identifier is one larger, the
  program has the first row of the lineage, and the module is registered under it.

  Each step commutes with this (`step?_inProgram`), so whole runs do, whether they
  succeed or not (`run?_openModule_eq_map`).
-/
import Declarations.Proofs.Record.Renaming
import Declarations.Proofs.Session.Integrity

namespace Declarations

/-! ## 1. A program before the first record -/

/-- The identifier after this one. -/
def EntityId.succ (id : EntityId) : EntityId := ⟨id.raw + 1⟩

/-- The lineage with a program before all other records, the first of which becomes
    its child. -/
def Lineage.underProgram (t : Lineage) : Lineage :=
  ⟨#[⟨.program, none⟩] ++ t.rows.mapIdx fun i row =>
    { row with parent := if i = 0 then some ⟨0⟩ else row.parent.map .succ }⟩

theorem Lineage.attach_underProgram {t : Lineage} (hsize : 0 < t.size) (kind : Kind)
    (parent : EntityId) : t.underProgram.attach kind parent.succ =
      (t.next.succ, (t.attach kind parent).2.underProgram) := by
  have hne : t.rows.size ≠ 0 := Nat.ne_of_gt hsize
  simp [attach, underProgram, next, size, EntityId.succ, hne, Nat.add_comm]

namespace Record

variable {r : Record} {slot : Slot} {rest : Place} {path : String}

/-- The program that consists of one module, itself registered before all else. -/
def soleModule (path : String) (m : Record) : Record :=
  (Record.program { id := ⟨0⟩ }).put (.module path) m

theorem get?_soleModule (hkind : r.kind = .module) (place : Place) :
    (soleModule path r).get? (.module path :: place) = r.get? place := by
  obtain ⟨m, rfl⟩ := exists_eq_module hkind
  simp [soleModule, get?_cons, child?, put]

theorem replace_soleModule {new : Record} {place : Place} (hkind : r.kind = .module)
    (hreplaced : (r.replace place new).kind = .module) :
    (soleModule path r).replace (.module path :: place) new =
      soleModule path (r.replace place new) := by
  obtain ⟨m, rfl⟩ := exists_eq_module hkind
  obtain ⟨m', hm'⟩ := exists_eq_module hreplaced
  have hchild : (soleModule path (.module m)).child? (.module path) = some (.module m) := by
    simp [soleModule, child?, put]
  rw [replace, hchild]
  dsimp only
  rw [hm', soleModule, soleModule, put, put]
  congr 2
  apply Std.ExtTreeMap.ext_getElem?
  intro other
  simp only [Std.ExtTreeMap.getElem?_insert]
  split <;> rfl

end Record

theorem Declaration.ownerPlace_cons_module (d : Declaration) (path : String) (place : Place) :
    d.ownerPlace (.module path :: place) = .module path :: d.ownerPlace place := by
  cases d with
  | property name =>
    cases place with
    | nil => rfl
    | cons slot rest =>
      simp only [ownerPlace, List.getLast?_cons_cons, List.dropLast_cons_cons]
      split <;> rfl
  | _ => rfl

/-- An open record of a module, in the program. -/
def Draft.inModule (path : String) (draft : Draft) : Draft :=
  { draft with place := .module path :: draft.place }

namespace Session

variable {s s' : Session} {step : Step} {steps : List Step} {path : String} {scope : Scope}
variable {place : Place} {r : Record}

/-! ## 2. A session on a module, in a program -/

/-- The session on a program that has the module of this session for its only one, in
    the given root scope. -/
def inProgram (path : String) (scope : Scope) (s : Session) : Session :=
  { root := .soleModule path (s.root.rename .succ fun i => i)
    lineage := s.lineage.underProgram
    workspace := s.workspace
    moduleScopes := (∅ : Std.ExtTreeMap String Scope).insert path scope
    drafts := s.drafts.map (.inModule path) }

/-- A session on a lone module, which is registered. -/
structure Lone (s : Session) : Prop where
  root : s.root.kind = .module
  registered : 0 < s.lineage.size

theorem lone_ofModule (w : Workspace) (path : String) : (ofModule w (.atPath path)).Lone :=
  ⟨rfl, Nat.zero_lt_one⟩

theorem Lone.advance (h : s.Lone) (hadvance : s.Advance step s') : s'.Lone where
  root := (Record.kind_eq_of_outline_eq hadvance.outline_root).trans h.root
  registered := Nat.lt_of_lt_of_le h.registered hadvance.size_le

theorem Lone.record?_inProgram (h : s.Lone) (place : Place) :
    (s.inProgram path scope).record? (.module path :: place) =
      (s.record? place).map (.rename .succ fun i => i) := by
  rw [record?, inProgram, Record.get?_soleModule (by rw [Record.kind_rename, h.root]),
    Record.get?_rename]
  rfl

theorem Lone.replace_inProgram (h : s.Lone) {new : Record} (hget : s.record? place = some r)
    (houtline : new.outline = r.outline) :
    (s.inProgram path scope).replace (.module path :: place) (new.rename .succ fun i => i) =
      (s.replace place new).inProgram path scope := by
  have hkind : (s.root.replace place new).kind = .module :=
    (Record.kind_eq_of_outline_eq (Record.outline_replace hget houtline)).trans h.root
  rw [replace, inProgram, Record.replace_soleModule (by rw [Record.kind_rename, h.root])
    (by rw [← Record.replace_rename, Record.kind_rename, hkind]), ← Record.replace_rename]
  rfl

theorem Lone.current?_inProgram (h : s.Lone) :
    (s.inProgram path scope).current? = s.current?.map fun (draft, r) =>
      (draft.inModule path, r.rename .succ fun i => i) := by
  have hdrafts : (s.inProgram path scope).drafts = s.drafts.map (.inModule path) := rfl
  rw [current?, current?, hdrafts]
  cases s.drafts with
  | nil => rfl
  | cons draft rest =>
    simp only [List.map_cons, List.head?_cons, Option.bind_some, Draft.inModule]
    rw [h.record?_inProgram, Option.map_map, Option.map_map]
    rfl

/-! ## 3. One step -/

theorem declareType_inProgram (s : Session) (surrounding : Scope) (d : Declaration) :
    (s.inProgram path scope).declareType surrounding d =
      ((s.declareType surrounding d).1, (s.declareType surrounding d).2.inProgram path scope) := by
  unfold declareType
  cases d.typeName? <;> rfl

theorem Lone.adopt_inProgram (h : s.Lone) {owner : Record} {slot : Slot} {d : Declaration}
    (handle : Option TypeHandle) (howner : s.record? place = some owner) :
    (s.inProgram path scope).adopt (.module path :: place) (owner.rename .succ fun i => i) slot
        (d.bare handle) =
      (s.adopt place owner slot (d.bare handle)).inProgram path scope := by
  have hattach := Lineage.attach_underProgram h.registered d.kind owner.id
  have hchild : (d.bare handle).withId s.lineage.next.succ =
      ((d.bare handle).withId s.lineage.next).rename .succ fun i => i := by
    rw [Record.withId_bare_rename]
    cases handle <;> rfl
  have hput : (owner.rename .succ fun i => i).put slot
      ((d.bare handle).withId s.lineage.next.succ) =
      (owner.put slot ((d.bare handle).withId s.lineage.next)).rename .succ fun i => i := by
    rw [hchild, Record.put_rename]
  have houtline := Record.outline_put owner slot ((d.bare handle).withId s.lineage.next)
  have hroot : (s.inProgram path scope).root.replace (.module path :: place)
      ((owner.put slot ((d.bare handle).withId s.lineage.next)).rename .succ fun i => i) =
      .soleModule path ((s.root.replace place
        (owner.put slot ((d.bare handle).withId s.lineage.next))).rename .succ fun i => i) :=
    congrArg Session.root (h.replace_inProgram howner houtline)
  simp only [adopt, Declaration.kind_bare, Record.id_rename]
  rw [show (s.inProgram path scope).lineage = s.lineage.underProgram from rfl, hattach]
  dsimp only
  rw [hput, hroot]
  rfl

/-- What is asked of the innermost record and done to it, in the program. -/
theorem Lone.bind_current?_inProgram (h : s.Lone) {f g : Draft × Record → Option Session}
    (hfg : ∀ draft r, s.record? draft.place = some r →
      g (draft.inModule path, r.rename .succ fun i => i) =
        (f (draft, r)).map (inProgram path scope)) :
    (s.inProgram path scope).current?.bind g = (s.current?.bind f).map (inProgram path scope) := by
  rw [h.current?_inProgram]
  cases hcurrent : s.current? with
  | none => rfl
  | some current =>
    obtain ⟨draft, r⟩ := current
    obtain ⟨rest, -, hrecord⟩ := current?_eq_some_iff.mp hcurrent
    exact hfg draft r hrecord

theorem Lone.map_replace_inProgram (h : s.Lone) {x : Option Record}
    (hget : s.record? place = some r) (houtline : ∀ r', x = some r' → r'.outline = r.outline) :
    (x.map (.rename .succ fun i => i)).map
        ((s.inProgram path scope).replace (.module path :: place)) =
      (x.map (s.replace place)).map (inProgram path scope) := by
  cases x with
  | none => rfl
  | some r' => exact congrArg some (h.replace_inProgram hget (houtline r' rfl))

theorem Lone.declare?_inProgram (h : s.Lone) (d : Declaration) :
    (s.inProgram path scope).declare? d = (s.declare? d).map (inProgram path scope) := by
  have hdrafts : (s.inProgram path scope).drafts = s.drafts.map (.inModule path) := rfl
  rw [declare?, declare?, hdrafts]
  cases s.drafts with
  | nil => rfl
  | cons draft rest =>
    simp only [List.map_cons, List.head?_cons, Option.bind_some]
    rw [Draft.inModule, d.ownerPlace_cons_module, h.record?_inProgram]
    cases howner : s.record? (d.ownerPlace draft.place) with
    | none => rfl
    | some owner =>
      simp only [Option.map_some, Option.bind_some, Record.slotFor?_rename, Option.map_map]
      congr 1
      funext slot
      obtain ⟨handle, declared, hdeclared⟩ : ∃ handle declared,
          s.declareType draft.scope d = (handle, { s with workspace := declared }) :=
        ⟨_, _, declareType_eq s draft.scope d⟩
      have hlone : Lone { s with workspace := declared } := ⟨h.root, h.registered⟩
      simp only [Function.comp_apply, declareType_inProgram, hdeclared, Record.child?_rename,
        Option.isSome_map]
      by_cases hchild : (owner.child? slot).isSome
      · rw [if_pos hchild, if_pos hchild]
        rfl
      · rw [if_neg hchild, if_neg hchild, hlone.adopt_inProgram handle howner]
        rfl

theorem Lone.set?_inProgram (h : s.Lone) (a : Attribute) (value : Option a.Value) :
    (s.inProgram path scope).set? a value = (s.set? a value).map (inProgram path scope) := by
  apply h.bind_current?_inProgram
  intro draft r hrecord
  dsimp only
  cases value.filter a.isPresent with
  | none =>
    have hread := Record.isSome_read?_rename (ρ := .succ) (τ := fun i => i) r a
    dsimp only
    cases hr : r.read? a <;> cases hr' : (r.rename .succ fun i => i).read? a <;>
      simp_all
  | some given =>
    dsimp only
    rw [← Record.write?_rename (τ := fun i => i) r fun _ _ => TypeReference.rename_self _]
    exact h.map_replace_inProgram hrecord fun r' hwrite => (Record.write?_keeps hwrite).1

theorem Lone.addTypeParameters?_inProgram (h : s.Lone) (parameters : List TypeIdentifier) :
    (s.inProgram path scope).addTypeParameters? parameters =
      (s.addTypeParameters? parameters).map (inProgram path scope) := by
  apply h.bind_current?_inProgram
  intro draft r hrecord
  dsimp only
  rw [Record.typeParameters?_rename]
  cases r.typeParameters? with
  | none => rfl
  | some old =>
    obtain ⟨handles, workspace, hdeclared⟩ : ∃ handles workspace,
        s.workspace.declareTypeParameters draft.scope parameters = (handles, workspace) :=
      ⟨_, _, rfl⟩
    have hlone : Lone { s with workspace } := ⟨h.root, h.registered⟩
    have hsame : old.map (·.map (.rename fun i => i)) = old := by
      cases old <;> simp [funext TypeHandle.rename_self]
    have hnew := Record.withTypeParameters?_rename (ρ := .succ) (τ := fun i => i) r
      (appendTo old handles)
    rw [Record.map_appendTo, hsame, funext TypeHandle.rename_self, List.map_id'] at hnew
    simp only [Option.map_some, Option.bind_some, hsame]
    rw [show (s.inProgram path scope).workspace = s.workspace from rfl, Draft.inModule, hdeclared]
    dsimp only
    rw [← hnew]
    exact hlone.map_replace_inProgram hrecord fun r' hr' =>
      (Record.withTypeParameters?_keeps hr').1

theorem Lone.edit?_inProgram (h : s.Lone) (hedit : isEdit step) :
    (s.inProgram path scope).step? step = (s.step? step).map (inProgram path scope) := by
  rw [step?_eq_edit? hedit, step?_eq_edit? hedit]
  apply h.bind_current?_inProgram
  intro draft r hrecord
  dsimp only
  rw [show (s.inProgram path scope).workspace = s.workspace from rfl, Draft.inModule,
    ← Record.revise?_rename_ids]
  exact h.map_replace_inProgram hrecord fun r' hrevise => (Record.revise?_keeps hrevise).1

/-- **Each step but the opening of a module does in the program what it does alone.** -/
theorem Lone.step?_inProgram (h : s.Lone) (hstep : ∀ other, step ≠ .openModule other) :
    (s.inProgram path scope).step? step = (s.step? step).map (inProgram path scope) := by
  cases step with
  | openModule other => exact absurd rfl (hstep other)
  | declare d => exact h.declare?_inProgram d
  | close =>
    have hdrafts : (s.inProgram path scope).drafts = s.drafts.map (.inModule path) := rfl
    rw [step?, step?, hdrafts]
    cases s.drafts <;> rfl
  | set a value => exact h.set?_inProgram a value
  | addTypeParameters parameters => exact h.addTypeParameters?_inProgram parameters
  | addImport _ _ _ | addExport _ _ | addImplements _ | addExtends _ => exact h.edit?_inProgram rfl

/-! ## 4. Runs -/

theorem Lone.run?_inProgram (h : s.Lone)
    (hsteps : ∀ step ∈ steps, ∀ other, step ≠ .openModule other) :
    (s.inProgram path scope).run? steps = (s.run? steps).map (inProgram path scope) := by
  induction steps generalizing s with
  | nil => rfl
  | cons step steps ih =>
    obtain ⟨hstep, hrest⟩ := List.forall_mem_cons.mp hsteps
    rw [run?_cons, run?_cons, h.step?_inProgram hstep]
    cases hnext : s.step? step with
    | none => rfl
    | some next => exact ih (h.advance (advance_of_step? hnext)) hrest

theorem step?_openModule_ofProgram (w : Workspace) (path : String) :
    (ofProgram w {}).step? (.openModule path) =
      some ((ofModule w (.atPath path)).inProgram path (w.root path).1) := by
  simp [step?, openModule?, ofProgram, ofModule, inProgram, Record.soleModule, Record.put,
    Record.rename, Module.rename, Module.atPath, EntityId.isAssigned, EntityId.succ,
    Lineage.underProgram, Lineage.alloc, Lineage.attach, Lineage.empty, Lineage.next, Lineage.size,
    Draft.inModule]

/-- **Building a module alone and building it as the one module of a program is the same,
    up to the place of the program.** -/
theorem run?_openModule_eq_map (w : Workspace) (path : String) (steps : List Step)
    (hsteps : ∀ step ∈ steps, ∀ other, step ≠ .openModule other) :
    (ofProgram w {}).run? (.openModule path :: steps) =
      ((ofModule w (.atPath path)).run? steps).map (inProgram path (w.root path).1) := by
  rw [run?_cons, step?_openModule_ofProgram, Option.bind_some]
  exact (lone_ofModule w path).run?_inProgram hsteps

/-- A generic class with a property, alone and in a program. -/
theorem run?_openModule_generic_class :
    ∃ s, (ofModule ∅ (.atPath "app")).run? [.declare (.class "Box"), .addTypeParameters [.name "T"],
        .declare (.property (some "value")), .set .type (some ⟨.name "T", none⟩)] = some s ∧
      (s.root.get? [.entry 0, .property 0]).map Record.id = some ⟨2⟩ ∧
      (ofProgram ∅ {}).run? [.openModule "app", .declare (.class "Box"),
        .addTypeParameters [.name "T"], .declare (.property (some "value")),
        .set .type (some ⟨.name "T", none⟩)] =
        some (s.inProgram "app" (Workspace.root ∅ "app").1) ∧
      ((s.inProgram "app" (Workspace.root ∅ "app").1).root.get?
        [.module "app", .entry 0, .property 0]).map Record.id = some ⟨3⟩ := by
  obtain ⟨s, hrun, hid, hid'⟩ : ∃ s, (ofModule ∅ (.atPath "app")).run? [.declare (.class "Box"),
        .addTypeParameters [.name "T"], .declare (.property (some "value")),
        .set .type (some ⟨.name "T", none⟩)] = some s ∧
      (s.root.get? [.entry 0, .property 0]).map Record.id = some ⟨2⟩ ∧
      ((s.inProgram "app" (Workspace.root ∅ "app").1).root.get?
        [.module "app", .entry 0, .property 0]).map Record.id = some ⟨3⟩ := ⟨_, rfl, rfl, rfl⟩
  refine ⟨s, hrun, hid, ?_, hid'⟩
  rw [run?_openModule_eq_map ∅ "app" _ (by simp), hrun]
  rfl

end Session

end Declarations
