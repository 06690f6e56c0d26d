/-
  Declarations/Proofs/Scope/Minting.lean
  ======================================
  **Where handles come from.**

  A workspace remembers the display name of every handle that was ever minted, in the
  order of minting, and a handle has the number of its mint.  So a handle says which mint
  it comes from, if its number and its display name agree with that memory
  (`Workspace.Minted`), and two such handles with one number are the same.

  The memory only grows (`Workspace.Extends`), by one mint after the other
  (`Workspace.Mints`): later ones have larger numbers, and the handles of the first
  mints on are exactly those that come from a mint.  What is bound has been minted as
  long as only such handles are given out and taken (`Workspace.Sound`).
-/
import Declarations.Proofs.Scope.Frames

namespace Declarations

namespace Workspace

variable {w w' w'' : Workspace} {scope : Scope} {h h' : TypeHandle} {name : String}
variable {parameter : TypeIdentifier} {parameters : List TypeIdentifier}

/-! ## 1. Mints -/

/-- The handle comes from the mint that has its number. -/
def Minted (w : Workspace) (h : TypeHandle) : Prop :=
  0 < h.id ∧ w.minted[h.id - 1]? = some h.display

/-- Two handles with one number come from one mint, and are shown under one name. -/
theorem Minted.eq_of_id_eq (hm : w.Minted h) (hm' : w.Minted h') (hid : h.id = h'.id) : h = h' := by
  have hdisplay : h.display = h'.display := by
    have hshown := hm.2
    rw [hid, hm'.2] at hshown
    exact (Option.some.inj hshown).symm
  cases h
  cases h'
  simp_all

theorem Minted.id_le (hm : w.Minted h) : h.id ≤ w.minted.size := by
  obtain ⟨hpos, hshown⟩ := hm
  have hlt := (Array.getElem?_eq_some_iff.mp hshown).1
  omega

/-- The workspace after more mints, or after none. -/
def Extends (w w' : Workspace) : Prop := ∃ new, w'.minted = w.minted ++ new

theorem Extends.of_eq (hminted : w'.minted = w.minted) : w.Extends w' :=
  ⟨#[], by rw [hminted, Array.append_empty]⟩

theorem Extends.trans (hfirst : w.Extends w') (hsecond : w'.Extends w'') : w.Extends w'' := by
  obtain ⟨new, hnew⟩ := hfirst
  obtain ⟨newer, hnewer⟩ := hsecond
  exact ⟨new ++ newer, by rw [hnewer, hnew, Array.append_assoc]⟩

theorem Extends.size_le (hextends : w.Extends w') : w.minted.size ≤ w'.minted.size := by
  obtain ⟨new, hnew⟩ := hextends
  rw [hnew, Array.size_append]
  exact Nat.le_add_right _ _

theorem Minted.of_extends (hm : w.Minted h) (hextends : w.Extends w') : w'.Minted h := by
  obtain ⟨new, hnew⟩ := hextends
  obtain ⟨hpos, hshown⟩ := hm
  have hlt := (Array.getElem?_eq_some_iff.mp hshown).1
  exact ⟨hpos, by rw [hnew, Array.getElem?_append_left hlt, hshown]⟩

theorem extends_mint (w : Workspace) (display : String) : w.Extends (w.mint display).2 :=
  ⟨#[display], Array.push_eq_append⟩

theorem minted_mint (w : Workspace) (display : String) :
    (w.mint display).2.Minted (w.mint display).1 :=
  ⟨Nat.succ_pos _, by simp [mint]⟩

/-- A later mint has a larger number. -/
theorem Minted.lt_mint (hm : w.Minted h) (display : String) : h.id < (w.mint display).1.id :=
  Nat.lt_succ_of_le hm.id_le

theorem Minted.of_mint {display : String} (hm : (w.mint display).2.Minted h) :
    w.Minted h ∨ h = (w.mint display).1 := by
  obtain ⟨hpos, hshown⟩ := hm
  change (w.minted.push display)[h.id - 1]? = some h.display at hshown
  rw [Array.getElem?_push] at hshown
  split at hshown
  next hlast =>
    right
    obtain ⟨id, shown⟩ := h
    obtain rfl := Option.some.inj hshown
    change id - 1 = w.minted.size at hlast
    obtain rfl : id = w.minted.size + 1 := by change 0 < id at hpos; omega
    rfl
  next => exact Or.inl ⟨hpos, hshown⟩

/-! ## 2. Mints in order -/

/-- The handles minted between two workspaces, in order. -/
inductive Mints (w : Workspace) : List TypeHandle → Workspace → Prop where
  | nothing {w' : Workspace} (hminted : w'.minted = w.minted) : Mints w [] w'
  | more {log : List TypeHandle} {w' w'' : Workspace} (display : String) (hlog : Mints w log w')
      (hminted : w''.minted = (w'.mint display).2.minted) :
      Mints w (log ++ [(w'.mint display).1]) w''

variable {log log' : List TypeHandle}

theorem Mints.size_eq (hmints : w.Mints log w') :
    w'.minted.size = w.minted.size + log.length := by
  induction hmints with
  | nothing hminted => rw [hminted, List.length_nil, Nat.add_zero]
  | more display _ hminted ih =>
    rw [hminted, List.length_append, List.length_singleton, ← Nat.add_assoc, ← ih]
    exact Array.size_push _

/-- Later mints have larger numbers, and the memory has them all. -/
theorem Mints.minted_and_pairwise (hmints : w.Mints log w') :
    (∀ h ∈ log, w'.Minted h) ∧ log.Pairwise fun h k => h.id < k.id := by
  induction hmints with
  | nothing => exact ⟨by simp, List.Pairwise.nil⟩
  | @more log w' w'' display _ hminted ih =>
    obtain ⟨hold, hpairwise⟩ := ih
    have hextends : (w'.mint display).2.Extends w'' := Extends.of_eq hminted
    constructor
    · intro h hmem
      rcases List.mem_append.mp hmem with hmem | hmem
      · exact ((hold h hmem).of_extends (w'.extends_mint display)).of_extends hextends
      · obtain rfl := List.mem_singleton.mp hmem
        exact (w'.minted_mint display).of_extends hextends
    · refine List.pairwise_append.mpr ⟨hpairwise, List.pairwise_singleton _ _, ?_⟩
      intro h hmem k hk
      obtain rfl := List.mem_singleton.mp hk
      exact (hold h hmem).lt_mint display

/-- What comes from a mint was minted before, or in between. -/
theorem Mints.mem_of_minted (hmints : w.Mints log w') (hm : w'.Minted h) :
    w.Minted h ∨ h ∈ log := by
  induction hmints with
  | nothing hminted => exact Or.inl (hm.of_extends (Extends.of_eq hminted.symm))
  | @more log w' w'' display _ hminted ih =>
    rcases (hm.of_extends (Extends.of_eq hminted.symm)).of_mint with hold | rfl
    · exact (ih hold).imp_right (List.mem_append_left _)
    · exact Or.inr (List.mem_append_right _ List.mem_cons_self)

theorem not_minted_empty : ¬ (∅ : Workspace).Minted h := by
  rintro ⟨-, hshown⟩
  cases hshown

/-- From nothing on, the handles that come from a mint are those of the list. -/
theorem Mints.mem_iff (hmints : (∅ : Workspace).Mints log w) : h ∈ log ↔ w.Minted h :=
  ⟨hmints.minted_and_pairwise.1 h,
    fun hm => (hmints.mem_of_minted hm).resolve_left not_minted_empty⟩

/-- Two workspaces with one memory have the same mints behind them. -/
theorem Mints.unique (hmints : w.Mints log w') (hmints' : w.Mints log' w'')
    (hminted : w'.minted = w''.minted) : log = log' := by
  have hlength : log.length = log'.length := by
    have hsize := hmints.size_eq
    have hsize' := hmints'.size_eq
    rw [hminted] at hsize
    omega
  induction hmints generalizing log' w'' with
  | nothing => exact (List.length_eq_zero_iff.mp hlength.symm).symm
  | @more log v v' display _ hv ih =>
    cases hmints' with
    | nothing => simp at hlength
    | @more log₀ u _ shown hrest hu =>
      rw [hv, hu] at hminted
      obtain ⟨hlast, hbefore⟩ := Array.push_eq_push.mp hminted
      rw [ih hrest hbefore (by simpa using hlength)]
      rw [mint, mint, hbefore, hlast]

theorem Mints.trans (hfirst : w.Mints log w') (hsecond : w'.Mints log' w'') :
    w.Mints (log ++ log') w'' := by
  induction hsecond with
  | nothing hminted =>
    rw [List.append_nil]
    cases hfirst with
    | nothing hfirst => exact .nothing (hminted.trans hfirst)
    | more display hlog hfirst => exact .more display hlog (hminted.trans hfirst)
  | more display _ hminted ih =>
    rw [← List.append_assoc]
    exact .more display ih hminted

/-- A memory grows by mints. -/
theorem Extends.exists_mints (hextends : w.Extends w') : ∃ log, w.Mints log w' := by
  obtain ⟨new, hnew⟩ := hextends
  obtain ⟨displays⟩ := new
  induction displays using List.reverseRecOn generalizing w' with
  | nil => exact ⟨[], .nothing (by simpa using hnew)⟩
  | append_singleton displays display ih =>
    have hbefore : ∃ log, w.Mints log { w with minted := w.minted ++ displays.toArray } := ih rfl
    obtain ⟨log, hlog⟩ := hbefore
    exact ⟨_, .more display hlog (by rw [hnew]; simp [mint])⟩

/-! ## 3. Scopes -/

theorem extends_bind (w : Workspace) (scope : Scope) (name : String) (h : TypeHandle) :
    w.Extends (w.bind scope name h).2 := Extends.of_eq rfl

theorem extends_root (w : Workspace) (modulePath : String) : w.Extends (w.root modulePath).2 :=
  Extends.of_eq rfl

theorem extends_fork (w : Workspace) (scope : Scope) : w.Extends (w.fork scope).2 :=
  Extends.of_eq rfl

theorem extends_enter (w : Workspace) (scope : Scope) (kind : Kind) :
    w.Extends (w.enter scope kind).2 := by
  unfold enter
  split <;> exact Extends.of_eq rfl

theorem extends_declareNominal (w : Workspace) (scope : Scope) (name : String) :
    w.Extends (w.declareNominal scope name).2 :=
  (w.extends_mint _).trans (extends_bind _ _ _ _)

theorem extends_declareTypeParameter (w : Workspace) (scope : Scope) (parameter : TypeIdentifier) :
    w.Extends (w.declareTypeParameter scope parameter).2 := by
  cases parameter with
  | name text => exact (w.extends_mint text).trans (extends_bind _ _ _ _)
  | handle h => exact extends_bind _ _ _ _

theorem extends_declareTypeParameters (w : Workspace) (scope : Scope)
    (parameters : List TypeIdentifier) :
    w.Extends (w.declareTypeParameters scope parameters).2 := by
  induction parameters generalizing w with
  | nil => exact Extends.of_eq rfl
  | cons parameter rest ih => exact (w.extends_declareTypeParameter scope parameter).trans (ih _)

/-! ## 4. What is bound -/

/-- A frame binds a name to the handle. -/
def Bound (w : Workspace) (h : TypeHandle) : Prop :=
  ∃ frame, ∃ name : String, (w.bindings frame)[name]? = some h

/-- All handles that frames bind have been minted. -/
def Sound (w : Workspace) : Prop := ∀ h, w.Bound h → w.Minted h

theorem bound_of_lookup (hlookup : w.lookup scope name = some h) : w.Bound h := by
  obtain ⟨frame, -, hframe⟩ := List.exists_of_findSome?_eq_some hlookup
  exact ⟨frame, name, hframe⟩

/-- What is bound after a binding was bound before, or is the handle that was given. -/
theorem bound_of_bound_bind (hbound : (w.bind scope name h).2.Bound h') : w.Bound h' ∨ h' = h := by
  obtain ⟨frame, other, hframe⟩ := hbound
  by_cases hne : frame = scope.frame
  · subst hne
    unfold bindings bind at hframe
    rw [Array.getElem?_modify, if_pos rfl] at hframe
    cases hold : w.frames[scope.frame]? with
    | none => simp [hold] at hframe
    | some old =>
      simp only [hold, Option.map_some, Option.getD_some, Std.ExtTreeMap.getElem?_insert] at hframe
      split at hframe
      · exact Or.inr (Option.some.inj hframe).symm
      · exact Or.inl ⟨scope.frame, other, by rw [bindings, hold, Option.getD_some, hframe]⟩
  · rw [bindings_bind_of_ne hne] at hframe
    exact Or.inl ⟨frame, other, hframe⟩

theorem Sound.of_bindings_eq (hsound : w.Sound) (hextends : w.Extends w')
    (hbindings : ∀ frame, w'.bindings frame = w.bindings frame) : w'.Sound := by
  rintro h ⟨frame, name, hframe⟩
  rw [hbindings] at hframe
  exact (hsound h ⟨frame, name, hframe⟩).of_extends hextends

theorem Sound.root (hsound : w.Sound) (modulePath : String) : (w.root modulePath).2.Sound :=
  hsound.of_bindings_eq (w.extends_root modulePath) (w.bindings_root modulePath)

theorem Sound.fork (hsound : w.Sound) (scope : Scope) : (w.fork scope).2.Sound :=
  hsound.of_bindings_eq (w.extends_fork scope) (w.bindings_fork scope)

theorem Sound.enter (hsound : w.Sound) (scope : Scope) (kind : Kind) :
    (w.enter scope kind).2.Sound :=
  hsound.of_bindings_eq (w.extends_enter scope kind) (w.bindings_enter scope kind)

theorem Sound.mint (hsound : w.Sound) (display : String) : (w.mint display).2.Sound :=
  hsound.of_bindings_eq (w.extends_mint display) fun _ => rfl

theorem Sound.bind (hsound : w.Sound) (hm : w.Minted h) (scope : Scope) (name : String) :
    (w.bind scope name h).2.Sound := by
  intro h' hbound
  rcases bound_of_bound_bind hbound with hold | rfl
  · exact (hsound h' hold).of_extends (extends_bind w scope name h)
  · exact hm.of_extends (extends_bind w scope name h')

theorem Sound.declareNominal (hsound : w.Sound) (scope : Scope) (name : String) :
    (w.declareNominal scope name).2.Sound :=
  (hsound.mint _).bind (w.minted_mint _) scope name

/-- A type parameter has a new handle or the one that was given. -/
theorem minted_declareTypeParameter (hgiven : ∀ h, parameter.handle? = some h → w.Minted h)
    (scope : Scope) :
    (w.declareTypeParameter scope parameter).2.Minted (w.declareTypeParameter scope parameter).1 := by
  cases parameter with
  | name text => exact (w.minted_mint text).of_extends (extends_bind _ _ _ _)
  | handle h => exact (hgiven h rfl).of_extends (extends_bind _ _ _ _)

theorem Sound.declareTypeParameter (hsound : w.Sound)
    (hgiven : ∀ h, parameter.handle? = some h → w.Minted h) (scope : Scope) :
    (w.declareTypeParameter scope parameter).2.Sound := by
  cases parameter with
  | name text => exact (hsound.mint text).bind (w.minted_mint text) scope text
  | handle h => exact hsound.bind (hgiven h rfl) scope h.display

theorem Sound.declareTypeParameters (hsound : w.Sound)
    (hgiven : ∀ parameter ∈ parameters, ∀ h, parameter.handle? = some h → w.Minted h)
    (scope : Scope) :
    (w.declareTypeParameters scope parameters).2.Sound ∧
      ∀ h ∈ (w.declareTypeParameters scope parameters).1,
        (w.declareTypeParameters scope parameters).2.Minted h := by
  induction parameters generalizing w with
  | nil => exact ⟨hsound, by simp [Workspace.declareTypeParameters]⟩
  | cons parameter rest ih =>
    obtain ⟨hfirst, hrest⟩ := List.forall_mem_cons.mp hgiven
    have hextends := w.extends_declareTypeParameter scope parameter
    obtain ⟨hsound', hhandles⟩ := ih (hsound.declareTypeParameter hfirst scope)
      fun p hp h hh => (hrest p hp h hh).of_extends hextends
    refine ⟨hsound', ?_⟩
    intro h hmem
    rcases List.mem_cons.mp hmem with rfl | hmem
    · exact (minted_declareTypeParameter hfirst scope).of_extends
        (extends_declareTypeParameters _ scope rest)
    · exact hhandles h hmem

end Workspace

end Declarations
