/-
  Declarations/Proofs/Scope/Binding.lean
  ======================================
  **What a binding changes in a tree of scopes.**

  Scopes share frames: a fork has the frames of the scope around it behind its own,
  a copy has the very same ones, and a binding changes one frame under everybody who
  walks through it.  A lookup walks from its scope outwards (`Scope.walk`), so what
  it finds changes for one name and for those scopes only that come to the changed
  frame before any frame that binds the name (`Workspace.Reaches`).

  `Forest` keeps all scopes that were made, by any calls in any order.  Whatever
  the calls were, `bind_effect` says what one more binding changes and what it
  answers, and that it changes nothing else.
-/
import Declarations.Proofs.Scope.Frames

namespace Declarations

/-! ## 1. Walking outwards -/

namespace Scope

variable {s parent : Scope}

/-- The scopes on a chain of frames, from the nearest outwards. -/
def onChain (modulePath : String) : List Nat → List Scope
  | [] => []
  | frame :: outer => ⟨modulePath, frame, outer⟩ :: onChain modulePath outer

/-- What a lookup walks through: the scope, its parent, the parent of that, and so on. -/
def walk (s : Scope) : List Scope := onChain s.modulePath s.chain

theorem walk_of_parent? (h : s.parent? = some parent) : s.walk = s :: parent.walk := by
  obtain ⟨modulePath, frame, outer⟩ := s
  cases outer with
  | nil => simp [parent?] at h
  | cons next outer =>
    obtain rfl := Option.some.inj h
    rfl

theorem map_frame_onChain (modulePath : String) (chain : List Nat) :
    (onChain modulePath chain).map frame = chain := by
  induction chain with
  | nil => rfl
  | cons frame outer ih => rw [onChain, List.map_cons, ih]

theorem map_frame_walk (s : Scope) : s.walk.map frame = s.chain :=
  map_frame_onChain s.modulePath s.chain

end Scope

/-! ## 2. One binding -/

namespace Workspace

variable {w : Workspace} {s x y : Scope} {name other : String} {handle : TypeHandle}

/-- Looking a name up is looking for the first scope of the walk that binds it. -/
theorem lookup_eq_findSome?_walk (w : Workspace) (x : Scope) (name : String) :
    w.lookup x name = x.walk.findSome? (w.localBinding? · name) := by
  rw [lookup, ← Scope.map_frame_walk, List.findSome?_map]
  rfl

theorem isBoundLocally_iff : w.isBoundLocally s name ↔ (w.localBinding? s name).isSome := by
  rw [isBoundLocally, localBinding?, Std.ExtTreeMap.contains_eq_isSome_getElem?]

/-- Walking from `x` outwards, the frame of `s` comes before every other frame that
    binds the name: it is that of `x`, or no nearer one binds the name. -/
def Reaches (w : Workspace) (x s : Scope) (name : String) : Prop :=
  ∃ nearer y farther, x.walk = nearer ++ y :: farther ∧ y.sameFrame s ∧
    ∀ z ∈ nearer, ¬ w.isBoundLocally z name

theorem localBinding?_bind (h : s.frame < w.frames.size) (name : String) (handle : TypeHandle)
    (y : Scope) (other : String) :
    (w.bind s name handle).2.localBinding? y other =
      if y.sameFrame s ∧ name = other then some handle else w.localBinding? y other := by
  rw [localBinding?, getElem?_bindings_bind h, localBinding?, Scope.sameFrame]
  simp [eq_comm (a := s.frame)]

theorem lookup_bind_of_reaches (h : s.frame < w.frames.size) (hreaches : w.Reaches x s name)
    (handle : TypeHandle) : (w.bind s name handle).2.lookup x name = some handle := by
  obtain ⟨nearer, y, farther, hwalk, hsame, hnearer⟩ := hreaches
  rw [lookup_eq_findSome?_walk, hwalk]
  clear hwalk
  induction nearer with
  | nil => simp [localBinding?_bind h, hsame]
  | cons z nearer ih =>
    rw [List.cons_append, List.findSome?_cons, localBinding?_bind h]
    by_cases hz : z.sameFrame s
    · simp [hz]
    · have hfree : w.localBinding? z name = none := by
        have hz := hnearer z List.mem_cons_self
        rwa [isBoundLocally_iff, Option.not_isSome_iff_eq_none] at hz
      simp only [hz, false_and, Bool.false_eq_true, if_false, hfree]
      exact ih fun z hmem => hnearer z (List.mem_cons_of_mem _ hmem)

/-- Where the walk does not reach the changed frame in time, it finds what it found. -/
theorem findSome?_bind_of_not_reaches (h : s.frame < w.frames.size) (handle : TypeHandle)
    {walk : List Scope}
    (hnot : ∀ nearer y farther, walk = nearer ++ y :: farther → y.sameFrame s →
      ∃ z ∈ nearer, w.isBoundLocally z name) :
    walk.findSome? ((w.bind s name handle).2.localBinding? · name) =
      walk.findSome? (w.localBinding? · name) := by
  induction walk with
  | nil => rfl
  | cons z walk ih =>
    have hz : ¬ z.sameFrame s := by
      intro hsame
      obtain ⟨_, hmem, -⟩ := hnot [] z walk rfl hsame
      simp at hmem
    have hhere : (w.bind s name handle).2.localBinding? z name = w.localBinding? z name := by
      simp [localBinding?_bind h, hz]
    rw [List.findSome?_cons, List.findSome?_cons, hhere]
    cases hlocal : w.localBinding? z name with
    | some found => rfl
    | none =>
      apply ih
      intro nearer y farther hwalk hsame
      obtain ⟨z', hmem, hbound⟩ := hnot (z :: nearer) y farther (by rw [hwalk]; rfl) hsame
      -- the scope in front does not bind the name
      rcases List.mem_cons.mp hmem with rfl | hmem
      · simp [isBoundLocally_iff, hlocal] at hbound
      · exact ⟨z', hmem, hbound⟩

theorem getElem?_bindings_bind_of_ne (h : other ≠ name) (handle : TypeHandle) (frame : Nat) :
    ((w.bind s name handle).2.bindings frame)[other]? = (w.bindings frame)[other]? := by
  by_cases hframe : frame = s.frame
  · subst hframe
    unfold bindings bind
    rw [Array.getElem?_modify, if_pos rfl]
    cases w.frames[s.frame]? with
    | none => rfl
    | some old => simp [Std.ExtTreeMap.getElem?_insert, h.symm]
  · rw [bindings_bind_of_ne hframe]

/-- The walk for another name finds what it found, whatever frame is changed. -/
theorem lookup_bind_of_ne (h : other ≠ name) (handle : TypeHandle) (x : Scope) :
    (w.bind s name handle).2.lookup x other = w.lookup x other := by
  rw [lookup, lookup]
  congr 1
  funext frame
  exact getElem?_bindings_bind_of_ne h handle frame

theorem lookup_bind_of_not (h : s.frame < w.frames.size) (handle : TypeHandle)
    (hnot : ¬ (other = name ∧ w.Reaches x s name)) :
    (w.bind s name handle).2.lookup x other = w.lookup x other := by
  by_cases hname : other = name
  · subst hname
    rw [lookup_eq_findSome?_walk, lookup_eq_findSome?_walk]
    apply findSome?_bind_of_not_reaches h
    intro nearer y farther hwalk hsame
    by_contra hfree
    push Not at hfree
    exact hnot ⟨rfl, nearer, y, farther, hwalk, hsame, fun z hz => by simp [hfree z hz]⟩
  · exact lookup_bind_of_ne hname handle x

/-- A binding answers with what the frame itself bound the name to. -/
theorem bind_fst (w : Workspace) (s : Scope) (name : String) (handle : TypeHandle) :
    (w.bind s name handle).1 = w.localBinding? s name := rfl

/-- A binding answers with what the name was found as, unless that was inherited. -/
theorem bind_fst_eq_some_iff {old : TypeHandle} : (w.bind s name handle).1 = some old ↔
    w.isBoundLocally s name ∧ w.lookup s name = some old := by
  rw [bind_fst, isBoundLocally_iff]
  cases hlocal : w.localBinding? s name with
  | none => simp
  | some found =>
    have hfirst : w.lookup s name = some found := by
      rw [lookup, Scope.chain, List.findSome?_cons,
        show (w.bindings s.frame)[name]? = some found from hlocal]
    simp [hfirst]

theorem localCount_bind (h : s.frame < w.frames.size) (name : String) (handle : TypeHandle) :
    (w.bind s name handle).2.localCount s =
      w.localCount s + if (w.bind s name handle).1 = none then 1 else 0 := by
  rw [localCount, bindings_bind h, if_pos rfl, Std.ExtTreeMap.size_insert, localCount, bind_fst,
    localBinding?]
  by_cases hbound : name ∈ w.bindings s.frame
  · simp [hbound]
  · simp [hbound]

end Workspace

/-! ## 3. All scopes -/

/-- A workspace and the scopes that were made in it. -/
structure Forest where
  workspace : Workspace
  scopes : List Scope

/-- What a scope can be used for. -/
inductive ScopeUse where
  | fork
  | copy                        -- another name for the same frame
  | parent                      -- a copy of the scope around, if there is one
  | bind (name : String) (handle : TypeHandle)
  | declareNominal (name : String)
  | declareTypeParameter (parameter : TypeIdentifier)
  | declareTypeParameters (parameters : List TypeIdentifier)

/-- A call on scopes, which are numbered in the order of their making. -/
inductive ScopeCall where
  | root (modulePath : String)
  | on (number : Nat) (use : ScopeUse)

namespace Forest

variable {F : Forest} {s : Scope} {name : String}

/-- No scope has been made. -/
def bare (w : Workspace) : Forest := ⟨w, []⟩

/-- The forest with one more scope. -/
def push (F : Forest) (made : Scope × Workspace) : Forest := ⟨made.2, F.scopes ++ [made.1]⟩

def use (F : Forest) (s : Scope) : ScopeUse → Forest
  | .fork => F.push (F.workspace.fork s)
  | .copy => F.push (s, F.workspace)
  | .parent =>
    match s.parent? with
    | some parent => F.push (parent, F.workspace)
    | none => F
  | .bind name handle => { F with workspace := (F.workspace.bind s name handle).2 }
  | .declareNominal name => { F with workspace := (F.workspace.declareNominal s name).2 }
  | .declareTypeParameter parameter =>
    { F with workspace := (F.workspace.declareTypeParameter s parameter).2 }
  | .declareTypeParameters parameters =>
    { F with workspace := (F.workspace.declareTypeParameters s parameters).2 }

/-- The forest after a call.  There is nothing to use under a number not given yet. -/
def apply (F : Forest) : ScopeCall → Forest
  | .root modulePath => F.push (F.workspace.root modulePath)
  | .on number use =>
    match F.scopes[number]? with
    | some s => F.use s use
    | none => F

def replay (F : Forest) (calls : List ScopeCall) : Forest := calls.foldl apply F

/-- Some calls lead to the forest. -/
def Reached (F : Forest) : Prop := ∃ w calls, F = (bare w).replay calls

/-- The frames that scopes walk through have been made. -/
def Made (F : Forest) : Prop :=
  ∀ s ∈ F.scopes, ∀ frame ∈ s.chain, frame < F.workspace.frames.size

theorem Made.push (h : F.Made) {made : Scope × Workspace}
    (hsize : F.workspace.frames.size ≤ made.2.frames.size)
    (hmade : ∀ frame ∈ made.1.chain, frame < made.2.frames.size) : (F.push made).Made := by
  intro s hs frame hframe
  rcases List.mem_append.mp hs with hold | hnew
  · exact Nat.lt_of_lt_of_le (h s hold frame hframe) hsize
  · obtain rfl := List.mem_singleton.mp hnew
    exact hmade frame hframe

theorem Made.of_size_eq (h : F.Made) {w : Workspace}
    (hsize : w.frames.size = F.workspace.frames.size) : ({ F with workspace := w } : Forest).Made := by
  intro s hs frame hframe
  exact hsize ▸ h s hs frame hframe

theorem Made.use (h : F.Made) (hs : s ∈ F.scopes) (use : ScopeUse) : (F.use s use).Made := by
  cases use with
  | fork =>
    have hsize : (F.workspace.fork s).2.frames.size = F.workspace.frames.size + 1 :=
      Array.size_push _
    apply h.push (by omega)
    intro frame hframe
    rcases List.mem_cons.mp hframe with rfl | hframe
    · exact hsize ▸ Nat.lt_succ_self _
    · exact Nat.lt_trans (h s hs frame hframe) (hsize ▸ Nat.lt_succ_self _)
  | copy => exact h.push (Nat.le_refl _) (h s hs)
  | parent =>
    rw [Forest.use]
    cases hparent : s.parent? with
    | none => exact h
    | some parent =>
      have hchain : s.chain = s.frame :: parent.chain := by
        rw [← Scope.map_frame_walk, Scope.walk_of_parent? hparent, List.map_cons,
          Scope.map_frame_walk]
      apply h.push (Nat.le_refl _)
      intro frame hframe
      exact h s hs frame (hchain ▸ List.mem_cons_of_mem _ hframe)
  | bind name handle => exact h.of_size_eq (Workspace.size_frames_bind _ _ _ _)
  | declareNominal name => exact h.of_size_eq (Workspace.size_frames_declareNominal _ _ _)
  | declareTypeParameter parameter =>
    exact h.of_size_eq (Workspace.size_frames_declareTypeParameter _ _ _)
  | declareTypeParameters parameters =>
    exact h.of_size_eq (Workspace.size_frames_declareTypeParameters _ _ _)

theorem Made.apply (h : F.Made) (call : ScopeCall) : (F.apply call).Made := by
  cases call with
  | root modulePath =>
    have hsize : (F.workspace.root modulePath).2.frames.size = F.workspace.frames.size + 1 :=
      Array.size_push _
    apply h.push (by omega)
    intro frame hframe
    obtain rfl := List.mem_singleton.mp hframe
    exact hsize ▸ Nat.lt_succ_self _
  | on number use =>
    rw [Forest.apply]
    split
    next s hs => exact h.use (List.mem_of_getElem? hs) use
    next => exact h

theorem Reached.made (h : F.Reached) : F.Made := by
  obtain ⟨w, calls, rfl⟩ := h
  induction calls using List.reverseRecOn with
  | nil => simp [replay, bare, Made]
  | append_singleton calls call ih =>
    rw [replay, List.foldl_append]
    exact ih.apply call

/-! ## 4. One binding among all scopes -/

/-- **The exact effect of a binding.**  A lookup finds the new handle if it is for
    the bound name and its walk reaches the frame before any other that binds the
    name; every other lookup finds what it found.  The answer is what the name was
    found as if the frame itself bound it, and nothing if it was only inherited or
    not bound.  The frame has one name more exactly if the answer is nothing, and no
    other frame changes. -/
theorem bind_effect (hreached : F.Reached) (hs : s ∈ F.scopes) (name : String)
    (handle : TypeHandle) :
    (∀ x other, other = name ∧ F.workspace.Reaches x s name →
      (F.workspace.bind s name handle).2.lookup x other = some handle) ∧
    (∀ x other, ¬ (other = name ∧ F.workspace.Reaches x s name) →
      (F.workspace.bind s name handle).2.lookup x other = F.workspace.lookup x other) ∧
    (∀ old, (F.workspace.bind s name handle).1 = some old ↔
      F.workspace.isBoundLocally s name ∧ F.workspace.lookup s name = some old) ∧
    ((F.workspace.bind s name handle).1 = none ↔ ¬ F.workspace.isBoundLocally s name) ∧
    (F.workspace.bind s name handle).2.localCount s = F.workspace.localCount s +
      (if (F.workspace.bind s name handle).1 = none then 1 else 0) ∧
    (∀ other, (F.workspace.bind s name handle).2.localBinding? s other =
      if other = name then some handle else F.workspace.localBinding? s other) ∧
    ∀ y : Scope, ¬ y.sameFrame s →
      (F.workspace.bind s name handle).2.bindings y.frame = F.workspace.bindings y.frame := by
  have hframe : s.frame < F.workspace.frames.size := hreached.made s hs _ List.mem_cons_self
  refine ⟨?_, ?_, fun old => Workspace.bind_fst_eq_some_iff, ?_,
    Workspace.localCount_bind hframe name handle, ?_, ?_⟩
  · rintro x other ⟨rfl, hreaches⟩
    exact Workspace.lookup_bind_of_reaches hframe hreaches handle
  · intro x other hnot
    exact Workspace.lookup_bind_of_not hframe handle hnot
  · rw [Workspace.isBoundLocally_iff, Option.not_isSome_iff_eq_none, Workspace.bind_fst]
  · intro other
    simp [Workspace.localBinding?_bind hframe, Scope.sameFrame, eq_comm (a := name)]
  · intro y hother
    rw [Workspace.bindings_bind hframe, if_neg]
    intro hsame
    exact hother (by simp [Scope.sameFrame, hsame])

/-- A name bound in a root scope after two forks, one of which has the name already:
    the other fork finds the new handle, and the first finds its own.  Nothing is
    replaced in the root; binding the name in the first fork replaces its handle, and
    binding a name there that it inherits replaces nothing. -/
theorem bind_effect_after_fork :
    ∃ F : Forest, ∃ s x y : Scope, F = (bare ∅).replay [.root "app", .on 0 .fork, .on 0 .fork,
        .on 1 (.bind "T" ⟨1, "T"⟩), .on 0 (.bind "K" ⟨3, "K"⟩)] ∧ F.scopes = [s, x, y] ∧
      (F.workspace.bind s "T" ⟨2, "T"⟩).2.lookup y "T" = some ⟨2, "T"⟩ ∧
      (F.workspace.bind s "T" ⟨2, "T"⟩).2.lookup x "T" = some ⟨1, "T"⟩ ∧
      (F.workspace.bind s "T" ⟨2, "T"⟩).1 = none ∧
      (F.workspace.bind x "T" ⟨2, "T"⟩).1 = some ⟨1, "T"⟩ ∧
      F.workspace.lookup x "K" = some ⟨3, "K"⟩ ∧
      (F.workspace.bind x "K" ⟨2, "K"⟩).1 = none := by
  obtain ⟨F, hF⟩ : ∃ F, F = (bare ∅).replay [.root "app", .on 0 .fork, .on 0 .fork,
      .on 1 (.bind "T" ⟨1, "T"⟩), .on 0 (.bind "K" ⟨3, "K"⟩)] := ⟨_, rfl⟩
  have hreached : F.Reached := ⟨∅, _, hF⟩
  have hscopes : F.scopes = [⟨"app", 0, []⟩, ⟨"app", 1, [0]⟩, ⟨"app", 2, [0]⟩] := by
    rw [hF]
    rfl
  have hroot : ⟨"app", 0, []⟩ ∈ F.scopes := by simp [hscopes]
  have hfork : ⟨"app", 1, [0]⟩ ∈ F.scopes := by simp [hscopes]
  obtain ⟨hfound, hkept, -, hnone, -⟩ := bind_effect hreached hroot "T" ⟨2, "T"⟩
  refine ⟨F, ⟨"app", 0, []⟩, ⟨"app", 1, [0]⟩, ⟨"app", 2, [0]⟩, hF, hscopes, ?_, ?_,
    hnone.mpr ?_, ((bind_effect hreached hfork "T" ⟨2, "T"⟩).2.2.1 _).mpr ⟨?_, ?_⟩, ?_,
    (bind_effect hreached hfork "K" ⟨2, "K"⟩).2.2.2.1.mpr ?_⟩
  · apply hfound
    refine ⟨rfl, [⟨"app", 2, [0]⟩], ⟨"app", 0, []⟩, [], rfl, rfl, ?_⟩
    intro z hz
    obtain rfl := List.mem_singleton.mp hz
    subst hF
    exact Bool.false_ne_true
  · rw [hkept]
    · subst hF
      rfl
    · rintro ⟨-, nearer, y, farther, hwalk, hsame, hnearer⟩
      rcases nearer with _ | ⟨z, nearer⟩
      · obtain rfl := (List.cons.inj hwalk).1
        cases hsame
      · obtain rfl := (List.cons.inj hwalk).1
        subst hF
        exact hnearer _ List.mem_cons_self rfl
  all_goals subst hF
  · exact Bool.false_ne_true
  · rfl
  · rfl
  · rfl
  · exact Bool.false_ne_true

end Forest

end Declarations
