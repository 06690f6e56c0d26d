/-
  Declarations/Proofs/Scope/Frames.lean
  =====================================
  **Frames of places.**

  A scope is a chain of frames and knows nothing of records.  Here each module
  and each record that opens a scope is given a frame of its own, by the place
  where it stands (`Frames`): the frame binds what the record there declares, and
  no two places share one.  New names, new records and new scopes keep this.

  The scope of a record then consists of the frames of the places from the record
  outwards (`Fits`).  A record that opens no scope, such as a constructor, has no
  frame and lives in the scope around it.
-/
import Declarations.Scope
import Declarations.Proofs.Record.Naming
import Mathlib.Data.List.Infix

namespace Declarations

/-! ## 1. What declaring types binds -/

namespace Workspace

variable {w w' : Workspace} {scope : Scope}

theorem getElem?_bindings_bind (h : scope.frame < w.frames.size) (name : String)
    (handle : TypeHandle) (frame : Nat) (other : String) :
    ((w.bind scope name handle).2.bindings frame)[other]? =
      if scope.frame = frame ∧ name = other then some handle else (w.bindings frame)[other]? := by
  rw [bindings_bind h]
  by_cases hframe : scope.frame = frame <;> simp [hframe, Std.ExtTreeMap.getElem?_insert]

theorem size_frames_bind (w : Workspace) (scope : Scope) (name : String) (handle : TypeHandle) :
    (w.bind scope name handle).2.frames.size = w.frames.size := by
  simp [bind]

theorem getElem?_bindings_declareNominal (h : scope.frame < w.frames.size) (name : String)
    (frame : Nat) (other : String) :
    ((w.declareNominal scope name).2.bindings frame)[other]? =
      if scope.frame = frame ∧ name = other then some (w.declareNominal scope name).1
      else (w.bindings frame)[other]? :=
  getElem?_bindings_bind h name _ frame other

theorem size_frames_declareNominal (w : Workspace) (scope : Scope) (name : String) :
    (w.declareNominal scope name).2.frames.size = w.frames.size :=
  size_frames_bind _ _ _ _

theorem bindings_bind_of_ne {frame : Nat} (h : frame ≠ scope.frame) (name : String)
    (handle : TypeHandle) : (w.bind scope name handle).2.bindings frame = w.bindings frame := by
  unfold bindings bind
  rw [Array.getElem?_modify, if_neg h.symm]

theorem bindings_declareTypeParameters_of_ne {frame : Nat} (h : frame ≠ scope.frame)
    (parameters : List TypeIdentifier) :
    (w.declareTypeParameters scope parameters).2.bindings frame = w.bindings frame := by
  induction parameters generalizing w with
  | nil => rfl
  | cons parameter rest ih =>
    have hfirst : (w.declareTypeParameter scope parameter).2.bindings frame = w.bindings frame := by
      cases parameter <;> exact bindings_bind_of_ne h _ _
    exact ih.trans hfirst

theorem bindings_enter (w : Workspace) (scope : Scope) (kind : Kind) (frame : Nat) :
    (w.enter scope kind).2.bindings frame = w.bindings frame := by
  unfold enter
  split
  · exact bindings_fork w scope frame
  · rfl

theorem bindings_of_size_le {frame : Nat} (h : w.frames.size ≤ frame) : w.bindings frame = ∅ := by
  rw [bindings, Array.getElem?_eq_none h, Option.getD_none]

theorem getElem?_bindings_declareTypeParameter (h : scope.frame < w.frames.size)
    (parameter : TypeIdentifier) (frame : Nat) (name : String) :
    ((w.declareTypeParameter scope parameter).2.bindings frame)[name]? =
      if scope.frame = frame ∧ (w.declareTypeParameter scope parameter).1.display = name then
        some (w.declareTypeParameter scope parameter).1
      else (w.bindings frame)[name]? := by
  cases parameter with
  | name text => exact getElem?_bindings_bind h text _ frame name
  | handle handle => exact getElem?_bindings_bind h handle.display handle frame name

theorem size_frames_declareTypeParameter (w : Workspace) (scope : Scope)
    (parameter : TypeIdentifier) :
    (w.declareTypeParameter scope parameter).2.frames.size = w.frames.size := by
  cases parameter <;> exact size_frames_bind _ _ _ _

theorem size_frames_declareTypeParameters (w : Workspace) (scope : Scope)
    (parameters : List TypeIdentifier) :
    (w.declareTypeParameters scope parameters).2.frames.size = w.frames.size := by
  induction parameters generalizing w with
  | nil => rfl
  | cons parameter rest ih =>
    rw [← size_frames_declareTypeParameter w scope parameter]
    exact ih _

/-- Of several type parameters with one name the last is found. -/
theorem getElem?_bindings_declareTypeParameters (h : scope.frame < w.frames.size)
    (parameters : List TypeIdentifier) (frame : Nat) (name : String) :
    ((w.declareTypeParameters scope parameters).2.bindings frame)[name]? =
      if scope.frame = frame then
        ((w.declareTypeParameters scope parameters).1.reverse.find? (·.display = name)).or
          (w.bindings frame)[name]?
      else (w.bindings frame)[name]? := by
  induction parameters generalizing w with
  | nil => simp [declareTypeParameters]
  | cons parameter rest ih =>
    have hrest := ih (w := (w.declareTypeParameter scope parameter).2)
      (by rwa [size_frames_declareTypeParameter])
    rw [getElem?_bindings_declareTypeParameter h] at hrest
    rw [declareTypeParameters]
    simp only [hrest, List.reverse_cons, List.find?_append, List.find?_singleton]
    by_cases hframe : scope.frame = frame
    · by_cases hname : (w.declareTypeParameter scope parameter).1.display = name <;>
        simp [hframe, hname]
    · simp [hframe]

end Workspace

/-! ## 2. Places and their frames -/

/-- A place and those of the records around it, from there outwards. -/
def outwards (place : Place) : List Place := place.inits.reverse

theorem outwards_nil : outwards [] = [[]] := rfl

theorem outwards_concat (place : Place) (slot : Slot) :
    outwards (place ++ [slot]) = (place ++ [slot]) :: outwards place := by
  simp [outwards, List.inits_append]

theorem mem_outwards {q place : Place} : q ∈ outwards place ↔ q <+: place := by
  rw [outwards, List.mem_reverse, List.mem_inits]

theorem exists_outwards_eq_cons (place : Place) : ∃ rest, outwards place = place :: rest := by
  rcases place.eq_nil_or_concat with rfl | ⟨above, slot, rfl⟩
  · exact ⟨[], rfl⟩
  · exact ⟨outwards above, by rw [List.concat_eq_append, outwards_concat]⟩

/-- The labels of the records at all places of a root. -/
abbrev Labels := Place → Option Record.Label

namespace Labels

variable {labels : Labels} {place q : Place} {old new label : Record.Label}

theorem exists_update_eq_some (h : labels q = some label) :
    ∃ label', Function.update labels place (some new) q = some label' := by
  by_cases hplace : q = place
  · exact ⟨new, by rw [hplace, Function.update_self]⟩
  · exact ⟨label, by rw [Function.update_of_ne hplace, h]⟩

theorem exists_eq_some_of_update (hold : labels place = some old)
    (h : Function.update labels place (some new) q = some label) :
    ∃ label', labels q = some label' := by
  rcases Place.update_eq_some_iff.mp h with ⟨rfl, -⟩ | ⟨-, h⟩
  · exact ⟨old, hold⟩
  · exact ⟨label, h⟩

theorem ne_of_eq_some (hnone : labels place = none) (h : labels q = some label) : q ≠ place := by
  rintro rfl
  exact absurd (h.symm.trans hnone) (by simp)

end Labels

/-- Each module and each record that opens a scope has a frame of its own, in
    which it is bound what the record declares. -/
structure Frames (labels : Labels) (frames : Place → Option Nat) (w : Workspace) : Prop where
  -- a frame has been made
  made {q : Place} {frame : Nat} : frames q = some frame → frame < w.frames.size
  -- a frame is that of a record
  present {q : Place} {frame : Nat} : frames q = some frame → ∃ label, labels q = some label
  -- the records with a frame are modules and what opens a scope
  isSome_iff {q : Place} {label : Record.Label} : labels q = some label →
    ((frames q).isSome ↔ label.kind = .module ∨ label.kind.opensScope)
  -- a frame binds what its record declares
  names {q : Place} {label : Record.Label} {frame : Nat} : labels q = some label →
    frames q = some frame → ∀ name : String, (w.bindings frame)[name]? = label.names name
  -- no two records share a frame
  distinct {p q : Place} {frame : Nat} : frames p = some frame → frames q = some frame → p = q

namespace Frames

variable {labels : Labels} {frames : Place → Option Nat} {w w' : Workspace} {place : Place}
variable {frame : Nat} {label : Record.Label} {kind : Kind} {names : String → Option TypeHandle}

theorem empty (w : Workspace) : Frames (fun _ => none) (fun _ => none) w := by
  constructor <;> simp

/-- New names in one frame, declared by its record. -/
theorem rebind (h : Frames labels frames w) (hlabel : labels place = some label)
    (hframe : frames place = some frame) (hsize : w'.frames.size = w.frames.size)
    (hothers : ∀ other, other ≠ frame → ∀ name : String,
      (w'.bindings other)[name]? = (w.bindings other)[name]?)
    (hnames : ∀ name : String, (w'.bindings frame)[name]? = names name) :
    Frames (Function.update labels place (some ⟨label.kind, names⟩)) frames w' := by
  constructor
  case made => exact fun hq => hsize ▸ h.made hq
  case present =>
    intro q other hq
    obtain ⟨label', hlabel'⟩ := h.present hq
    exact Labels.exists_update_eq_some hlabel'
  case isSome_iff =>
    intro q label' hq
    rcases Place.update_eq_some_iff.mp hq with ⟨rfl, rfl⟩ | ⟨-, hq⟩
    · have hsame := h.isSome_iff hlabel
      exact hsame
    · exact h.isSome_iff hq
  case names =>
    intro q label' other hq hother name
    rcases Place.update_eq_some_iff.mp hq with ⟨rfl, rfl⟩ | ⟨hplace, hq⟩
    · obtain rfl : frame = other := Option.some.inj (hframe.symm.trans hother)
      exact hnames name
    · have hne : other ≠ frame := by
        rintro rfl
        exact hplace (h.distinct hother hframe)
      rw [hothers other hne name, h.names hq hother name]
  case distinct => exact h.distinct

theorem eq_none (h : Frames labels frames w) (hnew : labels place = none) :
    frames place = none := by
  cases hframe : frames place with
  | none => rfl
  | some frame =>
    obtain ⟨label, hlabel⟩ := h.present hframe
    exact absurd (hlabel.symm.trans hnew) (by simp)

/-- A new record without names or scope needs no frame. -/
theorem insert_plain (h : Frames labels frames w) (hnew : labels place = none)
    (hmodule : kind ≠ .module) (hscope : kind.opensScope = false) :
    Frames (Function.update labels place (some ⟨kind, fun _ => none⟩)) frames w := by
  have hnone := h.eq_none hnew
  have hne : ∀ {q frame}, frames q = some frame → q ≠ place := by
    rintro q frame hq rfl
    exact absurd (hq.symm.trans hnone) (by simp)
  constructor
  case made => exact h.made
  case present =>
    intro q frame hq
    obtain ⟨label, hlabel⟩ := h.present hq
    exact Labels.exists_update_eq_some hlabel
  case isSome_iff =>
    intro q label hq
    rcases Place.update_eq_some_iff.mp hq with ⟨rfl, rfl⟩ | ⟨-, hq⟩
    · simp [hnone, hmodule, hscope]
    · exact h.isSome_iff hq
  case names =>
    intro q label frame hq hframe
    rw [Function.update_of_ne (hne hframe)] at hq
    exact h.names hq hframe
  case distinct => exact h.distinct

/-- A new record with a scope has the new frame. -/
theorem insert_scope (h : Frames labels frames w) (hnew : labels place = none)
    (hkind : kind = .module ∨ kind.opensScope) (hsize : w'.frames.size = w.frames.size + 1)
    (hbindings : ∀ other, w'.bindings other = w.bindings other) :
    Frames (Function.update labels place (some ⟨kind, fun _ => none⟩))
      (Function.update frames place (some w.frames.size)) w' := by
  constructor
  case made =>
    intro q frame hq
    rcases Place.update_eq_some_iff.mp hq with ⟨-, rfl⟩ | ⟨-, hq⟩
    · omega
    · exact Nat.lt_of_lt_of_le (h.made hq) (by omega)
  case present =>
    intro q frame hq
    rcases Place.update_eq_some_iff.mp hq with ⟨rfl, -⟩ | ⟨-, hq⟩
    · exact ⟨_, Function.update_self _ _ _⟩
    · obtain ⟨label, hlabel⟩ := h.present hq
      exact Labels.exists_update_eq_some hlabel
  case isSome_iff =>
    intro q label hq
    rcases Place.update_eq_some_iff.mp hq with ⟨rfl, rfl⟩ | ⟨hplace, hq⟩
    · simpa using hkind
    · rw [Function.update_of_ne hplace]
      exact h.isSome_iff hq
  case names =>
    intro q label frame hq hframe name
    rw [hbindings]
    rcases Place.update_eq_some_iff.mp hq with ⟨rfl, rfl⟩ | ⟨hplace, hq⟩
    · rw [Function.update_self] at hframe
      obtain rfl := Option.some.inj hframe
      rw [Workspace.bindings_of_size_le (Nat.le_refl _)]
      simp
    · rw [Function.update_of_ne hplace] at hframe
      exact h.names hq hframe name
  case distinct =>
    intro p q frame hp hq
    rcases Place.update_eq_some_iff.mp hp with ⟨hpnew, rfl⟩ | ⟨-, hpold⟩ <;>
      rcases Place.update_eq_some_iff.mp hq with ⟨hqnew, hlast⟩ | ⟨-, hqold⟩
    · exact hpnew.trans hqnew.symm
    · exact absurd (h.made hqold) (Nat.lt_irrefl _)
    · exact absurd (h.made hpold) (by rw [hlast]; exact Nat.lt_irrefl _)
    · exact h.distinct hpold hqold

/-- Entering a new record: it has a frame of its own if it opens a scope, before
    those of the surrounding scope. -/
theorem enter (h : Frames labels frames w) (hnew : labels place = none) (hmodule : kind ≠ .module)
    {surrounding scope : Scope} (henter : w.enter surrounding kind = (scope, w')) :
    ∃ frames', Frames (Function.update labels place (some ⟨kind, fun _ => none⟩)) frames' w' ∧
      (∀ q, q ≠ place → frames' q = frames q) ∧
      scope.chain = (frames' place).toList ++ surrounding.chain := by
  unfold Workspace.enter at henter
  cases hscope : kind.opensScope with
  | true =>
    rw [if_pos hscope] at henter
    obtain ⟨rfl, rfl⟩ := Prod.mk.inj henter
    refine ⟨_, h.insert_scope hnew (Or.inr hscope) (Array.size_push _)
      (Workspace.bindings_fork w surrounding), fun q hq => Function.update_of_ne hq _ _, ?_⟩
    rw [Function.update_self]
    rfl
  | false =>
    rw [if_neg (by simp [hscope])] at henter
    obtain ⟨rfl, rfl⟩ := Prod.mk.inj henter
    exact ⟨frames, h.insert_plain hnew hmodule hscope, fun _ _ => rfl, by rw [h.eq_none hnew]; rfl⟩

end Frames

/-! ## 3. Scopes of open records -/

/-- The scope of a record at a place: the frames from there outwards. -/
def Fits (labels : Labels) (frames : Place → Option Nat) (place : Place) (scope : Scope) : Prop :=
  (∃ label, labels place = some label) ∧ scope.chain = (outwards place).filterMap frames

namespace Fits

variable {root root' : Record} {frames frames' : Place → Option Nat} {labels : Labels}
variable {place q : Place} {slot : Slot} {scope : Scope} {frame : Nat} {r : Record}

theorem exists_label (h : Fits (root.view Record.label) frames place scope)
    (hq : q ∈ outwards place) : ∃ label, root.view Record.label q = some label := by
  obtain ⟨rest, rfl⟩ := mem_outwards.mp hq
  obtain ⟨label, hlabel⟩ := h.1
  obtain ⟨r, hget, -⟩ := Record.view_eq_some_iff.mp hlabel
  obtain ⟨above, habove⟩ := Record.exists_get?_of_append hget
  exact ⟨above.label, Record.view_eq_some_iff.mpr ⟨above, habove, rfl⟩⟩

/-- New records and new frames elsewhere do not matter. -/
theorem mono (h : Fits (root.view Record.label) frames place scope)
    (hkept : ∀ q label, root.view Record.label q = some label → ∃ label', labels q = some label')
    (hframes : ∀ q label, root.view Record.label q = some label → frames' q = frames q) :
    Fits labels frames' place scope := by
  obtain ⟨label, hlabel⟩ := h.1
  refine ⟨hkept place label hlabel, ?_⟩
  rw [h.2]
  apply Eq.symm
  apply List.filterMap_congr
  intro q hq
  obtain ⟨label', hlabel'⟩ := h.exists_label hq
  exact hframes q label' hlabel'

theorem frame_eq (h : Fits labels frames place scope) (hframe : frames place = some frame) :
    scope.frame = frame := by
  obtain ⟨rest, hrest⟩ := exists_outwards_eq_cons place
  have hchain := h.2
  rw [hrest, List.filterMap_cons_some hframe] at hchain
  exact (List.cons.inj hchain).1

theorem chain_eq_of_concat (h : frames (place ++ [slot]) = none) :
    (outwards (place ++ [slot])).filterMap frames = (outwards place).filterMap frames := by
  rw [outwards_concat, List.filterMap_cons_none h]

end Fits

end Declarations
