/-
  Declarations/Proofs/Process/Calls.lean
  ======================================
  **A process: sessions, scopes and handles side by side.**

  What has been said of sessions so far was said of one.  A process has any number of
  them, and works on each whenever it likes; besides, it makes scopes of its own, binds
  names in any scope and mints handles directly.  All of this happens in one workspace
  (`Process.call?`).

  A handle cannot be made up.  A process has the handles that a call gave it and those
  that are in its frames and records (`Process.Holds`), it can keep any of them
  (`Call.take`), and it gives no others to its calls (`Process.UsesHeld`).  With scopes it
  is free: a call may name any scope, whether it was made or not.  Handles are numbered
  without a bound, so no number is given out again.
-/
import Declarations.Proofs.Session.Provenance

namespace Declarations

/-! ## 1. Calls -/

/-- All that the calls of one process share. -/
structure Process where
  workspace : Workspace
  sessions : List Session -- in the order of their beginning
  hand : List TypeHandle  -- the handles that it keeps outside of frames and records

namespace Process

instance : EmptyCollection Process := ⟨⟨∅, [], []⟩⟩

inductive Call where
  | mint (display : String)
  | take (h : TypeHandle)               -- keep a handle that is held somewhere
  | newScope (path : String)
  | fork (scope : Scope)
  | bind (scope : Scope) (name : String) (h : TypeHandle)
  | declareNominal (scope : Scope) (name : String)
  | declareTypeParameters (scope : Scope) (parameters : List TypeIdentifier)
  | beginProgram (p : Program)          -- build on a program, whatever it has already
  | beginModule (m : Module)
  | act (number : Nat) (step : Step)    -- take a step in a session

/-- The handles that a call is given. -/
def Call.handles : Call → List TypeHandle
  | .take h | .bind _ _ h => [h]
  | .declareTypeParameters _ parameters => parameters.filterMap TypeIdentifier.handle?
  | .beginProgram p => p.handles
  | .beginModule m => m.handles
  | .act _ step => step.handles
  | .mint _ | .newScope _ | .fork _ | .declareNominal _ _ => []

variable {p p' q : Process} {call : Call} {calls first rest : List Call} {number : Nat}
variable {s s' : Session} {h : TypeHandle}

/-- A session, with the workspace as it is now. -/
def session? (p : Process) (number : Nat) : Option Session :=
  p.sessions[number]?.map fun s => { s with workspace := p.workspace }

def start (p : Process) (s : Session) : Process :=
  { p with workspace := s.workspace, sessions := p.sessions ++ [s] }

/-- Make a call; `none` for a step that has no use. -/
def call? (p : Process) : Call → Option Process
  | .mint display =>
    let (h, workspace) := p.workspace.mint display
    some { p with workspace, hand := h :: p.hand }
  | .take h => some { p with hand := h :: p.hand }
  | .newScope path => some { p with workspace := (p.workspace.root path).2 }
  | .fork scope => some { p with workspace := (p.workspace.fork scope).2 }
  | .bind scope name h =>
    let (replaced, workspace) := p.workspace.bind scope name h
    some { p with workspace, hand := replaced.toList ++ p.hand }
  | .declareNominal scope name =>
    let (h, workspace) := p.workspace.declareNominal scope name
    some { p with workspace, hand := h :: p.hand }
  | .declareTypeParameters scope parameters =>
    let (handles, workspace) := p.workspace.declareTypeParameters scope parameters
    some { p with workspace, hand := handles ++ p.hand }
  | .beginProgram program => some (p.start (.ofProgram p.workspace program))
  | .beginModule m => some (p.start (.ofModule p.workspace m))
  | .act number step => (p.session? number).bind fun s => (s.step? step).map fun s =>
    { p with workspace := s.workspace, sessions := p.sessions.set number s }

/-- Make calls in order, as long as each has a use. -/
def run? (p : Process) (calls : List Call) : Option Process := calls.foldlM call? p

@[simp]
theorem run?_nil (p : Process) : p.run? [] = some p := rfl

@[simp]
theorem run?_cons (p : Process) (call : Call) (calls : List Call) :
    p.run? (call :: calls) = (p.call? call).bind (·.run? calls) := rfl

theorem run?_append (p : Process) (first rest : List Call) :
    p.run? (first ++ rest) = (p.run? first).bind (·.run? rest) := by
  simp [run?, List.foldlM_append]

/-- A run, cut in three at one of its calls. -/
theorem exists_run?_of_getElem? {position : Nat} (hcall : calls[position]? = some call)
    (hrun : p.run? calls = some p') : ∃ q q', p.run? (calls.take position) = some q ∧
      q.call? call = some q' ∧ p.run? (calls.take (position + 1)) = some q' ∧
      q'.run? (calls.drop (position + 1)) = some p' := by
  have hsplit := hrun
  rw [← List.take_append_drop position calls, run?_append] at hsplit
  obtain ⟨q, hq, hrest⟩ := Option.bind_eq_some_iff.mp hsplit
  obtain ⟨hlt, hget⟩ := List.getElem?_eq_some_iff.mp hcall
  rw [List.drop_eq_getElem_cons hlt, hget, run?_cons] at hrest
  obtain ⟨q', hq', hrest⟩ := Option.bind_eq_some_iff.mp hrest
  refine ⟨q, q', hq, hq', ?_, hrest⟩
  rw [← List.take_append_getElem hlt, hget, run?_append, hq, Option.bind_some, run?_cons, hq']
  rfl

/-! ## 2. What is held -/

/-- The process has the handle in hand, or it is in a frame or in a record. -/
def Holds (p : Process) (h : TypeHandle) : Prop :=
  h ∈ p.hand ∨ p.workspace.Bound h ∨ ∃ s ∈ p.sessions, h ∈ s.root.handles

/-- Every call is given handles that are held when it is made. -/
def UsesHeld (p : Process) : List Call → Prop
  | [] => True
  | call :: calls => (∀ h ∈ call.handles, p.Holds h) ∧
      ∀ p', p.call? call = some p' → p'.UsesHeld calls

theorem UsesHeld.of_append (hheld : p.UsesHeld (first ++ rest)) : p.UsesHeld first := by
  induction first generalizing p with
  | nil => trivial
  | cons call first ih => exact ⟨hheld.1, fun p' hcall => ih (hheld.2 p' hcall)⟩

theorem UsesHeld.append (hfirst : p.UsesHeld first)
    (hrest : ∀ q, p.run? first = some q → q.UsesHeld rest) : p.UsesHeld (first ++ rest) := by
  induction first generalizing p with
  | nil => exact hrest p rfl
  | cons call first ih =>
    refine ⟨hfirst.1, fun p' hcall => ih (hfirst.2 p' hcall) fun q hrun => hrest q ?_⟩
    rw [run?_cons, hcall, Option.bind_some, hrun]

/-- Calls that are given no handles use none that are not held. -/
theorem usesHeld_of_handles_eq_nil (h : ∀ call ∈ calls, call.handles = []) : p.UsesHeld calls := by
  induction calls generalizing p with
  | nil => trivial
  | cons call calls ih =>
    obtain ⟨hcall, hcalls⟩ := List.forall_mem_cons.mp h
    exact ⟨by simp [hcall], fun p' _ => ih hcalls⟩

/-! ## 3. What stays -/

theorem exists_of_session? (hsession : p.session? number = some s) :
    ∃ known ∈ p.sessions, s = { known with workspace := p.workspace } := by
  obtain ⟨known, hknown, rfl⟩ := Option.map_eq_some_iff.mp hsession
  exact ⟨known, List.mem_of_getElem? hknown, rfl⟩

/-- A step is taken in the session of the present workspace. -/
theorem exists_of_act {step : Step} (hcall : p.call? (.act number step) = some p') :
    ∃ s s', p.session? number = some s ∧ s.Advance step s' ∧
      p' = { p with workspace := s'.workspace, sessions := p.sessions.set number s' } := by
  obtain ⟨s, hs, hcall⟩ := Option.bind_eq_some_iff.mp hcall
  obtain ⟨s', hs', rfl⟩ := Option.map_eq_some_iff.mp hcall
  exact ⟨s, s', hs, Session.advance_of_step? hs', rfl⟩

theorem session?_set (hsession : p.session? number = some s) :
    ({ p with workspace := s'.workspace, sessions := p.sessions.set number s' } : Process).session?
      number = some s' := by
  obtain ⟨known, hknown, -⟩ := Option.map_eq_some_iff.mp hsession
  have hlt := (List.getElem?_eq_some_iff.mp hknown).1
  rw [session?, List.getElem?_set_self hlt]
  rfl

/-- A call leaves the records of a session alone, or is a step in it. -/
theorem exists_session?_of_call? (hcall : p.call? call = some p')
    (hsession : p.session? number = some s) :
    ∃ s', p'.session? number = some s' ∧ (s'.root = s.root ∨ ∃ step, s.Advance step s') := by
  obtain ⟨known, hknown, hs⟩ := Option.map_eq_some_iff.mp hsession
  have hlt := (List.getElem?_eq_some_iff.mp hknown).1
  have hkept : ∀ {p' : Process}, p'.sessions[number]? = some known →
      ∃ s', p'.session? number = some s' ∧ (s'.root = s.root ∨ ∃ step, s.Advance step s') := by
    intro p' hknown'
    exact ⟨_, by rw [session?, hknown', Option.map_some], Or.inl (by rw [← hs])⟩
  cases call with
  | act other step =>
    obtain ⟨t, t', ht, hadvance, rfl⟩ := exists_of_act hcall
    by_cases heq : other = number
    · subst heq
      obtain rfl := Option.some.inj (hsession.symm.trans ht)
      exact ⟨t', session?_set hsession, Or.inr ⟨step, hadvance⟩⟩
    · exact hkept ((List.getElem?_set_ne heq).trans hknown)
  | beginProgram | beginModule =>
    obtain rfl := Option.some.inj hcall
    exact hkept ((List.getElem?_append_left hlt).trans hknown)
  | _ =>
    obtain rfl := Option.some.inj hcall
    exact hkept hknown

/-- The minted handles stay. -/
theorem extends_of_call? (hcall : p.call? call = some p') :
    p.workspace.Extends p'.workspace := by
  cases call with
  | act number step =>
    obtain ⟨s, s', hs, hadvance, rfl⟩ := exists_of_act hcall
    obtain ⟨known, -, rfl⟩ := exists_of_session? hs
    exact hadvance.extends
  | mint display =>
    obtain rfl := Option.some.inj hcall
    exact p.workspace.extends_mint display
  | declareNominal scope name =>
    obtain rfl := Option.some.inj hcall
    exact p.workspace.extends_declareNominal scope name
  | declareTypeParameters scope parameters =>
    obtain rfl := Option.some.inj hcall
    exact p.workspace.extends_declareTypeParameters scope parameters
  | _ =>
    obtain rfl := Option.some.inj hcall
    exact Workspace.Extends.of_eq rfl

/-- What holds at the beginning and is kept by every call holds after every run. -/
theorem invariant_of_run? {I : Process → Prop} (hinit : I p)
    (hcall : ∀ {p p' call}, I p → p.call? call = some p' → I p')
    (hrun : p.run? calls = some p') : I p' := by
  induction calls generalizing p with
  | nil =>
    obtain rfl := Option.some.inj hrun
    exact hinit
  | cons call calls ih =>
    rw [run?_cons] at hrun
    obtain ⟨next, hnext, hrest⟩ := Option.bind_eq_some_iff.mp hrun
    exact ih (hcall hinit hnext) hrest

theorem extends_of_run? (hrun : p.run? calls = some p') : p.workspace.Extends p'.workspace :=
  invariant_of_run? (I := fun q => p.workspace.Extends q.workspace) (Workspace.Extends.of_eq rfl)
    (fun hextends hcall => hextends.trans (extends_of_call? hcall)) hrun

/-- A record of a session keeps its place and its outline, whatever else is done. -/
theorem exists_outline_eq_of_run? {place : Place} {r : Record} (hrun : p.run? calls = some p')
    (hsession : p.session? number = some s) (hget : s.root.get? place = some r) :
    ∃ s' r', p'.session? number = some s' ∧ s'.root.get? place = some r' ∧
      r'.outline = r.outline := by
  refine invariant_of_run? (I := fun p => ∃ s' r', p.session? number = some s' ∧
    s'.root.get? place = some r' ∧ r'.outline = r.outline) ⟨s, r, hsession, hget, rfl⟩ ?_ hrun
  rintro p p' call ⟨s, r', hsession, hget, houtline⟩ hcall
  obtain ⟨s', hsession', hroot | ⟨step, hadvance⟩⟩ := exists_session?_of_call? hcall hsession
  · exact ⟨s', r', hsession', by rw [hroot, hget], houtline⟩
  · obtain ⟨r'', hget'', houtline''⟩ := hadvance.exists_outline_eq hget
    exact ⟨s', r'', hsession', hget'', houtline''.trans houtline⟩

end Process

end Declarations
