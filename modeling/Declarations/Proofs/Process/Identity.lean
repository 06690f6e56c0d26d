/-
  Declarations/Proofs/Process/Identity.lean
  =========================================
  **The number of a handle says which type it is.**

  `==` on handles compares their numbers, and so does `==` on all that holds handles.
  This is right only if a number stands for one mint everywhere in a process, in the
  frames and records of all its sessions and in what it keeps for itself.

  It does (`identified_of_run?`).  Every mint has a larger number than those before it,
  and a handle that is held anywhere is one that a mint gave, with its display name: every
  call keeps it so (`Sound.of_call?`), since it only passes on what is held already or what it
  has just minted.  Two entries of modules have handles of different mints, and `==` on
  references and records tells apart what is different in any way.
-/
import Declarations.Proofs.Process.Calls
import Declarations.Proofs.Record.Equality
import Declarations.Proofs.Session.Effects

namespace Declarations

namespace Process

variable {p p' q : Process} {call : Call} {calls first rest : List Call} {h k : TypeHandle}
variable {position position' number number' : Nat} {d e : Declaration} {s s' t t' : Session}
variable {r r' : Record} {log : List TypeHandle}

/-! ## 1. All that is held has been minted -/

/-- The handles that a process has anywhere come from mints. -/
structure Sound (p : Process) : Prop where
  hand : ∀ h ∈ p.hand, p.workspace.Minted h
  workspace : p.workspace.Sound
  sessions : ∀ s ∈ p.sessions, ∀ h ∈ s.root.handles, p.workspace.Minted h

theorem Sound.minted (hsound : p.Sound) (hheld : p.Holds h) : p.workspace.Minted h := by
  rcases hheld with hmem | hbound | ⟨s, hs, hmem⟩
  · exact hsound.hand h hmem
  · exact hsound.workspace h hbound
  · exact hsound.sessions s hs h hmem

theorem Sound.session (hsound : p.Sound) (hsession : p.session? number = some s) : s.Sound := by
  obtain ⟨known, hknown, rfl⟩ := exists_of_session? hsession
  exact ⟨hsound.workspace, hsound.sessions known hknown⟩

/-- Old handles are still good, so only new ones have to be. -/
theorem Sound.of_extends (hsound : p.Sound) (hextends : p.workspace.Extends p'.workspace)
    (hworkspace : p'.workspace.Sound)
    (hhand : ∀ h ∈ p'.hand, h ∈ p.hand ∨ p'.workspace.Minted h)
    (hsessions : ∀ s ∈ p'.sessions, s ∈ p.sessions ∨
      ∀ h ∈ s.root.handles, p'.workspace.Minted h) : p'.Sound where
  hand := fun h hmem =>
    (hhand h hmem).elim (fun hold => (hsound.hand h hold).of_extends hextends) id
  workspace := hworkspace
  sessions := fun s hs => (hsessions s hs).elim
    (fun hold h hmem => (hsound.sessions s hold h hmem).of_extends hextends) id

theorem Sound.start (hsound : p.Sound) (hextends : p.workspace.Extends s.workspace)
    (hs : s.Sound) : (p.start s).Sound := by
  refine hsound.of_extends hextends hs.workspace (fun h => Or.inl) fun t ht => ?_
  rcases List.mem_append.mp ht with ht | ht
  · exact Or.inl ht
  · obtain rfl := List.mem_singleton.mp ht
    exact Or.inr hs.root

/-- **A call that is given what is held adds only handles from mints.** -/
theorem Sound.of_call? (hsound : p.Sound) (hheld : ∀ h ∈ call.handles, p.Holds h)
    (hcall : p.call? call = some p') : p'.Sound := by
  have hextends := extends_of_call? hcall
  have hgiven : ∀ h ∈ call.handles, p.workspace.Minted h := fun h hmem =>
    hsound.minted (hheld h hmem)
  cases call with
  | mint display =>
    obtain rfl := Option.some.inj hcall
    refine hsound.of_extends hextends (hsound.workspace.mint display) ?_ fun s => Or.inl
    intro h hmem
    rcases List.mem_cons.mp hmem with rfl | hmem
    · exact Or.inr (p.workspace.minted_mint display)
    · exact Or.inl hmem
  | take h =>
    obtain rfl := Option.some.inj hcall
    refine hsound.of_extends hextends hsound.workspace ?_ fun s => Or.inl
    intro k hmem
    rcases List.mem_cons.mp hmem with rfl | hmem
    · exact Or.inr (hgiven k List.mem_cons_self)
    · exact Or.inl hmem
  | newScope path =>
    obtain rfl := Option.some.inj hcall
    exact hsound.of_extends hextends (hsound.workspace.root path) (fun h => Or.inl) fun s => Or.inl
  | fork scope =>
    obtain rfl := Option.some.inj hcall
    exact hsound.of_extends hextends (hsound.workspace.fork scope) (fun h => Or.inl) fun s => Or.inl
  | bind scope name h =>
    obtain rfl := Option.some.inj hcall
    have hworkspace := hsound.workspace.bind (hgiven h List.mem_cons_self) scope name
    refine hsound.of_extends hextends hworkspace ?_ fun s => Or.inl
    intro k hmem
    rcases List.mem_append.mp hmem with hmem | hmem
    · -- what was replaced was bound in the frame
      have hbound : p.workspace.Bound k := ⟨scope.frame, name, Option.mem_toList.mp hmem⟩
      exact Or.inr ((hsound.workspace k hbound).of_extends hextends)
    · exact Or.inl hmem
  | declareNominal scope name =>
    obtain rfl := Option.some.inj hcall
    refine hsound.of_extends hextends (hsound.workspace.declareNominal scope name) ?_ fun s => Or.inl
    intro h hmem
    rcases List.mem_cons.mp hmem with rfl | hmem
    · exact Or.inr ((p.workspace.minted_mint _).of_extends (Workspace.extends_bind _ _ _ _))
    · exact Or.inl hmem
  | declareTypeParameters scope parameters =>
    obtain rfl := Option.some.inj hcall
    obtain ⟨hworkspace, hminted⟩ := hsound.workspace.declareTypeParameters
      (fun parameter hmem h hh => hgiven h (List.mem_filterMap.mpr ⟨parameter, hmem, hh⟩)) scope
    refine hsound.of_extends hextends hworkspace ?_ fun s => Or.inl
    exact fun h hmem => ((List.mem_append.mp hmem).imp_left (hminted h)).symm
  | beginProgram program =>
    obtain rfl := Option.some.inj hcall
    exact hsound.start hextends ⟨hsound.workspace, hgiven⟩
  | beginModule m =>
    obtain rfl := Option.some.inj hcall
    exact hsound.start hextends ⟨hsound.workspace.root m.path, hgiven⟩
  | act number step =>
    obtain ⟨s, s', hs, hadvance, rfl⟩ := exists_of_act hcall
    have hsession := hsound.session hs
    obtain ⟨known, -, rfl⟩ := exists_of_session? hs
    have hsound' := hadvance.sound hsession hgiven
    refine hsound.of_extends hextends hsound'.workspace (fun h => Or.inl) fun t ht => ?_
    rcases List.mem_or_eq_of_mem_set ht with ht | rfl
    · exact Or.inl ht
    · exact Or.inr hsound'.root

theorem sound_empty : (∅ : Process).Sound where
  hand := List.forall_mem_nil _
  workspace := by
    rintro h ⟨frame, name, hbound⟩
    change (∅ : Bindings)[name]? = some h at hbound
    rw [Std.ExtTreeMap.getElem?_empty] at hbound
    cases hbound
  sessions := List.forall_mem_nil _

theorem Sound.run (hsound : p.Sound) (hheld : p.UsesHeld calls) (hrun : p.run? calls = some p') :
    p'.Sound := by
  induction calls generalizing p with
  | nil =>
    obtain rfl := Option.some.inj hrun
    exact hsound
  | cons call calls ih =>
    rw [run?_cons] at hrun
    obtain ⟨next, hnext, hrest⟩ := Option.bind_eq_some_iff.mp hrun
    exact ih (hsound.of_call? hheld.1 hnext) (hheld.2 next hnext) hrest

/-! ## 2. Entries -/

/-- The record at a place of a session. -/
def record? (p : Process) (number : Nat) (place : Place) : Option Record :=
  (p.session? number).bind (·.record? place)

/-- The call at a position of a run declares a class or interface, which takes a session
    from one state to another. -/
structure MakesEntry (calls : List Call) (position number : Nat) (d : Declaration)
    (s s' : Session) : Prop where
  sort : d.kind = .class ∨ d.kind = .interface
  call : calls[position]? = some (.act number (.declare d))
  before : ∃ p, (∅ : Process).run? (calls.take position) = some p ∧ p.session? number = some s
  after : s.step? (.declare d) = some s'

/-- The process before such a call, and the process after it. -/
theorem MakesEntry.exists_run? (hentry : MakesEntry calls position number d s s')
    (hrun : (∅ : Process).run? calls = some p) :
    ∃ q q', (∅ : Process).run? (calls.take position) = some q ∧ q.workspace = s.workspace ∧
      (∅ : Process).run? (calls.take (position + 1)) = some q' ∧ q'.session? number = some s' ∧
      q'.run? (calls.drop (position + 1)) = some p := by
  obtain ⟨q, hq, hsession⟩ := hentry.before
  obtain ⟨q₀, q', hq₀, hcall, hq', hrest⟩ := exists_run?_of_getElem? hentry.call hrun
  obtain rfl := Option.some.inj (hq.symm.trans hq₀)
  obtain ⟨s₀, s₁, hs₀, hadvance, rfl⟩ := exists_of_act hcall
  obtain rfl := Option.some.inj (hsession.symm.trans hs₀)
  obtain rfl := Option.some.inj (hentry.after.symm.trans (Session.step?_of_advance hadvance))
  refine ⟨q, _, hq, ?_, hq', session?_set hsession, hrest⟩
  obtain ⟨known, -, rfl⟩ := exists_of_session? hsession
  rfl

theorem MakesEntry.opensScope (hentry : MakesEntry calls position number d s s') :
    d.kind.opensScope := by
  rcases hentry.sort with hkind | hkind <;> rw [hkind] <;> rfl

/-- A class or interface is declared under its name, unless that is empty. -/
theorem MakesEntry.exists_name (hentry : MakesEntry calls position number d s s') :
    ∃ name, (d = .class name ∨ d = .interface name) ∧
      d.typeName? = if name = "" then none else some name := by
  cases d with
  | «class» name => exact ⟨name, Or.inl rfl, by simp [Declaration.typeName?]⟩
  | interface name => exact ⟨name, Or.inr rfl, by simp [Declaration.typeName?]⟩
  | _ => rcases hentry.sort with hkind | hkind <;> cases hkind

/-- An entry is made with the handle of the next mint, or without one. -/
theorem MakesEntry.exists_declared (hentry : MakesEntry calls position number d s s') :
    ∃ draft rest r, s.drafts = draft :: rest ∧ s'.root.get? s'.target = some r ∧
      r.kind = d.kind ∧ r.outline.handle? = d.typeName?.map fun name =>
        ⟨s.workspace.minted.size + 1, draft.scope.modulePath ++ "::" ++ name⟩ := by
  obtain ⟨draft, rest, id, hdrafts, -, hget⟩ :=
    (Session.advance_of_step? hentry.after).exists_declared hentry.opensScope
  rw [Session.declareType_eq] at hget
  refine ⟨draft, rest, _, hdrafts, hget, by simp, ?_⟩
  exact Record.handleAt?_withId_bare (fun hname => by rw [hname, Option.map_none]) id none

/-- It is still there at the end of the run. -/
theorem MakesEntry.exists_outline_eq (hentry : MakesEntry calls position number d s s')
    (hrun : (∅ : Process).run? calls = some p) (hget : s'.root.get? s'.target = some r) :
    ∃ r', p.record? number s'.target = some r' ∧ r'.outline = r.outline := by
  obtain ⟨q, q', -, -, -, hsession, hrest⟩ := hentry.exists_run? hrun
  obtain ⟨final, r', hfinal, hget', houtline⟩ := exists_outline_eq_of_run? hrest hsession hget
  exact ⟨r', by rw [record?, hfinal, Option.bind_some, Session.record?, hget'], houtline⟩

/-- Its handle has a larger number than those of all entries made before. -/
theorem MakesEntry.id_lt (hentry : MakesEntry calls position number d s s')
    (hentry' : MakesEntry calls position' number' e t t') (hlt : position < position')
    (hheld : (∅ : Process).UsesHeld calls) (hrun : (∅ : Process).run? calls = some p)
    (hr : p.record? number s'.target = some r) (hh : r.outline.handle? = some h)
    (hr' : p.record? number' t'.target = some r') (hk : r'.outline.handle? = some k) :
    h.id < k.id := by
  -- right after the first call its handle is held, and so it has been minted
  obtain ⟨q, q', -, -, hq', hsession, -⟩ := hentry.exists_run? hrun
  have hsound : q'.Sound := by
    rw [← List.take_append_drop (position + 1) calls] at hheld
    exact sound_empty.run hheld.of_append hq'
  have hminted : q'.workspace.Minted h := by
    obtain ⟨draft, rest, made, -, hget, -, -⟩ := hentry.exists_declared
    obtain ⟨final, hfinal, houtline⟩ := hentry.exists_outline_eq hrun hget
    obtain rfl := Option.some.inj (hr.symm.trans hfinal)
    have hown : h ∈ made.ownHandles :=
      List.mem_append_left _ (List.mem_append_left _ (by rw [← houtline, hh]; simp))
    have hsound' := (hsound.session hsession).root h (Record.mem_handles_of_get? hget hown)
    obtain ⟨known, -, rfl⟩ := exists_of_session? hsession
    exact hsound'
  -- the second call mints its handle later
  obtain ⟨v, v', hv, hworkspace, -, -, -⟩ := hentry'.exists_run? hrun
  have hextends : q'.workspace.Extends v.workspace := by
    rw [← List.take_append_drop (position + 1) (calls.take position'), List.take_take,
      Nat.min_eq_left hlt, run?_append, hq', Option.bind_some] at hv
    exact extends_of_run? hv
  have hnext : k.id = v.workspace.minted.size + 1 := by
    obtain ⟨draft, rest, made, -, hget, -, hhandle⟩ := hentry'.exists_declared
    obtain ⟨final, hfinal, houtline⟩ := hentry'.exists_outline_eq hrun hget
    obtain rfl := Option.some.inj (hr'.symm.trans hfinal)
    rw [houtline, hhandle] at hk
    obtain ⟨name, -, rfl⟩ := Option.map_eq_some_iff.mp hk
    rw [hworkspace]
  rw [hnext]
  exact Nat.lt_succ_of_le (hminted.id_le.trans hextends.size_le)

/-! ## 3. Identity -/

/-- What the handles in a process say, after calls that minted those of the log. -/
structure Identified (calls : List Call) (log : List TypeHandle) (p : Process) : Prop where
  -- the handles of all mints in order; later ones have larger numbers
  mints : (∅ : Workspace).Mints log p.workspace
  increasing : log.Pairwise fun h k => h.id < k.id
  earlier {first : List Call} {q : Process} : first <+: calls →
    (∅ : Process).run? first = some q → ∃ old, old <+: log ∧ (∅ : Workspace).Mints old q.workspace
  -- every handle that is held is one of them, and its number says which
  minted {h : TypeHandle} : p.Holds h → h ∈ log
  coherent : Coherent p.Holds
  -- a class or interface has a handle that is shown under its path, if it has a name, and
  -- with the empty name it has none
  entry {position number : Nat} {d : Declaration} {s s' : Session} :
    MakesEntry calls position number d s s' → ∃ draft rest r, s.drafts = draft :: rest ∧
      p.record? number s'.target = some r ∧ r.kind = d.kind ∧
      r.outline.handle?.map TypeHandle.display =
        (d.typeName?.map fun name => draft.scope.modulePath ++ "::" ++ name) ∧
      ∃ name, (d = .class name ∨ d = .interface name) ∧
        (name = "" → r.outline.handle? = none) ∧
        (name ≠ "" → ∃ h, r.outline.handle? = some h ∧
          h.display = draft.scope.modulePath ++ "::" ++ name)
  -- no other class or interface has this handle
  apart {position position' number number' : Nat} {d e : Declaration} {s s' t t' : Session}
    {r r' : Record} {h k : TypeHandle} : MakesEntry calls position number d s s' →
    MakesEntry calls position' number' e t t' → position ≠ position' →
    p.record? number s'.target = some r → r.outline.handle? = some h →
    p.record? number' t'.target = some r' → r'.outline.handle? = some k → h.id ≠ k.id
  -- so of all that has no other handles, equal values are the same
  reference {a b : TypeReference} : (∀ h ∈ a.handles, p.Holds h) → (∀ h ∈ b.handles, p.Holds h) →
    ((a == b) = true ↔ a = b)
  record {a b : Record} : (∀ h ∈ a.handles, p.Holds h) → (∀ h ∈ b.handles, p.Holds h) →
    ((a == b) = true ↔ a = b)
  module {a b : Module} : (∀ h ∈ a.handles, p.Holds h) → (∀ h ∈ b.handles, p.Holds h) →
    ((a == b) = true ↔ a = b)
  program {a b : Program} : (∀ h ∈ a.handles, p.Holds h) → (∀ h ∈ b.handles, p.Holds h) →
    ((a == b) = true ↔ a = b)

/-- **Handles that are held in a process have the identity of their mint.** -/
theorem identified_of_run? (hheld : (∅ : Process).UsesHeld calls)
    (hrun : (∅ : Process).run? calls = some p) : ∃ log, Identified calls log p := by
  have hsound := sound_empty.run hheld hrun
  obtain ⟨log, hmints⟩ := (extends_of_run? hrun).exists_mints
  have hcoherent : Coherent p.Holds := fun h k hh hk hid =>
    (hsound.minted hh).eq_of_id_eq (hsound.minted hk) hid
  refine ⟨log, ?_⟩
  constructor
  case mints => exact hmints
  case increasing => exact hmints.minted_and_pairwise.2
  case earlier =>
    rintro first q ⟨rest, rfl⟩ hfirst
    rw [run?_append, hfirst, Option.bind_some] at hrun
    obtain ⟨old, hold⟩ := (extends_of_run? hfirst).exists_mints
    obtain ⟨new, hnew⟩ := (extends_of_run? hrun).exists_mints
    exact ⟨old, ⟨new, (hold.trans hnew).unique hmints rfl⟩, hold⟩
  case minted => exact fun hh => hmints.mem_iff.mpr (hsound.minted hh)
  case coherent => exact hcoherent
  case entry =>
    intro position number d s s' hentry
    obtain ⟨draft, rest, made, hdrafts, hget, hkind, hhandle⟩ := hentry.exists_declared
    obtain ⟨r, hr, houtline⟩ := hentry.exists_outline_eq hrun hget
    obtain ⟨name, hd, hname⟩ := hentry.exists_name
    rw [← houtline] at hhandle
    refine ⟨draft, rest, r, hdrafts, hr, ?_, ?_, name, hd, ?_, ?_⟩
    · rw [Record.kind_eq_of_outline_eq houtline, hkind]
    · rw [hhandle, Option.map_map]
      rfl
    · intro hempty
      rw [hhandle, hname, if_pos hempty, Option.map_none]
    · intro hne
      exact ⟨_, by rw [hhandle, hname, if_neg hne, Option.map_some], rfl⟩
  case apart =>
    intro position position' number number' d e s s' t t' r r' h k hentry hentry' hne hr hh hr' hk
    rcases Nat.lt_or_gt_of_ne hne with hlt | hlt
    · exact Nat.ne_of_lt (hentry.id_lt hentry' hlt hheld hrun hr hh hr' hk)
    · exact Nat.ne_of_gt (hentry'.id_lt hentry hlt hheld hrun hr' hk hr hh)
  case reference => exact (faithful_reference hcoherent).beq_iff_eq
  case record => exact (faithful_record hcoherent).beq_iff_eq
  case module => exact (faithful_module hcoherent).beq_iff_eq
  case program => exact (faithful_program hcoherent).beq_iff_eq

/-- Types of one name in two modules, the first of which is also a type parameter of the
    second. -/
theorem identified_two_modules :
    ∃ calls p log, calls = [.beginModule (.atPath "a"), .act 0 (.declare (.class "User")),
        .beginProgram {}, .act 1 (.openModule "b"), .act 1 (.declare (.interface "User")),
        .act 1 (.addTypeParameters [.handle ⟨1, "a::User"⟩, .name "User"]), .mint "User"] ∧
      (∅ : Process).UsesHeld calls ∧ (∅ : Process).run? calls = some p ∧
      p.workspace.minted = #["a::User", "b::User", "User", "User"] ∧
      p.record? 0 [.entry 0] =
        some (.class { Class.named "User" with id := ⟨1⟩, handle := some ⟨1, "a::User"⟩ }) ∧
      p.record? 1 [.module "b", .entry 0] =
        some (.interface { Interface.named "User" with
          id := ⟨2⟩, handle := some ⟨2, "b::User"⟩
          typeParameters := some [⟨1, "a::User"⟩, ⟨3, "User"⟩] }) ∧
      Identified calls log p := by
  obtain ⟨q, hq, hmem⟩ : ∃ q : Process, (∅ : Process).run? [.beginModule (.atPath "a"),
      .act 0 (.declare (.class "User")), .beginProgram {}, .act 1 (.openModule "b"),
      .act 1 (.declare (.interface "User"))] = some q ∧
      ∃ s ∈ q.sessions, (⟨1, "a::User"⟩ : TypeHandle) ∈ s.root.handles :=
    ⟨_, rfl, _, List.mem_cons_self, List.mem_cons_self⟩
  have hheld : (∅ : Process).UsesHeld ([.beginModule (.atPath "a"),
      .act 0 (.declare (.class "User")), .beginProgram {}, .act 1 (.openModule "b"),
      .act 1 (.declare (.interface "User"))] ++
      [.act 1 (.addTypeParameters [.handle ⟨1, "a::User"⟩, .name "User"]), .mint "User"]) := by
    refine UsesHeld.append (usesHeld_of_handles_eq_nil (by decide)) fun q' hq' => ?_
    obtain rfl := Option.some.inj (hq.symm.trans hq')
    refine ⟨fun h hh => ?_, fun _ _ => usesHeld_of_handles_eq_nil (by decide)⟩
    obtain rfl := List.mem_singleton.mp hh
    exact Or.inr (Or.inr hmem)
  obtain ⟨log, hlog⟩ := identified_of_run? hheld rfl
  exact ⟨_, _, log, rfl, hheld, rfl, rfl, rfl, rfl, hlog⟩

end Process

end Declarations
