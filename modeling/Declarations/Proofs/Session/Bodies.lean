/-
  Declarations/Proofs/Session/Bodies.lean
  =======================================
  **What is done inside a record.**

  A body is a list of steps that are taken while a record is open and leave it open: it
  closes no more than it has declared and opens no module (`depthAfter?`).  All of its
  steps work in the record or below it (`InsideOf.advance`), and what they do is seen
  there and nowhere else (`InsideOf.of_body`).
-/
import Declarations.Proofs.Scope.Minting
import Declarations.Proofs.Session.Lockstep

namespace Declarations

/-! ## 1. Depth -/

/-- How many declarations are open after a step, if it stays in a body. -/
def Step.depthAfter? : Step → Nat → Option Nat
  | .declare _, depth => some (depth + 1)
  | .close, depth => if depth = 0 then none else some (depth - 1)
  | .openModule _, _ => none
  | _, depth => some depth

/-- How many declarations are open after steps that stay in a body. -/
def depthAfter? (steps : List Step) (depth : Nat) : Option Nat :=
  steps.foldlM (fun depth step => step.depthAfter? depth) depth

theorem depthAfter?_cons (step : Step) (steps : List Step) (depth : Nat) :
    depthAfter? (step :: steps) depth = (step.depthAfter? depth).bind (depthAfter? steps) := rfl

theorem depthAfter?_append (first second : List Step) (depth : Nat) :
    depthAfter? (first ++ second) depth = (depthAfter? first depth).bind (depthAfter? second) :=
  List.foldlM_append

namespace Session

variable {α : Type} {f : Record → α} {s s' : Session} {step : Step} {body : List Step}
variable {base : Place × String} {outer : List (Place × String)} {place q : Place}
variable {depth depth' : Nat} {draft : Draft} {rest : List Draft}

/-! ## 2. Inside a record -/

/-- The record at the base is open, and so are as many declarations in it; `outer` was
    open before. -/
def InsideOf (base : Place × String) (outer : List (Place × String)) (depth : Nat) (s : Session) :
    Prop :=
  ∃ inner, s.drafts.map Draft.address = inner ++ base :: outer ∧ inner.length = depth ∧
    ∀ address ∈ inner, base.1 <+: address.1

theorem InsideOf.exists_draft (h : InsideOf base outer depth s) :
    ∃ draft rest, s.drafts = draft :: rest ∧ base.1 <+: draft.place := by
  obtain ⟨inner, haddresses, -, hwithin⟩ := h
  cases inner with
  | nil =>
    obtain ⟨draft, rest, hdrafts, hdraft, -⟩ := List.map_eq_cons_iff.mp haddresses
    exact ⟨draft, rest, hdrafts, by rw [← hdraft]; exact List.prefix_rfl⟩
  | cons address inner =>
    obtain ⟨draft, rest, hdrafts, hdraft, -⟩ := List.map_eq_cons_iff.mp haddresses
    have hfirst := hwithin address List.mem_cons_self
    rw [← hdraft] at hfirst
    exact ⟨draft, rest, hdrafts, hfirst⟩

/-- What is declared below a record belongs there, if the record is no constructor. -/
theorem prefix_ownerPlace (d : Declaration) (hbase : base.1.getLast? ≠ some .constructor)
    (h : base.1 <+: place) : base.1 <+: d.ownerPlace place := by
  rcases d.ownerPlace_cases place with heq | heq
  · rwa [heq]
  · rw [heq, List.prefix_concat_iff] at h
    rcases h with h | h
    · rw [h, List.getLast?_concat] at hbase
      exact absurd rfl hbase
    · exact h

theorem InsideOf.declared (h : InsideOf base outer depth s) (hplace : base.1 <+: place)
    {scope : Scope} (hdrafts : s'.drafts = ⟨place, scope⟩ :: s.drafts) :
    InsideOf base outer (depth + 1) s' := by
  obtain ⟨inner, haddresses, hlength, hwithin⟩ := h
  refine ⟨(place, scope.modulePath) :: inner, ?_, by rw [List.length_cons, hlength], ?_⟩
  · rw [hdrafts, List.map_cons, haddresses, List.cons_append, Draft.address]
  · intro address hmem
    rcases List.mem_cons.mp hmem with rfl | hmem
    · exact hplace
    · exact hwithin address hmem

/-- A step of a body stays inside. -/
theorem InsideOf.advance (h : InsideOf base outer depth s)
    (hbase : base.1.getLast? ≠ some .constructor) (hadvance : s.Advance step s')
    (hdepth : step.depthAfter? depth = some depth') : InsideOf base outer depth' s' := by
  cases hadvance with
  | moduleOpened => cases hdepth
  | childReopened draft rest d owner child slot hdrafts howner hslot hchild =>
    obtain rfl := Option.some.inj hdepth
    obtain ⟨draft', rest', hdrafts', hwithin⟩ := h.exists_draft
    obtain ⟨rfl, -⟩ := List.cons.inj (hdrafts.symm.trans hdrafts')
    exact h.declared ((prefix_ownerPlace d hbase hwithin).trans (List.prefix_append _ _)) rfl
  | childDeclared draft rest d owner slot handle declared scope workspace hdrafts =>
    obtain rfl := Option.some.inj hdepth
    obtain ⟨draft', rest', hdrafts', hwithin⟩ := h.exists_draft
    obtain ⟨rfl, -⟩ := List.cons.inj (hdrafts.symm.trans hdrafts')
    exact h.declared ((prefix_ownerPlace d hbase hwithin).trans (List.prefix_append _ _)) rfl
  | closed draft rest hdrafts =>
    obtain ⟨hne, hdepth⟩ := Option.ite_none_left_eq_some.mp hdepth
    obtain rfl := Option.some.inj hdepth
    obtain ⟨inner, haddresses, hlength, hwithin⟩ := h
    obtain ⟨address, inner, rfl⟩ := List.exists_cons_of_ne_nil
      (List.ne_nil_of_length_pos (hlength ▸ Nat.pos_of_ne_zero hne))
    rw [hdrafts, List.map_cons, List.cons_append] at haddresses
    exact ⟨inner, (List.cons.inj haddresses).2, by rw [← hlength, List.length_cons]; rfl,
      fun address hmem => hwithin address (List.mem_cons_of_mem _ hmem)⟩
  | typeParametersAdded =>
    obtain rfl := Option.some.inj hdepth
    exact h
  | unchanged =>
    obtain rfl := Option.some.inj hdepth
    exact h
  | edited _ draft rest r r' hdrafts hrecord houtline hid hchildren htypes hrevise =>
    obtain rfl : depth = depth' := by
      cases step <;> simp [Record.revise?] at hrevise <;> exact Option.some.inj hdepth
    exact h

/-! ## 3. Outside of it -/

/-- **A step inside a record is seen there and nowhere else.** -/
theorem InsideOf.view_eq (h : InsideOf base outer depth s)
    (hbase : base.1.getLast? ≠ some .constructor) (hf : Record.Shallow f)
    (hadvance : s.Advance step s') (hq : ¬ base.1 <+: q) :
    s'.root.view f q = s.root.view f q := by
  obtain ⟨draft, rest, hdrafts, hwithin⟩ := h.exists_draft
  have hne : ∀ {place}, base.1 <+: place → q ≠ place := fun hplace heq => hq (heq ▸ hplace)
  cases hadvance with
  | moduleOpened p path m id lineage scope workspace hnone => simp [hdrafts] at hnone
  | childDeclared draft' rest' d owner slot handle declared scope workspace hdrafts' howner hslot
      hempty =>
    obtain ⟨rfl, rfl⟩ := List.cons.inj (hdrafts.symm.trans hdrafts')
    have howner' := prefix_ownerPlace d hbase hwithin
    rw [Record.view_replace_put hf howner (Record.hasSlot_of_slotFor? hslot) hempty
      (Record.accepts_of_slotFor? hslot (by simp)) (Record.child?_withId_bare d handle _),
      Function.update_of_ne (hne (howner'.trans (List.prefix_append _ _))),
      Function.update_of_ne (hne howner')]
  | typeParametersAdded draft' rest' r r' old parameters handles workspace hdrafts' hrecord hold
      hdeclared hnew =>
    obtain ⟨rfl, rfl⟩ := List.cons.inj (hdrafts.symm.trans hdrafts')
    obtain ⟨houtline, -, hchildren, -⟩ := Record.withTypeParameters?_keeps hnew
    rw [Record.view_replace_edited hf hrecord houtline hchildren,
      Function.update_of_ne (hne hwithin)]
  | edited _ draft' rest' r r' hdrafts' hrecord houtline hid hchildren =>
    obtain ⟨rfl, rfl⟩ := List.cons.inj (hdrafts.symm.trans hdrafts')
    rw [Record.view_replace_edited hf hrecord houtline hchildren,
      Function.update_of_ne (hne hwithin)]
  | _ => rfl

/-- **After a body the record is open, with as many declarations in it as the body has
    left open, and nothing outside of it has changed.** -/
theorem InsideOf.of_body (h : InsideOf base outer depth s)
    (hbase : base.1.getLast? ≠ some .constructor)
    (hdepth : depthAfter? body depth = some depth') (hrun : s.run? body = some s') :
    InsideOf base outer depth' s' ∧ ∀ {α : Type} {f : Record → α} {q : Place},
      Record.Shallow f → ¬ base.1 <+: q → s'.root.view f q = s.root.view f q := by
  induction body generalizing s depth with
  | nil =>
    obtain rfl := Option.some.inj hdepth
    obtain rfl := Option.some.inj hrun
    exact ⟨h, fun _ _ => rfl⟩
  | cons step body ih =>
    rw [run?_cons] at hrun
    obtain ⟨next, hnext, hrest⟩ := Option.bind_eq_some_iff.mp hrun
    rw [depthAfter?_cons] at hdepth
    obtain ⟨between, hbetween, hdepth⟩ := Option.bind_eq_some_iff.mp hdepth
    have hadvance := advance_of_step? hnext
    obtain ⟨hafter, hsame⟩ := ih (h.advance hbase hadvance hbetween) hdepth hrest
    exact ⟨hafter, fun hf hq => (hsame hf hq).trans (h.view_eq hbase hf hadvance hq)⟩

end Session

end Declarations
