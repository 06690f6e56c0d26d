/-
  Declarations/Proofs/Session/Registration.lean
  =============================================
  **Which records a session registers, and under what.**

  A session begins with a root that has the first row of the lineage.  Each row
  after it belongs to a record that the session has declared, or to a module
  that it has opened and that had no identifier, and is linked to the record that
  contains it (`Lineage.Mirrors`).

  `Session.Tracks` is kept by every step.  A module without an identifier is the
  case that could do harm, since records below it might be linked already.  None
  are: work below a module begins with opening it (`Tracks.above`), which gives
  it an identifier (`Tracks.opened`).
-/
import Declarations.Proofs.Lineage.Mirrors
import Declarations.Proofs.Session.Advance

namespace Declarations

namespace Session

variable {start s s' : Session} {step : Step} {steps : List Step} {place q : Place} {slot : Slot}
variable {r : Record} {path : String}

/-! ## 1. Where a session is at work -/

def tags (s : Session) : Tags := s.root.view Record.tag

theorem tags_eq_some (h : s.root.get? place = some r) : s.tags place = some r.tag :=
  Record.view_eq_some_iff.mpr ⟨r, h, rfl⟩

theorem exists_get?_of_tags {tag : Record.Tag} (h : s.tags place = some tag) :
    ∃ r, s.root.get? place = some r ∧ r.tag = tag :=
  Record.view_eq_some_iff.mp h

theorem entered_of_get? (hstart : start.root.get? place = none)
    (hget : s.root.get? place = some r) : Entered start.tags s.tags place := by
  refine Or.inr ?_
  rw [tags_eq_some hget, tags, Record.view_eq_none_iff.mpr hstart]
  simp

/-- What may be open in a session: an entered place or a module that it has opened. -/
def Active (start s : Session) (place : Place) : Prop :=
  Entered start.tags s.tags place ∨ ∃ path, path ∈ s.moduleScopes ∧ place = [.module path]

/-- A session of which nothing has been built yet. -/
def Begins (s : Session) : Prop := (∃ w p, s = ofProgram w p) ∨ ∃ w m, s = ofModule w m

/-- What is true of the records and the lineage throughout a run from `start`. -/
structure Tracks (start s : Session) : Prop where
  -- the rows are the entered places
  mirrors : s.lineage.Mirrors start.tags s.tags
  -- a module that has been opened has an identifier
  opened {path : String} : path ∈ s.moduleScopes →
    ∃ tag, s.tags [.module path] = some tag ∧ tag.id.isAssigned
  -- a module is entered by opening it
  openedFirst {path : String} : Entered start.tags s.tags [.module path] → path ∈ s.moduleScopes
  -- what is open may be
  drafts {draft : Draft} : draft ∈ s.drafts → Active start s draft.place
  -- what is entered was declared where the session was at work
  above {place : Place} {slot : Slot} : Entered start.tags s.tags (place ++ [slot]) →
    Active start s place

theorem Tracks.kind_root (h : Tracks start s) (hstart : start.Begins) :
    s.root.kind = .program ∨ s.root.kind = .module := by
  have hkind : s.root.kind = start.root.kind := by
    rcases h.mirrors.known (tags_eq_some (Record.get?_nil start.root)) with hroot | ⟨-, path, hpath⟩
    · exact congrArg Record.Tag.kind (Option.some.inj hroot)
    · simp at hpath
  rw [hkind]
  rcases hstart with ⟨w, p, rfl⟩ | ⟨w, m, rfl⟩
  · exact Or.inl rfl
  · exact Or.inr rfl

theorem Tracks.active_ownerPlace (h : Tracks start s) (d : Declaration)
    (hactive : Active start s place) : Active start s (d.ownerPlace place) := by
  rcases d.ownerPlace_cases place with heq | heq
  · rwa [heq]
  · rw [heq] at hactive
    rcases hactive with hentered | ⟨path, -, hpath⟩
    · exact h.above hentered
    · simp [List.append_eq_singleton_iff] at hpath

/-- A record in an active one is entered, unless the latter is a program or module. -/
theorem Tracks.entered_child (h : Tracks start s) (hactive : Active start s place)
    {owner child : Record} (howner : s.root.get? place = some owner)
    (hroot : owner.kind ≠ .program) (hmodule : owner.kind ≠ .module) (hstart : start.Begins)
    (hchild : s.root.get? (place ++ [slot]) = some child) :
    Entered start.tags s.tags (place ++ [slot]) := by
  have hnot : ∀ path, place ≠ [.module path] := by
    rintro path rfl
    have hfor : (Slot.module path).isFor owner.kind :=
      Record.isFor_of_get?_concat (show s.root.get? ([] ++ [.module path]) = some owner from howner)
    exact hmodule (of_decide_eq_true hfor)
  -- a record that was there at the beginning stood in one that was there
  apply Or.inr
  intro hsame
  rw [tags_eq_some hchild] at hsame
  obtain ⟨child₀, hchild₀, -⟩ := exists_get?_of_tags hsame.symm
  obtain ⟨owner₀, howner₀⟩ := Record.exists_get?_of_append hchild₀
  rcases hactive with (rfl | hnew) | ⟨path, -, hpath⟩
  · obtain rfl : s.root = owner := Option.some.inj howner
    exact (h.kind_root hstart).elim hroot hmodule
  · rcases h.mirrors.known (tags_eq_some howner₀) with hknown | ⟨-, path, hpath⟩
    · exact hnew (hknown.trans (tags_eq_some howner₀).symm)
    · exact hnot path hpath
  · exact hnot path hpath

theorem Tracks.not_entered_below (h : Tracks start s)
    (hsize : s.lineage.size ≤ EntityId.unassigned.raw)
    (hunassigned : ∀ tag, s.tags place = some tag → ¬ tag.id.isAssigned) (hplace : place ≠ [])
    (next : Slot) : ¬ Entered start.tags s.tags (place ++ [next]) := by
  intro hbelow
  rcases h.above hbelow with (hnil | hnew) | ⟨path, hopened, rfl⟩
  · exact hplace hnil
  · cases htag : s.tags place with
    | none => exact hnew (htag.trans (h.mirrors.kept htag).symm)
    | some tag => exact hunassigned tag htag (h.mirrors.isAssigned hsize (Or.inr hnew) htag)
  · obtain ⟨tag, htag, hassigned⟩ := h.opened hopened
    exact hunassigned tag htag hassigned

/-! ## 2. One step -/

theorem Advance.size_le (h : s.Advance step s') : s.lineage.size ≤ s'.lineage.size := by
  cases h with
  | moduleOpened p path m id lineage scope workspace hdrafts hroot hmodule hregister hscope =>
    rcases hregister with ⟨-, -, rfl⟩ | ⟨-, hattach⟩
    · exact Nat.le_refl _
    · obtain ⟨-, rfl⟩ := Prod.mk.inj hattach
      simp [Lineage.size]
  | childDeclared => simp [Lineage.attach, Lineage.size]
  | _ => exact Nat.le_refl _

/-- A session at work on the same records stays on track. -/
theorem Tracks.of_tags_eq (h : Tracks start s) (htags : s'.tags = s.tags)
    (hlineage : s'.lineage = s.lineage)
    (hscopes : ∀ path ∈ s.moduleScopes, path ∈ s'.moduleScopes)
    (hopened : ∀ path ∈ s'.moduleScopes, path ∈ s.moduleScopes ∨
      ∃ tag, s.tags [.module path] = some tag ∧ tag.id.isAssigned)
    (hdrafts : ∀ draft ∈ s'.drafts, Active start s' draft.place) : Tracks start s' := by
  constructor
  case mirrors => rw [htags, hlineage]; exact h.mirrors
  case opened => rw [htags]; exact fun hpath => (hopened _ hpath).elim h.opened id
  case openedFirst => rw [htags]; exact fun hentered => hscopes _ (h.openedFirst hentered)
  case drafts => exact fun hmem => hdrafts _ hmem
  case above =>
    intro q slot hentered
    rw [htags] at hentered
    rcases h.above hentered with hq | ⟨path, hpath, rfl⟩
    · exact Or.inl (by rwa [htags])
    · exact Or.inr ⟨path, hscopes path hpath, rfl⟩

/-- A session that changes no tag, no link and no module stays on track. -/
theorem Tracks.of_edit (h : Tracks start s) (htags : s'.tags = s.tags)
    (hlineage : s'.lineage = s.lineage) (hscopes : s'.moduleScopes = s.moduleScopes)
    (hdrafts : ∀ draft ∈ s'.drafts, Active start s draft.place) : Tracks start s' := by
  apply h.of_tags_eq htags hlineage
  case hscopes =>
    rw [hscopes]
    exact fun path hpath => hpath
  case hopened =>
    rw [hscopes]
    exact fun path hpath => Or.inl hpath
  case hdrafts =>
    intro draft hmem
    rw [Active, htags, hscopes]
    exact hdrafts draft hmem

/-- A session that registers a record at an active place stays on track. -/
theorem Tracks.of_attach (h : Tracks start s) (place : Place) (slot : Slot) (kind : Kind)
    {owner : Record} (hsize : s.lineage.size < EntityId.unassigned.raw)
    (hactive : Active start s place) (howner : s.root.get? place = some owner)
    (hunfiled : ∀ tag, s.tags (place ++ [slot]) = some tag →
      ¬ tag.id.isAssigned ∧ ∃ path, place ++ [slot] = [.module path])
    (hbelow : ∀ next, ¬ Entered start.tags s.tags (place ++ [slot] ++ [next]))
    (htags : s'.tags = Function.update s.tags (place ++ [slot]) (some ⟨s.lineage.next, kind⟩))
    (hlineage : s'.lineage = (s.lineage.attach kind owner.id).2)
    (hscopes : ∀ path, path ∈ s'.moduleScopes ↔
      path ∈ s.moduleScopes ∨ place ++ [slot] = [.module path])
    (hdrafts : ∀ draft ∈ s'.drafts, draft ∈ s.drafts ∨ draft.place = place ++ [slot]) :
    Tracks start s' := by
  have hassigned : s.lineage.next.isAssigned := Lineage.isAssigned_of_lt hsize
  have hentered : ∀ q, Entered start.tags s'.tags q ↔
      q = place ++ [slot] ∨ Entered start.tags s.tags q := by
    rw [htags]
    exact h.mirrors.entered_update_iff hassigned fun tag htag => (hunfiled tag htag).1
  have hstill : ∀ {q}, Active start s q → Active start s' q := by
    rintro q (hq | ⟨path, hpath, rfl⟩)
    · exact Or.inl ((hentered q).mpr (Or.inr hq))
    · exact Or.inr ⟨path, (hscopes path).mpr (Or.inl hpath), rfl⟩
  constructor
  case mirrors =>
    rw [htags, hlineage]
    exact h.mirrors.register hsize (tags_eq_some howner) hunfiled hbelow
  case opened =>
    intro path hpath
    rw [htags]
    by_cases hhere : place ++ [slot] = [.module path]
    · exact ⟨_, by rw [hhere, Function.update_self], hassigned⟩
    · obtain ⟨tag, htag, hid⟩ := h.opened (((hscopes path).mp hpath).resolve_right hhere)
      exact ⟨tag, by rw [Function.update_of_ne (Ne.symm hhere), htag], hid⟩
  case openedFirst =>
    intro path hpath
    rcases (hentered _).mp hpath with hhere | hold
    · exact (hscopes path).mpr (Or.inr hhere.symm)
    · exact (hscopes path).mpr (Or.inl (h.openedFirst hold))
  case drafts =>
    intro draft hmem
    rcases hdrafts draft hmem with hold | hnew
    · exact hstill (h.drafts hold)
    · exact Or.inl ((hentered _).mpr (Or.inl hnew))
  case above =>
    intro q s hq
    rcases (hentered _).mp hq with hnew | hold
    · obtain ⟨rfl, -⟩ : q = place ∧ s = slot := by simpa using hnew
      exact hstill hactive
    · exact hstill (h.above hold)

theorem Tracks.of_moduleOpened (h : Tracks start s) {p : Program} {m : Module} {id : EntityId}
    {lineage : Lineage} (scope : Scope) (workspace : Workspace) (hroot : s.root = .program p)
    (hmodule : m = p.modules[path]?.getD (.atPath path))
    (hregister : (m.id.isAssigned ∧ id = m.id ∧ lineage = s.lineage) ∨
      (¬ m.id.isAssigned ∧ (id, lineage) = s.lineage.attach .module p.id))
    (hsize : lineage.size ≤ EntityId.unassigned.raw) :
    Tracks start
      { root := .program { p with modules := p.modules.insert path { m with id } }
        lineage, workspace
        moduleScopes := s.moduleScopes.insert path scope
        drafts := [⟨[.module path], scope⟩] } := by
  have hview := Record.view_tag_insertModule p path m hmodule id
  have hscopes : ∀ other, other ∈ s.moduleScopes.insert path scope ↔
      path = other ∨ other ∈ s.moduleScopes := by simp
  rcases hregister with ⟨hassigned, rfl, rfl⟩ | ⟨hunassigned, hattach⟩
  · -- the module is there, and stays as it is
    have hget : s.root.get? [.module path] = some (.module m) := by
      rw [hroot, Record.get?_module_of_isAssigned hmodule hassigned]
    apply h.of_tags_eq
    case htags =>
      rw [tags, hview, ← hroot]
      exact Function.update_eq_self_iff.mpr (tags_eq_some hget).symm
    case hlineage => rfl
    case hscopes => exact fun other hmem => (hscopes other).mpr (Or.inr hmem)
    case hopened =>
      intro other hmem
      rcases (hscopes other).mp hmem with rfl | hmem
      · exact Or.inr ⟨_, tags_eq_some hget, hassigned⟩
      · exact Or.inl hmem
    case hdrafts =>
      intro draft hmem
      obtain rfl := List.mem_singleton.mp hmem
      exact Or.inr ⟨path, (hscopes path).mpr (Or.inl rfl), rfl⟩
  · obtain ⟨rfl, rfl⟩ := Prod.mk.inj hattach
    have hlt : s.lineage.size < EntityId.unassigned.raw := by
      simpa [Lineage.size, Lineage.attach, Nat.succ_le_iff] using hsize
    have hprogram : s.root.get? [] = some (.program p) := congrArg some hroot
    have hthere : ∀ tag, s.tags [.module path] = some tag → ¬ tag.id.isAssigned := by
      intro tag htag
      obtain ⟨r, hget, rfl⟩ := exists_get?_of_tags htag
      rw [hroot] at hget
      rwa [Record.eq_module_of_get? hmodule hget]
    apply h.of_attach [] (.module path) .module hlt (Or.inl (Or.inl rfl)) hprogram
    case hunfiled => exact fun tag htag => ⟨hthere tag htag, path, rfl⟩
    case hbelow => exact h.not_entered_below (Nat.le_of_lt hlt) hthere (by simp)
    case htags =>
      rw [tags, hview, tags, hroot]
      rfl
    case hlineage => rfl
    case hscopes => simp [hscopes, or_comm]
    case hdrafts =>
      intro draft hmem
      obtain rfl := List.mem_singleton.mp hmem
      exact Or.inr rfl

theorem Tracks.of_childDeclared (h : Tracks start s) {d : Declaration} {owner : Record}
    {scope : Scope} (handle : Option TypeHandle) (workspace : Workspace)
    (hsize : s.lineage.size < EntityId.unassigned.raw) (hactive : Active start s place)
    (howner : s.root.get? place = some owner) (hslot : owner.slotFor? d = some slot)
    (hempty : owner.child? slot = none) :
    Tracks start
      { s with
        root := s.root.replace place (owner.put slot ((d.bare handle).withId s.lineage.next))
        lineage := (s.lineage.attach d.kind owner.id).2
        workspace
        drafts := ⟨place ++ [slot], scope⟩ :: s.drafts } := by
  have hnone : s.tags (place ++ [slot]) = none := by
    rw [tags, Record.view_eq_none_iff, Record.get?_concat howner, hempty]
  have hnotThere : ∀ tag, s.tags (place ++ [slot]) ≠ some tag := by simp [hnone]
  apply h.of_attach place slot d.kind hsize hactive howner
  case hunfiled => exact fun tag htag => absurd htag (hnotThere tag)
  case hbelow =>
    exact h.not_entered_below (Nat.le_of_lt hsize) (fun tag htag => absurd htag (hnotThere tag))
      (by simp)
  case htags =>
    rw [tags, Record.view_tag_replace_put howner (Record.hasSlot_of_slotFor? hslot) hempty
      (Record.accepts_of_slotFor? hslot (by simp)) (Record.child?_withId_bare d handle _)]
    simp [Record.tag, tags]
  case hlineage => rfl
  case hscopes => simp [Record.concat_ne_module_of_slotFor? hslot place]
  case hdrafts =>
    intro draft hmem
    rcases List.mem_cons.mp hmem with rfl | hmem
    · exact Or.inr rfl
    · exact Or.inl hmem

/-- **Every step keeps a session on track.** -/
theorem Tracks.advance (hstart : start.Begins) (h : Tracks start s) (hadvance : s.Advance step s')
    (hsize : s'.lineage.size ≤ EntityId.unassigned.raw) : Tracks start s' := by
  cases hadvance with
  | moduleOpened p path m id lineage scope workspace hdrafts hroot hmodule hregister hscope =>
    exact h.of_moduleOpened scope workspace hroot hmodule hregister hsize
  | childReopened draft rest d owner child slot hdrafts howner hslot hchild =>
    apply h.of_edit
    case htags => rfl
    case hlineage => rfl
    case hscopes => rfl
    intro opened hmem
    rcases List.mem_cons.mp hmem with rfl | hmem
    · have hactive := h.active_ownerPlace d (h.drafts (hdrafts ▸ List.mem_cons_self))
      obtain ⟨hprogram, hmodule⟩ := Record.kind_ne_of_slotFor?_of_child? hslot hchild
      have hget := (Record.get?_concat howner slot).trans hchild
      exact Or.inl (h.entered_child hactive howner hprogram hmodule hstart hget)
    · exact h.drafts hmem
  | childDeclared draft rest d owner slot handle declared scope workspace hdrafts howner hslot
      hempty hdeclared henter =>
    have hactive := h.active_ownerPlace d (h.drafts (hdrafts ▸ List.mem_cons_self))
    have hlt : s.lineage.size < EntityId.unassigned.raw := by
      simpa [Lineage.size, Lineage.attach, Nat.succ_le_iff] using hsize
    exact h.of_childDeclared handle workspace hlt hactive howner hslot hempty
  | closed draft rest hdrafts =>
    apply h.of_edit
    case htags => rfl
    case hlineage => rfl
    case hscopes => rfl
    intro opened hmem
    exact h.drafts (hdrafts ▸ List.mem_cons_of_mem draft hmem)
  | typeParametersAdded draft rest r r' old parameters handles workspace hdrafts hrecord hold
      hdeclared hnew =>
    obtain ⟨houtline, hid, hchildren, -⟩ := Record.withTypeParameters?_keeps hnew
    apply h.of_edit
    case htags => exact Record.view_tag_replace hrecord houtline hid hchildren
    case hlineage => rfl
    case hscopes => rfl
    intro opened hmem
    exact h.drafts hmem
  | unchanged => exact h
  | edited _ draft rest r r' hdrafts hrecord houtline hid hchildren htypes =>
    apply h.of_edit
    case htags => exact Record.view_tag_replace hrecord houtline hid hchildren
    case hlineage => rfl
    case hscopes => rfl
    intro opened hmem
    exact h.drafts hmem

/-! ## 3. Runs -/

theorem Begins.tracks (hstart : start.Begins) : Tracks start start := by
  have hentered : ∀ {q}, Entered start.tags start.tags q → q = [] := by
    intro q hq
    exact hq.resolve_right fun hne => hne rfl
  have hnot : ∀ {q slot}, ¬ Entered start.tags start.tags (q ++ [slot]) := by
    intro q slot hq
    exact absurd (hentered hq) (by simp)
  rcases hstart with ⟨w, p, rfl⟩ | ⟨w, m, rfl⟩
  · constructor
    case mirrors => exact Lineage.Mirrors.of_alloc (ofProgram w p).root rfl
    case opened => simp [ofProgram]
    case openedFirst => exact fun hq => absurd (hentered hq) (by simp)
    case drafts => simp [ofProgram]
    case above => exact fun hq => absurd hq hnot
  · constructor
    case mirrors => exact Lineage.Mirrors.of_alloc (ofModule w m).root rfl
    case opened => simp [ofModule]
    case openedFirst => exact fun hq => absurd (hentered hq) (by simp)
    case drafts =>
      intro draft hmem
      obtain rfl := List.mem_singleton.mp hmem
      exact Or.inl (Or.inl rfl)
    case above => exact fun hq => absurd hq hnot

/-- What every step keeps, as long as identifiers last, holds after every run. -/
theorem invariant_of_run?_of_size_le {I : Session → Prop} (hinit : I s)
    (hstep : ∀ {s s' step}, I s → s.Advance step s' →
      s'.lineage.size ≤ EntityId.unassigned.raw → I s')
    (hrun : s.run? steps = some s') (hsize : s'.lineage.size ≤ EntityId.unassigned.raw) : I s' := by
  apply invariant_of_run? (I := fun s => s.lineage.size ≤ EntityId.unassigned.raw → I s)
    (fun _ => hinit) _ hrun hsize
  intro s s' step hbefore hadvance hafter
  exact hstep (hbefore (Nat.le_trans hadvance.size_le hafter)) hadvance hafter

/-- **A session is on track after every run.** -/
theorem tracks_of_run? (hstart : start.Begins) (hrun : start.run? steps = some s)
    (hsize : s.lineage.size ≤ EntityId.unassigned.raw) : Tracks start s :=
  invariant_of_run?_of_size_le hstart.tracks (fun h => h.advance hstart) hrun hsize

end Session

end Declarations
