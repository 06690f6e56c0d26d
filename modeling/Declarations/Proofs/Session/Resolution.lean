/-
  Declarations/Proofs/Session/Resolution.lean
  ===========================================
  **References are resolved to what the records around them declare.**

  What a name means at a place can be read off the records: go outwards from the
  record there and take the first that declares the name (`Session.meaning?`).
  That is the last type parameter of the name on a class, interface, function or
  method, or else the latest class or interface of the name in the module.

  In a session built from nothing a lookup in the scope of an open record gives
  this meaning, in every state that a run can reach, and the references that the
  innermost record is given are stored as the meanings of that moment resolve
  them (`lookup_eq_meaning?`).
-/
import Declarations.Proofs.Session.Scoping

namespace Declarations.Session

variable {frames : Place → Option Nat} {start s s' : Session} {steps : List Step}
variable {draft : Draft} {rest : List Draft} {place : Place} {scope : Scope} {r : Record}

/-! ## 1. Meanings -/

/-- What a name means at a place: what the first of the records from there
    outwards that declares the name declares it as. -/
def meaning? (s : Session) (place : Place) (name : String) : Option TypeHandle :=
  ((s.root.get? place).toList ++ s.root.enclosing place).findSome? (·.declared? name)

def resolveAt (s : Session) (place : Place) (reference : TypeReference) : TypeReference :=
  reference.resolve (s.meaning? place)

/-- A record declares what its frame binds, and nothing if it has none. -/
theorem Scoped.declared?_eq (h : Scoped frames s) (hget : s.root.get? place = some r)
    (name : String) : r.declared? name =
      (frames place).bind fun frame => (s.workspace.bindings frame)[name]? := by
  cases hframe : frames place with
  | some frame => exact (h.bound.names (labels_eq_some hget) hframe name).symm
  | none =>
    have hnot := (h.isSome_iff hget).not.mp (by simp [hframe])
    rw [not_or, Bool.not_eq_true] at hnot
    exact Record.declared?_eq_none hnot.1 hnot.2

/-- Going outwards through the frames finds what going outwards through the
    records finds. -/
theorem Scoped.findSome?_outwards (h : Scoped frames s) (name : String)
    (hget : s.root.get? place = some r) :
    ((outwards place).filterMap frames).findSome?
        (fun frame => (s.workspace.bindings frame)[name]?) =
      (r :: s.root.enclosing place).findSome? (·.declared? name) := by
  induction place using List.reverseRecOn generalizing r with
  | nil =>
    rw [outwards_nil, List.findSome?_cons, h.declared?_eq hget name]
    cases hframe : frames [] with
    | none => simp [hframe]
    | some frame =>
      rw [List.filterMap_cons_some hframe, List.findSome?_cons]
      rfl
  | append_singleton place slot ih =>
    obtain ⟨owner, howner⟩ := Record.exists_get?_of_append hget
    rw [outwards_concat, List.findSome?_cons, h.declared?_eq hget name,
      Record.enclosing_concat howner slot, ← ih howner, List.filterMap_cons]
    cases frames (place ++ [slot]) <;> rfl

/-- In a scope that fits, a name is found as what it means. -/
theorem Scoped.lookup_eq (h : Scoped frames s) (hfits : Fits s.labels frames place scope) :
    s.workspace.lookup scope = s.meaning? place := by
  obtain ⟨label, hlabel⟩ := hfits.1
  obtain ⟨r, hget, -⟩ := exists_get?_of_labels hlabel
  funext name
  rw [Workspace.lookup, hfits.2, h.findSome?_outwards name hget, meaning?, hget]
  rfl

/-! ## 2. Stored references -/

/-- The references that the innermost record is given are stored as the meanings
    at its place resolve them; and it takes them if it is of a kind to have them. -/
structure StoresMeanings (s : Session) (draft : Draft) : Prop where
  -- an attribute can be set exactly if the record has it
  settable (a : Attribute) (value : Option a.Value) : (s.step? (.set a value)).isSome ↔
    ∃ r, s.record? draft.place = some r ∧ (r.read? a).isSome
  -- the type of a field
  type {reference : TypeReference} {s' : Session} :
    s.step? (.set .type (some reference)) = some s' → ∃ r, s'.record? draft.place = some r ∧
      r.read? .type = some (some (s.resolveAt draft.place reference))
  -- the type that a callable returns
  returnType {reference : TypeReference} {s' : Session} :
    s.step? (.set .returnType (some reference)) = some s' → ∃ r, s'.record? draft.place = some r ∧
      r.read? .returnType = some (some (s.resolveAt draft.place reference))
  -- the class that a class extends
  superclass {reference : TypeReference} {s' : Session} :
    s.step? (.set .superclass (some reference)) = some s' → ∃ r, s'.record? draft.place = some r ∧
      r.read? .superclass = some (some (s.resolveAt draft.place reference))
  -- the interfaces that a class implements, and no other record
  implementable (references : List TypeReference) : (s.step? (.addImplements references)).isSome ↔
    ∃ c, s.record? draft.place = some (.class c)
  implemented {references : List TypeReference} {s' : Session} :
    s.step? (.addImplements references) = some s' →
    ∃ c, s.record? draft.place = some (.class c) ∧ s'.record? draft.place = some (.class
      { c with implemented := appendTo c.implemented (references.map (s.resolveAt draft.place)) })
  -- the interfaces that an interface extends, and no other record
  extendable (references : List TypeReference) : (s.step? (.addExtends references)).isSome ↔
    ∃ i, s.record? draft.place = some (.interface i)
  extended {references : List TypeReference} {s' : Session} :
    s.step? (.addExtends references) = some s' →
    ∃ i, s.record? draft.place = some (.interface i) ∧ s'.record? draft.place = some (.interface
      { i with extended := appendTo i.extended (references.map (s.resolveAt draft.place)) })

theorem read?_of_set? {a : Attribute} {value : a.Value} (hdrafts : s.drafts = draft :: rest)
    (hpresent : a.isPresent value) (h : s.set? a (some value) = some s') :
    ∃ r, s'.record? draft.place = some r ∧
      r.read? a = some (some (a.resolve (s.workspace.lookup draft.scope) value)) := by
  obtain ⟨⟨draft', r⟩, hcurrent, h⟩ := Option.bind_eq_some_iff.mp h
  obtain ⟨rest', hdrafts', hrecord⟩ := current?_eq_some_iff.mp hcurrent
  obtain rfl : draft = draft' := (List.cons.inj (hdrafts.symm.trans hdrafts')).1
  simp only [Option.filter_some, hpresent, if_true, Option.map_eq_some_iff] at h
  obtain ⟨r', hwrite, rfl⟩ := h
  exact ⟨r', Record.get?_replace hrecord (Record.write?_keeps hwrite).1,
    Record.read?_of_write? hwrite⟩

theorem current?_eq_map (hdrafts : s.drafts = draft :: rest) :
    s.current? = (s.record? draft.place).map (draft, ·) := by
  rw [current?, hdrafts]
  rfl

/-- With a draft open, a change is made exactly if it applies to its record. -/
theorem isSome_edit?_iff {change : Scope → Record → Option Record}
    (hdrafts : s.drafts = draft :: rest) : (s.edit? change).isSome ↔
      ∃ r, s.record? draft.place = some r ∧ (change draft.scope r).isSome := by
  rw [edit?, current?_eq_map hdrafts]
  cases s.record? draft.place <;> simp

theorem isSome_set?_iff {a : Attribute} {value : Option a.Value}
    (hdrafts : s.drafts = draft :: rest) : (s.set? a value).isSome ↔
      ∃ r, s.record? draft.place = some r ∧ (r.read? a).isSome := by
  rw [set?, current?_eq_map hdrafts]
  cases s.record? draft.place with
  | none => simp
  | some r => cases value.filter a.isPresent <;> simp [Record.isSome_write?]

theorem record?_of_edit? {change : Scope → Record → Option Record}
    (hdrafts : s.drafts = draft :: rest) (h : s.edit? change = some s') :
    ∃ r r', s.record? draft.place = some r ∧ change draft.scope r = some r' ∧
      (r'.outline = r.outline → s'.record? draft.place = some r') := by
  obtain ⟨⟨draft', r⟩, hcurrent, h⟩ := Option.bind_eq_some_iff.mp h
  obtain ⟨rest', hdrafts', hrecord⟩ := current?_eq_some_iff.mp hcurrent
  obtain rfl : draft = draft' := (List.cons.inj (hdrafts.symm.trans hdrafts')).1
  obtain ⟨r', hchange, rfl⟩ := Option.map_eq_some_iff.mp h
  exact ⟨r, r', hrecord, hchange, Record.get?_replace hrecord⟩

theorem exists_class_of_addImplements? {references : List TypeReference}
    (hdrafts : s.drafts = draft :: rest) (h : s.addImplements? references = some s') :
    ∃ c, s.record? draft.place = some (.class c) ∧ s'.record? draft.place = some (.class { c with
      implemented := appendTo c.implemented
        (references.map (s.workspace.resolve draft.scope)) }) := by
  unfold addImplements? at h
  obtain ⟨r, r', hrecord, hchange, hafter⟩ := record?_of_edit? hdrafts h
  dsimp only at hchange
  split at hchange
  next c =>
    obtain rfl := Option.some.inj hchange
    exact ⟨c, hrecord, hafter rfl⟩
  next => simp at hchange

theorem isSome_addImplements?_iff {references : List TypeReference}
    (hdrafts : s.drafts = draft :: rest) : (s.addImplements? references).isSome ↔
      ∃ c, s.record? draft.place = some (.class c) := by
  constructor
  · intro h
    obtain ⟨s', hs'⟩ := Option.isSome_iff_exists.mp h
    obtain ⟨c, hrecord, -⟩ := exists_class_of_addImplements? hdrafts hs'
    exact ⟨c, hrecord⟩
  · rintro ⟨c, hrecord⟩
    rw [addImplements?, isSome_edit?_iff hdrafts]
    exact ⟨_, hrecord, rfl⟩

theorem exists_interface_of_addExtends? {references : List TypeReference}
    (hdrafts : s.drafts = draft :: rest) (h : s.addExtends? references = some s') :
    ∃ i, s.record? draft.place = some (.interface i) ∧
      s'.record? draft.place = some (.interface { i with
        extended := appendTo i.extended (references.map (s.workspace.resolve draft.scope)) }) := by
  unfold addExtends? at h
  obtain ⟨r, r', hrecord, hchange, hafter⟩ := record?_of_edit? hdrafts h
  dsimp only at hchange
  split at hchange
  next i =>
    obtain rfl := Option.some.inj hchange
    exact ⟨i, hrecord, hafter rfl⟩
  next => simp at hchange

theorem isSome_addExtends?_iff {references : List TypeReference}
    (hdrafts : s.drafts = draft :: rest) : (s.addExtends? references).isSome ↔
      ∃ i, s.record? draft.place = some (.interface i) := by
  constructor
  · intro h
    obtain ⟨s', hs'⟩ := Option.isSome_iff_exists.mp h
    obtain ⟨i, hrecord, -⟩ := exists_interface_of_addExtends? hdrafts hs'
    exact ⟨i, hrecord⟩
  · rintro ⟨i, hrecord⟩
    rw [addExtends?, isSome_edit?_iff hdrafts]
    exact ⟨_, hrecord, rfl⟩

theorem storesMeanings (hdrafts : s.drafts = draft :: rest)
    (hlookup : s.workspace.lookup draft.scope = s.meaning? draft.place) :
    s.StoresMeanings draft := by
  have hresolve : s.resolveAt draft.place = s.workspace.resolve draft.scope :=
    funext fun reference => congrArg reference.resolve hlookup.symm
  constructor
  case settable => exact fun a value => isSome_set?_iff hdrafts
  case type => rw [hresolve]; exact fun h => read?_of_set? hdrafts rfl h
  case returnType => rw [hresolve]; exact fun h => read?_of_set? hdrafts rfl h
  case superclass => rw [hresolve]; exact fun h => read?_of_set? hdrafts rfl h
  case implementable => exact fun references => isSome_addImplements?_iff hdrafts
  case implemented => rw [hresolve]; exact fun h => exists_class_of_addImplements? hdrafts h
  case extendable => exact fun references => isSome_addExtends?_iff hdrafts
  case extended => rw [hresolve]; exact fun h => exists_interface_of_addExtends? hdrafts h

/-! ## 3. Runs -/

/-- **Built from nothing, a session resolves names lexically: a lookup in the
    scope of an open record gives what the records around it declare, and that is
    what its references are stored as.** -/
theorem lookup_eq_meaning? (hblank : start.Blank) (hrun : start.run? steps = some s) :
    (∀ draft ∈ s.drafts, ∀ name, s.workspace.lookup draft.scope name =
      s.meaning? draft.place name) ∧
    ∀ draft rest, s.drafts = draft :: rest → s.StoresMeanings draft := by
  obtain ⟨frames, h⟩ := scoped_of_run? hblank hrun
  have hlookup : ∀ draft ∈ s.drafts, s.workspace.lookup draft.scope = s.meaning? draft.place :=
    fun draft hmem => h.lookup_eq (h.drafts hmem)
  exact ⟨fun draft hmem => congrFun (hlookup draft hmem), fun draft rest hdrafts =>
    storesMeanings hdrafts (hlookup draft (hdrafts ▸ List.mem_cons_self))⟩

/-- A class named `T` with a type parameter `T` implements `Eq<T>`, and its method returns
    `T`: both mean the type parameter and not the class. -/
theorem lookup_typeParameter_in_method :
    ∃ s draft rest s' c t method outer t' m,
      (ofProgram ∅ {}).run? [.openModule "app", .declare (.interface "Eq"), .close,
        .declare (.class "T"), .addTypeParameters [.name "T"]] = some s ∧
      s.drafts = draft :: rest ∧ s.meaning? draft.place "T" = some ⟨3, "T"⟩ ∧
      s.step? (.addImplements [.applied (.name "Eq") [.bare (.name "T")]]) = some s' ∧
      s'.record? draft.place = some (.class c) ∧ c.implemented =
        some [.applied (.handle ⟨1, "app::Eq"⟩) [.bare (.handle ⟨3, "T"⟩)]] ∧
      s.step? (.declare (.method (some "get"))) = some t ∧ t.drafts = method :: outer ∧
      t.workspace.lookup method.scope "T" = some ⟨3, "T"⟩ ∧
      t.meaning? method.place "T" = some ⟨3, "T"⟩ ∧
      t.step? (.set .returnType (some (.bare (.name "T")))) = some t' ∧
      t'.record? method.place = some m ∧
      m.read? .returnType = some (some (.bare (.handle ⟨3, "T"⟩))) ∧
      s.StoresMeanings draft ∧ t.StoresMeanings method := by
  obtain ⟨s, draft, rest, c, t, method, outer, hrun, hdrafts, hc, hbare, heq, hT, hmethod, hrun',
      houter, hget, hlookup⟩ : ∃ s draft rest c t method outer,
      (ofProgram ∅ {}).run? [.openModule "app", .declare (.interface "Eq"), .close,
        .declare (.class "T"), .addTypeParameters [.name "T"]] = some s ∧
      s.drafts = draft :: rest ∧ s.record? draft.place = some (.class c) ∧ c.implemented = none ∧
      s.workspace.lookup draft.scope "Eq" = some ⟨1, "app::Eq"⟩ ∧
      s.workspace.lookup draft.scope "T" = some ⟨3, "T"⟩ ∧
      s.step? (.declare (.method (some "get"))) = some t ∧
      (ofProgram ∅ {}).run? [.openModule "app", .declare (.interface "Eq"), .close,
        .declare (.class "T"), .addTypeParameters [.name "T"],
        .declare (.method (some "get"))] = some t ∧
      t.drafts = method :: outer ∧ (∃ m, t.record? method.place = some m ∧
        (m.read? .returnType).isSome) ∧
      t.workspace.lookup method.scope "T" = some ⟨3, "T"⟩ :=
    ⟨_, _, _, _, _, _, _, rfl, rfl, rfl, rfl, rfl, rfl, rfl, rfl, rfl, ⟨_, rfl, rfl⟩, rfl⟩
  obtain ⟨hnames, hstores⟩ := lookup_eq_meaning? (Or.inl ⟨∅, rfl⟩) hrun
  obtain ⟨hnames', hstores'⟩ := lookup_eq_meaning? (Or.inl ⟨∅, rfl⟩) hrun'
  have hmeans := hnames draft (hdrafts ▸ List.mem_cons_self)
  have hmeaning := (hmeans "T").symm.trans hT
  have heq' := (hmeans "Eq").symm.trans heq
  have hmeaning' := (hnames' method (houter ▸ List.mem_cons_self) "T").symm.trans hlookup
  have hclass := hstores draft rest hdrafts
  have hreturn := hstores' method outer houter
  -- the class takes the interface, and the method the type
  obtain ⟨s', hs'⟩ := Option.isSome_iff_exists.mp
    ((hclass.implementable [.applied (.name "Eq") [.bare (.name "T")]]).mpr ⟨c, hc⟩)
  obtain ⟨t', ht'⟩ := Option.isSome_iff_exists.mp
    ((hreturn.settable .returnType (some (.bare (.name "T")))).mpr hget)
  obtain ⟨c', hc', himplemented⟩ := hclass.implemented hs'
  obtain rfl := Entry.class.inj (Record.entry.inj (Option.some.inj (hc'.symm.trans hc)))
  obtain ⟨m, hm, hreturned⟩ := hreturn.returnType ht'
  refine ⟨s, draft, rest, s', _, t, method, outer, t', m, hrun, hdrafts, hmeaning, hs',
    himplemented, ?_, hmethod, houter, hlookup, hmeaning', ht', hm, ?_, hclass, hreturn⟩
  · simp [hbare, appendTo, resolveAt, TypeReference.resolve, TypeReference.resolveMany,
      TypeReference.resolveAll, TypeReference.applied, TypeReference.bare, heq', hmeaning]
  · simp [hreturned, resolveAt, TypeReference.resolve, TypeReference.resolveMany,
      TypeReference.bare, hmeaning']

end Declarations.Session
