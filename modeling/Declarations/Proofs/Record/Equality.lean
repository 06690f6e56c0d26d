/-
  Declarations/Proofs/Record/Equality.lean
  ========================================
  **Where the display names agree, `==` is equality.**

  Handles are compared by their numbers, and so is everything that holds a handle.  Two
  values can be equal in this sense and yet show different names.  They cannot if all
  handles in them come from a stock in which a number has one display name only
  (`Coherent`): then `==` holds of references and of records of all kinds exactly if they
  are the same (`Faithful.beq_iff_eq`).
-/
import Declarations.Proofs.Record.Handles
import Declarations.Proofs.Reference.Equality
import Mathlib.Data.Finset.Card
import Mathlib.Data.List.Perm.Subperm

namespace Declarations

open Std (ExtTreeMap TransOrd LawfulEqOrd)

/-! ## 1. Tables -/

section Tables

variable {κ α : Type} [Ord κ] [TransOrd κ] [LawfulEqOrd κ] {t u : ExtTreeMap κ α}

/-- What a table with the same number of keys has in addition is nothing. -/
theorem table_eq_of_getElem? (hsize : t.size = u.size)
    (h : ∀ (k : κ) (v : α), t[k]? = some v → u[k]? = some v) : t = u := by
  have hsubset : t.toList ⊆ u.toList := fun ⟨k, v⟩ hmem =>
    ExtTreeMap.mem_toList_iff_getElem?_eq_some.mpr
      (h k v (ExtTreeMap.mem_toList_iff_getElem?_eq_some.mp hmem))
  have hnodup : t.toList.Nodup := ExtTreeMap.distinct_keys_toList.imp fun hne heq =>
    hne (by rw [heq]; exact Std.ReflCmp.compare_self)
  have hlength : u.toList.length ≤ t.toList.length :=
    Nat.le_of_eq (by rw [ExtTreeMap.length_toList, ExtTreeMap.length_toList, hsize])
  have hperm := (hnodup.subperm hsubset).perm_of_length_le hlength
  apply ExtTreeMap.ext_getElem?
  intro k
  apply Option.ext
  intro v
  rw [← ExtTreeMap.mem_toList_iff_getElem?_eq_some, ← ExtTreeMap.mem_toList_iff_getElem?_eq_some,
    hperm.mem_iff]

/-- A table has as many rows as it has keys. -/
theorem table_size_eq_card [DecidableEq κ] {keys : Finset κ} (h : ∀ k, k ∈ keys ↔ k ∈ t) :
    t.size = keys.card := by
  have hsame : t.keys.toFinset = keys := by
    ext k
    rw [List.mem_toFinset, ExtTreeMap.mem_keys, h]
  rw [← ExtTreeMap.length_keys, ← List.toFinset_card_of_nodup ExtTreeMap.nodup_keys, hsame]

/-- Equal tables have as many keys, and equal values under each. -/
theorem table_of_beq [BEq α] (h : (t == u) = true) : t.size = u.size ∧
    ∀ (k : κ) (v : α), t[k]? = some v → (u[k]? == some v) = true := by
  obtain ⟨t⟩ := t
  obtain ⟨u⟩ := u
  induction t using Std.ExtDTreeMap.inductionOn with | _ x
  induction u using Std.ExtDTreeMap.inductionOn with | _ y
  change Std.DTreeMap.Internal.Impl.Const.beq x.inner y.inner = true at h
  unfold Std.DTreeMap.Internal.Impl.Const.beq at h
  obtain ⟨hsize, hall⟩ : x.inner.size = y.inner.size ∧ (x.inner.all fun k v =>
      Std.DTreeMap.Internal.Impl.Const.get? y.inner k == some v) = true := by simpa using h
  rw [Std.DTreeMap.Internal.Impl.all_eq_all_toListModel, List.all_eq_true] at hall
  refine ⟨hsize, fun k v hv => ?_⟩
  have hlisted := Std.DTreeMap.Const.mem_toList_iff_get?_eq_some.mpr
    (show Std.DTreeMap.Const.get? x k = some v from hv)
  rw [show Std.DTreeMap.Const.toList x = x.inner.toListModel.map fun entry => (entry.1, entry.2)
    from Std.DTreeMap.Internal.Impl.Const.toList_eq_toListModel_map] at hlisted
  obtain ⟨entry, hmem, heq⟩ := List.mem_map.mp hlisted
  obtain ⟨rfl, rfl⟩ := Prod.mk.inj heq
  exact hall entry hmem

end Tables

/-! ## 2. Reflexivity -/

deriving instance ReflBEq for Parameter
deriving instance ReflBEq for Parameters
deriving instance ReflBEq for Property
deriving instance ReflBEq for Method
deriving instance ReflBEq for Constructor
deriving instance ReflBEq for Variable
deriving instance ReflBEq for Function
deriving instance ReflBEq for Class
deriving instance ReflBEq for Interface
deriving instance ReflBEq for Entry
deriving instance ReflBEq for Module
deriving instance ReflBEq for Program
deriving instance ReflBEq for Record

/-! ## 3. Values with handles of a stock -/

/-- A stock of handles in which a number has one display name. -/
def Coherent (stock : TypeHandle → Prop) : Prop :=
  ∀ ⦃h h'⦄, stock h → stock h' → h.id = h'.id → h = h'

/-- Of the values with handles of the stock, `==` holds of equal ones only. -/
def Faithful {α : Type} [BEq α] (stock : TypeHandle → Prop) (handles : α → List TypeHandle) : Prop :=
  ∀ ⦃a b⦄, (∀ h ∈ handles a, stock h) → (∀ h ∈ handles b, stock h) → (a == b) = true → a = b

section Values

variable {stock : TypeHandle → Prop} {κ α : Type} [BEq α] {handles : α → List TypeHandle}

theorem Faithful.option (hf : Faithful stock handles) :
    Faithful stock fun x : Option α => x.toList.flatMap handles := by
  intro x y hx hy heq
  cases x <;> cases y
  case some.some a b =>
    exact congrArg some (hf (by simpa using hx) (by simpa using hy) (by simpa using heq))
  all_goals first | rfl | cases heq

theorem Faithful.list (hf : Faithful stock handles) :
    Faithful stock fun xs : List α => xs.flatMap handles := by
  intro xs ys hx hy heq
  induction xs generalizing ys with
  | nil => cases ys <;> first | rfl | cases heq
  | cons x xs ih =>
    cases ys with
    | nil => cases heq
    | cons y ys =>
      dsimp only at hx hy
      rw [List.flatMap_cons, List.forall_mem_append] at hx hy
      rw [List.cons_beq_cons, Bool.and_eq_true] at heq
      rw [hf hx.1 hy.1 heq.1, ih hx.2 hy.2 heq.2]

theorem Faithful.optionList (hf : Faithful stock handles) :
    Faithful stock fun xs : Option (List α) => (xs.getD []).flatMap handles := by
  intro xs ys hx hy heq
  cases xs <;> cases ys
  case some.some as bs => exact congrArg some (hf.list hx hy (by simpa using heq))
  all_goals first | rfl | cases heq

theorem Faithful.table [Ord κ] [TransOrd κ] [LawfulEqOrd κ] (hf : Faithful stock handles) :
    Faithful stock fun t : ExtTreeMap κ α => t.toList.flatMap fun entry => handles entry.2 := by
  intro t u ht hu heq
  have hstock : ∀ {t : ExtTreeMap κ α} {k : κ} {v : α},
      (∀ h ∈ t.toList.flatMap fun entry => handles entry.2, stock h) → t[k]? = some v →
        ∀ h ∈ handles v, stock h := by
    intro t k v ht hv h hmem
    exact ht h (List.mem_flatMap.mpr
      ⟨(k, v), ExtTreeMap.mem_toList_iff_getElem?_eq_some.mpr hv, hmem⟩)
  obtain ⟨hsize, hvalues⟩ := table_of_beq heq
  apply table_eq_of_getElem? hsize
  intro k v hv
  have hsame := hvalues k v hv
  cases hv' : u[k]? with
  | none =>
    rw [hv'] at hsame
    cases hsame
  | some v' =>
    rw [hv', Option.some_beq_some] at hsame
    rw [hf (hstock hu hv') (hstock ht hv) hsame]

theorem faithful_handle (hstock : Coherent stock) :
    Faithful stock fun h : TypeHandle => [h] := by
  intro a b ha hb heq
  exact hstock (ha a List.mem_cons_self) (hb b List.mem_cons_self) (TypeHandle.beq_iff_id_eq.mp heq)

theorem faithful_own (hstock : Coherent stock) :
    Faithful stock fun own : Option TypeHandle => own.toList := by
  have h := (faithful_handle hstock).option
  simpa using h

theorem faithful_typeParameters (hstock : Coherent stock) :
    Faithful stock fun list : Option (List TypeHandle) => list.getD [] := by
  have h := (faithful_handle hstock).optionList
  simpa using h

theorem faithful_identifier (hstock : Coherent stock) :
    Faithful stock fun identifier : TypeIdentifier => identifier.handle?.toList := by
  intro a b ha hb heq
  cases a <;> cases b
  case name.name x y => rw [eq_of_beq (show (x == y) = true from heq)]
  case handle.handle x y =>
    rw [faithful_handle hstock ha hb (show (x == y) = true from heq)]
  all_goals cases heq

mutual

theorem TypeReference.eq_of_beq (hstock : Coherent stock) : (a b : TypeReference) →
    (∀ h ∈ a.handles, stock h) → (∀ h ∈ b.handles, stock h) → beq a b = true → a = b
  | ⟨i, as⟩, ⟨j, bs⟩, ha, hb, heq => by
    rw [TypeReference.handles, List.forall_mem_append] at ha hb
    rw [beq, Bool.and_eq_true] at heq
    rw [faithful_identifier hstock ha.1 hb.1 heq.1,
      arguments_eq_of_beq hstock as bs ha.2 hb.2 heq.2]

theorem TypeReference.arguments_eq_of_beq (hstock : Coherent stock) :
    (as bs : Option (List TypeReference)) → (∀ h ∈ handlesOfArguments as, stock h) →
      (∀ h ∈ handlesOfArguments bs, stock h) → beqArguments as bs = true → as = bs
  | none, none, _, _, _ => rfl
  | some as, some bs, ha, hb, heq => by rw [all_eq_of_beq hstock as bs ha hb heq]
  | none, some _, _, _, heq => by cases heq
  | some _, none, _, _, heq => by cases heq

theorem TypeReference.all_eq_of_beq (hstock : Coherent stock) :
    (as bs : List TypeReference) → (∀ h ∈ handlesOfAll as, stock h) →
      (∀ h ∈ handlesOfAll bs, stock h) → beqAll as bs = true → as = bs
  | [], [], _, _, _ => rfl
  | a :: as, b :: bs, ha, hb, heq => by
    rw [handlesOfAll, List.forall_mem_append] at ha hb
    rw [beqAll, Bool.and_eq_true] at heq
    rw [eq_of_beq hstock a b ha.1 hb.1 heq.1, all_eq_of_beq hstock as bs ha.2 hb.2 heq.2]
  | [], _ :: _, _, _, heq => by cases heq
  | _ :: _, [], _, _, heq => by cases heq

end

theorem faithful_reference (hstock : Coherent stock) : Faithful stock TypeReference.handles :=
  TypeReference.eq_of_beq hstock

theorem faithful_parameter (hstock : Coherent stock) : Faithful stock Parameter.handles := by
  intro p q hp hq heq
  obtain ⟨_, _, _, type, _, _⟩ := p
  obtain ⟨_, _, _, type', _, _⟩ := q
  change instBEqParameter.beq _ _ = true at heq
  simp only [instBEqParameter.beq, Bool.and_eq_true, beq_iff_eq] at heq
  obtain ⟨rfl, rfl, rfl, htype, rfl, rfl⟩ := heq
  obtain rfl : type = type' := (faithful_reference hstock).option hp hq htype
  rfl

theorem faithful_parameters (hstock : Coherent stock) : Faithful stock Parameters.handles := by
  intro ps qs hps hqs heq
  obtain ⟨slots⟩ := ps
  obtain ⟨slots'⟩ := qs
  change instBEqParameters.beq _ _ = true at heq
  simp only [instBEqParameters.beq] at heq
  obtain rfl : slots = slots' := (faithful_parameter hstock).table hps hqs heq
  rfl

theorem faithful_property (hstock : Coherent stock) : Faithful stock Property.handles := by
  intro p q hp hq heq
  obtain ⟨_, _, type, _, _, _, _⟩ := p
  obtain ⟨_, _, type', _, _, _, _⟩ := q
  change instBEqProperty.beq _ _ = true at heq
  simp only [instBEqProperty.beq, Bool.and_eq_true, beq_iff_eq] at heq
  obtain ⟨rfl, rfl, htype, rfl, rfl, rfl, rfl⟩ := heq
  obtain rfl : type = type' := (faithful_reference hstock).option hp hq htype
  rfl

theorem faithful_method (hstock : Coherent stock) : Faithful stock Method.handles := by
  intro m n hm hn heq
  obtain ⟨_, _, ps, type, list, _, _, _, _, _⟩ := m
  obtain ⟨_, _, qs, type', list', _, _, _, _, _⟩ := n
  change instBEqMethod.beq _ _ = true at heq
  simp only [instBEqMethod.beq, Bool.and_eq_true, beq_iff_eq] at heq
  simp only [Method.handles, List.forall_mem_append] at hm hn
  obtain ⟨⟨hlist, htype⟩, hps⟩ := hm
  obtain ⟨⟨hlist', htype'⟩, hqs⟩ := hn
  obtain ⟨rfl, rfl, hparameters, hreturn, hgeneric, rfl, rfl, rfl, rfl, rfl⟩ := heq
  obtain rfl : ps = qs := faithful_parameters hstock hps hqs hparameters
  obtain rfl : type = type' := (faithful_reference hstock).option htype htype' hreturn
  obtain rfl : list = list' := faithful_typeParameters hstock hlist hlist' hgeneric
  rfl

theorem faithful_constructor (hstock : Coherent stock) : Faithful stock Constructor.handles := by
  intro k l hk hl heq
  obtain ⟨_, ps⟩ := k
  obtain ⟨_, qs⟩ := l
  change instBEqConstructor.beq _ _ = true at heq
  simp only [instBEqConstructor.beq, Bool.and_eq_true, beq_iff_eq] at heq
  obtain ⟨rfl, hparameters⟩ := heq
  obtain rfl : ps = qs := faithful_parameters hstock hk hl hparameters
  rfl

theorem faithful_variable (hstock : Coherent stock) : Faithful stock Variable.handles := by
  intro v w hv hw heq
  obtain ⟨_, _, type, _⟩ := v
  obtain ⟨_, _, type', _⟩ := w
  change instBEqVariable.beq _ _ = true at heq
  simp only [instBEqVariable.beq, Bool.and_eq_true, beq_iff_eq] at heq
  obtain ⟨rfl, rfl, htype, rfl⟩ := heq
  obtain rfl : type = type' := (faithful_reference hstock).option hv hw htype
  rfl

theorem faithful_function (hstock : Coherent stock) : Faithful stock Function.handles := by
  intro f g hf hg heq
  obtain ⟨_, _, ps, type, list, _, _⟩ := f
  obtain ⟨_, _, qs, type', list', _, _⟩ := g
  change instBEqFunction.beq _ _ = true at heq
  simp only [instBEqFunction.beq, Bool.and_eq_true, beq_iff_eq] at heq
  simp only [Function.handles, List.forall_mem_append] at hf hg
  obtain ⟨⟨hlist, htype⟩, hps⟩ := hf
  obtain ⟨⟨hlist', htype'⟩, hqs⟩ := hg
  obtain ⟨rfl, rfl, hparameters, hreturn, hgeneric, rfl, rfl⟩ := heq
  obtain rfl : ps = qs := faithful_parameters hstock hps hqs hparameters
  obtain rfl : type = type' := (faithful_reference hstock).option htype htype' hreturn
  obtain rfl : list = list' := faithful_typeParameters hstock hlist hlist' hgeneric
  rfl

theorem faithful_class (hstock : Coherent stock) : Faithful stock Class.handles := by
  intro c d hc hd heq
  obtain ⟨_, _, own, ps, ms, k, type, types, _, list⟩ := c
  obtain ⟨_, _, own', ps', ms', k', type', types', _, list'⟩ := d
  change instBEqClass.beq _ _ = true at heq
  simp only [instBEqClass.beq, Bool.and_eq_true, beq_iff_eq] at heq
  simp only [Class.handles, List.forall_mem_append] at hc hd
  obtain ⟨⟨⟨⟨⟨⟨hown, hlist⟩, htype⟩, htypes⟩, hps⟩, hms⟩, hk⟩ := hc
  obtain ⟨⟨⟨⟨⟨⟨hown', hlist'⟩, htype'⟩, htypes'⟩, hps'⟩, hms'⟩, hk'⟩ := hd
  obtain ⟨rfl, rfl, hhandle, hproperties, hmethods, hconstructor, hsuperclass, himplemented, rfl,
    hgeneric⟩ := heq
  obtain rfl : own = own' := faithful_own hstock hown hown' hhandle
  obtain rfl : ps = ps' := (faithful_property hstock).list hps hps' hproperties
  obtain rfl : ms = ms' := (faithful_method hstock).list hms hms' hmethods
  obtain rfl : k = k' := (faithful_constructor hstock).option hk hk' hconstructor
  obtain rfl : type = type' := (faithful_reference hstock).option htype htype' hsuperclass
  obtain rfl : types = types' :=
    (faithful_reference hstock).optionList htypes htypes' himplemented
  obtain rfl : list = list' := faithful_typeParameters hstock hlist hlist' hgeneric
  rfl

theorem faithful_interface (hstock : Coherent stock) : Faithful stock Interface.handles := by
  intro i j hi hj heq
  obtain ⟨_, _, own, ps, ms, types, list⟩ := i
  obtain ⟨_, _, own', ps', ms', types', list'⟩ := j
  change instBEqInterface.beq _ _ = true at heq
  simp only [instBEqInterface.beq, Bool.and_eq_true, beq_iff_eq] at heq
  simp only [Interface.handles, List.forall_mem_append] at hi hj
  obtain ⟨⟨⟨⟨hown, hlist⟩, htypes⟩, hps⟩, hms⟩ := hi
  obtain ⟨⟨⟨⟨hown', hlist'⟩, htypes'⟩, hps'⟩, hms'⟩ := hj
  obtain ⟨rfl, rfl, hhandle, hproperties, hmethods, hextended, hgeneric⟩ := heq
  obtain rfl : own = own' := faithful_own hstock hown hown' hhandle
  obtain rfl : ps = ps' := (faithful_property hstock).list hps hps' hproperties
  obtain rfl : ms = ms' := (faithful_method hstock).list hms hms' hmethods
  obtain rfl : types = types' := (faithful_reference hstock).optionList htypes htypes' hextended
  obtain rfl : list = list' := faithful_typeParameters hstock hlist hlist' hgeneric
  rfl

theorem faithful_entry (hstock : Coherent stock) : Faithful stock Entry.handles := by
  intro e e' he he' heq
  cases e <;> cases e'
  case class.class c c' => exact congrArg Entry.class (faithful_class hstock he he' heq)
  case interface.interface i i' =>
    exact congrArg Entry.interface (faithful_interface hstock he he' heq)
  case variable.variable v v' => exact congrArg Entry.variable (faithful_variable hstock he he' heq)
  case function.function f f' => exact congrArg Entry.function (faithful_function hstock he he' heq)
  all_goals cases heq

theorem faithful_module (hstock : Coherent stock) : Faithful stock Module.handles := by
  intro m n hm hn heq
  obtain ⟨_, _, _, _, entries⟩ := m
  obtain ⟨_, _, _, _, entries'⟩ := n
  change instBEqModule.beq _ _ = true at heq
  simp only [instBEqModule.beq, Bool.and_eq_true, beq_iff_eq] at heq
  obtain ⟨rfl, rfl, rfl, rfl, hentries⟩ := heq
  obtain rfl : entries = entries' := (faithful_entry hstock).list hm hn hentries
  rfl

theorem faithful_program (hstock : Coherent stock) : Faithful stock Program.handles := by
  intro p q hp hq heq
  obtain ⟨_, modules⟩ := p
  obtain ⟨_, modules'⟩ := q
  change instBEqProgram.beq _ _ = true at heq
  simp only [instBEqProgram.beq, Bool.and_eq_true, beq_iff_eq] at heq
  obtain ⟨rfl, hmodules⟩ := heq
  obtain rfl : modules = modules' := (faithful_module hstock).table hp hq hmodules
  rfl

theorem faithful_record (hstock : Coherent stock) : Faithful stock Record.handles := by
  intro r s hr hs heq
  cases r <;> cases s
  case program.program => exact congrArg Record.program (faithful_program hstock hr hs heq)
  case module.module => exact congrArg Record.module (faithful_module hstock hr hs heq)
  case entry.entry => exact congrArg Record.entry (faithful_entry hstock hr hs heq)
  case constructor.constructor =>
    exact congrArg Record.constructor (faithful_constructor hstock hr hs heq)
  case method.method => exact congrArg Record.method (faithful_method hstock hr hs heq)
  case property.property => exact congrArg Record.property (faithful_property hstock hr hs heq)
  case parameter.parameter => exact congrArg Record.parameter (faithful_parameter hstock hr hs heq)
  all_goals cases heq

/-- **Of values with handles of a coherent stock, `==` holds exactly of equal ones.** -/
theorem Faithful.beq_iff_eq [ReflBEq α] (hf : Faithful stock handles) {a b : α}
    (ha : ∀ h ∈ handles a, stock h) (hb : ∀ h ∈ handles b, stock h) : (a == b) = true ↔ a = b :=
  ⟨fun heq => hf ha hb heq, fun heq => heq ▸ beq_self_eq_true a⟩

end Values

end Declarations
