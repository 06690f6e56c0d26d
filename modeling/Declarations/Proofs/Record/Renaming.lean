/-
  Declarations/Proofs/Record/Renaming.lean
  ========================================
  **Records under other identifiers and handles.**

  Two programs that were built alike differ in the numbers that their records and
  handles were given.  A renaming `ρ` of identifiers and `τ` of handles turns the one
  into the other, `Record.rename ρ τ`, and leaves all texts as they are, the names
  that handles are shown under included.

  Renaming commutes with all that steps ask of a record and do to it.  What a step
  writes depends on what names mean, so a revision commutes with renaming if the
  lookup is renamed as well and the step itself is given names alone
  (`revise?_rename`).
-/
import Declarations.Proofs.Record.Surface
import Declarations.Proofs.Reference.Renaming

namespace Declarations

variable {ρ ρ' : EntityId → EntityId} {τ τ' : Nat → Nat}

/-! ## 1. Renaming each kind of record -/

def Parameter.rename (ρ : EntityId → EntityId) (τ : Nat → Nat) (p : Parameter) : Parameter :=
  { p with id := ρ p.id, type := p.type.map (.rename τ) }

def Property.rename (ρ : EntityId → EntityId) (τ : Nat → Nat) (p : Property) : Property :=
  { p with id := ρ p.id, type := p.type.map (.rename τ) }

def Method.rename (ρ : EntityId → EntityId) (τ : Nat → Nat) (m : Method) : Method :=
  { m with
    id := ρ m.id
    parameters := m.parameters.map (.rename ρ τ)
    returnType := m.returnType.map (.rename τ)
    typeParameters := m.typeParameters.map (·.map (.rename τ)) }

def Constructor.rename (ρ : EntityId → EntityId) (τ : Nat → Nat) (k : Constructor) : Constructor :=
  { id := ρ k.id, parameters := k.parameters.map (.rename ρ τ) }

namespace Entry

def rename (ρ : EntityId → EntityId) (τ : Nat → Nat) : Entry → Entry
  | .class c => .class { c with
      id := ρ c.id
      handle := c.handle.map (.rename τ)
      properties := c.properties.map (.rename ρ τ)
      methods := c.methods.map (.rename ρ τ)
      constructor := c.constructor.map (.rename ρ τ)
      superclass := c.superclass.map (.rename τ)
      implemented := c.implemented.map (·.map (.rename τ))
      typeParameters := c.typeParameters.map (·.map (.rename τ)) }
  | .interface i => .interface { i with
      id := ρ i.id
      handle := i.handle.map (.rename τ)
      properties := i.properties.map (.rename ρ τ)
      methods := i.methods.map (.rename ρ τ)
      extended := i.extended.map (·.map (.rename τ))
      typeParameters := i.typeParameters.map (·.map (.rename τ)) }
  | .variable v => .variable { v with id := ρ v.id, type := v.type.map (.rename τ) }
  | .function f => .function { f with
      id := ρ f.id
      parameters := f.parameters.map (.rename ρ τ)
      returnType := f.returnType.map (.rename τ)
      typeParameters := f.typeParameters.map (·.map (.rename τ)) }

end Entry

def Module.rename (ρ : EntityId → EntityId) (τ : Nat → Nat) (m : Module) : Module :=
  { m with id := ρ m.id, entries := m.entries.map (.rename ρ τ) }

def Program.rename (ρ : EntityId → EntityId) (τ : Nat → Nat) (p : Program) : Program :=
  { id := ρ p.id, modules := p.modules.map fun _ => .rename ρ τ }

namespace Record

/-- The record with the identifiers that `ρ` gives it and all below it, and with the
    numbers that `τ` gives their handles. -/
def rename (ρ : EntityId → EntityId) (τ : Nat → Nat) : Record → Record
  | .program p => .program (p.rename ρ τ)
  | .module m => .module (m.rename ρ τ)
  | .entry e => .entry (e.rename ρ τ)
  | .constructor k => .constructor (k.rename ρ τ)
  | .method m => .method (m.rename ρ τ)
  | .property p => .property (p.rename ρ τ)
  | .parameter p => .parameter (p.rename ρ τ)

variable {r r' : Record} {slot : Slot} {d : Declaration} {place : Place} {name : String}

/-! ## 2. What renaming does to the parts of a record -/

@[simp] theorem id_rename (r : Record) : (r.rename ρ τ).id = ρ r.id := by
  rcases r with _ | _ | e | _ | _ | _ | _
  case entry => cases e <;> rfl
  all_goals rfl

@[simp] theorem kind_rename (r : Record) : (r.rename ρ τ).kind = r.kind := by
  rcases r with _ | _ | e | _ | _ | _ | _
  case entry => cases e <;> rfl
  all_goals rfl

theorem child?_rename (r : Record) (slot : Slot) :
    (r.rename ρ τ).child? slot = (r.child? slot).map (rename ρ τ) := by
  rcases r with _ | _ | e | _ | _ | _ | _
  case entry =>
    cases e <;> cases slot <;>
      simp [child?, rename, Entry.rename, Function.comp_def]
  all_goals
    cases slot <;>
      simp [child?, rename, Program.rename, Module.rename, Constructor.rename, Method.rename,
        Function.comp_def]

theorem get?_rename (r : Record) (place : Place) :
    (r.rename ρ τ).get? place = (r.get? place).map (rename ρ τ) := by
  induction place generalizing r with
  | nil => rfl
  | cons slot rest ih =>
    rw [get?_cons, get?_cons, child?_rename]
    cases r.child? slot with
    | none => rfl
    | some child => exact ih child

theorem put_rename (r : Record) (slot : Slot) (child : Record) :
    (r.put slot child).rename ρ τ = (r.rename ρ τ).put slot (child.rename ρ τ) := by
  rcases r with _ | _ | e | _ | _ | _ | _
  case entry =>
    cases e <;> cases slot <;> cases child <;>
      simp [put, rename, Entry.rename, map_fillAt_map, Parameters.map_insert]
  all_goals
    cases slot <;> cases child <;>
      simp [put, rename, Program.rename, Module.rename, Constructor.rename, Method.rename,
        map_fillAt_map, Parameters.map_insert, map_insert_map]

@[simp] theorem slotFor?_rename (r : Record) (d : Declaration) :
    (r.rename ρ τ).slotFor? d = r.slotFor? d := by
  rcases r with _ | _ | e | _ | _ | _ | _
  case entry => cases e <;> cases d <;> simp [rename, Entry.rename, slotFor?]
  all_goals cases d <;> simp [rename, Module.rename, slotFor?]

@[simp] theorem isSome_read?_rename (r : Record) (a : Attribute) :
    ((r.rename ρ τ).read? a).isSome = (r.read? a).isSome := by
  rcases r with _ | _ | e | _ | _ | _ | _
  case entry => cases e <;> cases a <;> rfl
  all_goals cases a <;> rfl

theorem typeParameters?_rename (r : Record) :
    (r.rename ρ τ).typeParameters? = r.typeParameters?.map (·.map (·.map (.rename τ))) := by
  rcases r with _ | _ | e | _ | _ | _ | _
  case entry => cases e <;> rfl
  all_goals rfl

theorem nominal?_rename (m : Module) (name : String) :
    (m.rename ρ τ).nominal? name = (m.nominal? name).map (.rename τ) := by
  have htype : ∀ e : Entry, (e.rename ρ τ).typeName? = e.typeName? := fun e => by cases e <;> rfl
  have hhandle : ∀ e : Entry, (e.rename ρ τ).handle? = e.handle?.map (.rename τ) :=
    fun e => by cases e <;> rfl
  rw [Module.nominal?, Module.nominal?, Module.rename, ← List.map_reverse, List.find?_map]
  simp only [Function.comp_def, htype]
  cases m.entries.reverse.find? fun e => e.typeName? = some name with
  | none => rfl
  | some e => exact hhandle e

theorem declared?_rename (r : Record) (name : String) :
    (r.rename ρ τ).declared? name = (r.declared? name).map (.rename τ) := by
  rcases Decidable.em (r.kind = .module) with hkind | hkind
  · obtain ⟨m, rfl⟩ := exists_eq_module hkind
    exact nominal?_rename m name
  · have hlist : (r.rename ρ τ).typeParameters?.join.getD [] =
        (r.typeParameters?.join.getD []).map (.rename τ) := by
      rw [typeParameters?_rename]
      rcases r.typeParameters? with _ | _ | handles <;> rfl
    rw [declared?_of_kind_ne_module hkind, declared?_of_kind_ne_module (by rwa [kind_rename]),
      hlist, ← List.map_reverse, List.find?_map]
    rfl

/-! ## 3. What steps do to a renamed record -/

theorem bare_rename (d : Declaration) (handle : Option TypeHandle) :
    (d.bare handle).rename (fun i => i) τ = d.bare (handle.map (.rename τ)) := by
  cases d <;> simp [Declaration.bare, rename, Entry.rename, Class.named, Interface.named] <;> rfl

theorem withId_bare_rename (d : Declaration) (handle : Option TypeHandle) (id : EntityId) :
    ((d.bare handle).withId id).rename ρ τ = (d.bare (handle.map (.rename τ))).withId (ρ id) := by
  cases d <;> rfl

theorem replace_rename (root new : Record) (place : Place) :
    (root.replace place new).rename ρ τ =
      (root.rename ρ τ).replace place (new.rename ρ τ) := by
  induction place generalizing root with
  | nil => rfl
  | cons slot rest ih =>
    rw [replace, replace, child?_rename]
    cases root.child? slot with
    | none => rfl
    | some child =>
      dsimp only [Option.map_some]
      rw [put_rename, ih]

theorem withTypeParameters?_rename (r : Record) (handles : Option (List TypeHandle)) :
    (r.withTypeParameters? handles).map (rename ρ τ) =
      (r.rename ρ τ).withTypeParameters? (handles.map (·.map (.rename τ))) := by
  rcases r with _ | _ | e | _ | _ | _ | _
  case entry => cases e <;> rfl
  all_goals rfl

theorem map_appendTo {α β : Type} (f : α → β) (old : Option (List α)) (new : List α) :
    (appendTo old new).map (List.map f) = appendTo (old.map (List.map f)) (new.map f) := by
  cases new <;> cases old <;> simp [appendTo]

/-- Writing what a value resolves to, if its resolution commutes with renaming. -/
theorem write?_rename {lookup lookup' : String → Option TypeHandle} (r : Record) {a : Attribute}
    {value : a.Value} (hresolve : ∀ reference ∈ (Step.set a (some value)).references,
      (reference.resolve lookup).rename τ = reference.resolve lookup') :
    (r.write? a (some (a.resolve lookup value))).map (rename ρ τ) =
      (r.rename ρ τ).write? a (some (a.resolve lookup' value)) := by
  rcases r with _ | _ | e | _ | _ | _ | _
  case entry =>
    cases e <;> cases a <;>
      simp_all [write?, rename, Entry.rename, Attribute.resolve, Step.references]
  all_goals
    cases a <;>
      simp_all [write?, rename, Method.rename, Property.rename, Parameter.rename,
        Attribute.resolve, Step.references]

/-- Revising a record and renaming it is renaming it and revising it, if resolution
    commutes with renaming for all that the step is given. -/
theorem revise?_rename_of_resolve {step : Step} {lookup lookup' : String → Option TypeHandle}
    (hresolve : ∀ reference ∈ step.references,
      (reference.resolve lookup).rename τ = reference.resolve lookup') (r : Record) :
    (r.revise? lookup step).map (rename ρ τ) = (r.rename ρ τ).revise? lookup' step := by
  have hall : ∀ references : List TypeReference,
      (∀ reference ∈ references, reference ∈ step.references) →
      (references.map (TypeReference.resolve lookup)).map (.rename τ) =
        references.map (TypeReference.resolve lookup') := by
    intro references hgiven
    rw [List.map_map]
    exact List.map_congr_left fun reference hmem => hresolve reference (hgiven reference hmem)
  cases step with
  | set a value =>
    rw [revise?, revise?]
    cases hvalue : value.filter a.isPresent with
    | none => rfl
    | some given =>
      obtain ⟨rfl, -⟩ := Option.filter_eq_some_iff.mp hvalue
      exact write?_rename r hresolve
  | addImplements references =>
    have hgiven := hall references fun _ hmem => hmem
    rcases r with _ | _ | e | _ | _ | _ | _
    case entry =>
      cases e with
      | «class» c => simp [revise?, rename, Entry.rename, map_appendTo, ← hgiven]
      | _ => rfl
    all_goals rfl
  | addExtends references =>
    have hgiven := hall references fun _ hmem => hmem
    rcases r with _ | _ | e | _ | _ | _ | _
    case entry =>
      cases e with
      | interface i => simp [revise?, rename, Entry.rename, map_appendTo, ← hgiven]
      | _ => rfl
    all_goals rfl
  | _ =>
    rcases r with _ | _ | e | _ | _ | _ | _
    case entry => cases e <;> rfl
    all_goals rfl

/-- **Revising a record and renaming it is renaming it and revising it under renamed
    meanings.** -/
theorem revise?_rename {step : Step} (hnames : step.UsesNames) (r : Record)
    (lookup : String → Option TypeHandle) :
    (r.revise? lookup step).map (rename ρ τ) =
      (r.rename ρ τ).revise? (fun name => (lookup name).map (.rename τ)) step :=
  revise?_rename_of_resolve
    (fun reference hmem => TypeReference.rename_resolve reference (hnames.1 reference hmem)) r

/-- Where handles stay, a revision commutes with renaming whatever the step is given. -/
theorem revise?_rename_ids (r : Record) (lookup : String → Option TypeHandle) (step : Step) :
    (r.revise? lookup step).map (rename ρ fun i => i) =
      (r.rename ρ fun i => i).revise? lookup step :=
  revise?_rename_of_resolve (fun _ _ => TypeReference.rename_self _) r

theorem blank_rename (r : Record) :
    (r.rename ρ τ).blank = r.blank.rename (fun i => i) τ := by
  rcases r with _ | _ | e | _ | _ | _ | _
  case entry => cases e <;> rfl
  all_goals rfl

/-- The surface of a renamed record is the renamed surface. -/
theorem surface_rename (r : Record) :
    (r.rename ρ τ).surface = r.surface.rename (fun i => i) τ := by
  have hparameters : ∀ ps : Parameters, (ps.map (.rename ρ τ)).map (fun _ => {}) =
      (ps.map fun _ => {}).map (.rename (fun i => i) τ) := by
    intro ps
    ext1 index
    simp only [Parameters.get?_map, Option.map_map]
    rfl
  rcases r with p | m | e | _ | _ | _ | _
  case program =>
    apply congrArg Record.program
    apply congrArg (Program.mk .unassigned)
    apply Std.ExtTreeMap.ext_getElem?
    intro path
    simp only [Program.rename, Std.ExtTreeMap.getElem?_map, Option.map_map]
    rfl
  case module =>
    have hentries : (m.entries.map (.rename ρ τ)).map Entry.blank =
        (m.entries.map Entry.blank).map (.rename (fun i => i) τ) := by
      simp only [List.map_map]
      exact List.map_congr_left fun e _ => entry.inj (blank_rename (.entry e))
    simp only [rename, Module.rename, surface, hentries]
  case entry =>
    have hproperty : ({} : Property) = Property.rename (fun i => i) τ {} := rfl
    have hmethod : ({} : Method) = Method.rename (fun i => i) τ {} := rfl
    have hconstructor : ({} : Constructor) = Constructor.rename (fun i => i) τ {} := rfl
    cases e <;>
      simp [rename, Entry.rename, surface, hparameters, Function.comp_def, ← hproperty, ← hmethod,
        ← hconstructor]
  all_goals
    simp [rename, Method.rename, Constructor.rename, Property.rename, Parameter.rename, surface,
      hparameters]

end Record

/-! ## 4. Renaming to and fro -/

theorem Parameters.map_map (change change' : Parameter → Parameter) (ps : Parameters) :
    (ps.map change).map change' = ps.map (change' ∘ change) := by
  ext1 index
  simp

theorem Parameters.map_self (ps : Parameters) : ps.map (fun p => p) = ps := by
  ext1 index
  simp

theorem Parameter.rename_rename (p : Parameter) :
    (p.rename ρ τ).rename ρ' τ' = p.rename (ρ' ∘ ρ) (τ' ∘ τ) := by
  simp [rename, Function.comp_def]

theorem Property.rename_rename (p : Property) :
    (p.rename ρ τ).rename ρ' τ' = p.rename (ρ' ∘ ρ) (τ' ∘ τ) := by
  simp [rename, Function.comp_def]

theorem Method.rename_rename (m : Method) :
    (m.rename ρ τ).rename ρ' τ' = m.rename (ρ' ∘ ρ) (τ' ∘ τ) := by
  simp [rename, Function.comp_def, Parameters.map_map, Parameter.rename_rename]

theorem Constructor.rename_rename (k : Constructor) :
    (k.rename ρ τ).rename ρ' τ' = k.rename (ρ' ∘ ρ) (τ' ∘ τ) := by
  simp [rename, Function.comp_def, Parameters.map_map, Parameter.rename_rename]

theorem Entry.rename_rename (e : Entry) :
    (e.rename ρ τ).rename ρ' τ' = e.rename (ρ' ∘ ρ) (τ' ∘ τ) := by
  cases e <;>
    simp [rename, Function.comp_def, Parameters.map_map, Parameter.rename_rename,
      Property.rename_rename, Method.rename_rename, Constructor.rename_rename]

theorem Module.rename_rename (m : Module) :
    (m.rename ρ τ).rename ρ' τ' = m.rename (ρ' ∘ ρ) (τ' ∘ τ) := by
  simp [rename, Function.comp_def, Entry.rename_rename]

theorem Program.rename_rename (p : Program) :
    (p.rename ρ τ).rename ρ' τ' = p.rename (ρ' ∘ ρ) (τ' ∘ τ) := by
  have hmodules : ((p.modules.map fun _ => Module.rename ρ τ).map fun _ => Module.rename ρ' τ') =
      p.modules.map fun _ => Module.rename (ρ' ∘ ρ) (τ' ∘ τ) := by
    apply Std.ExtTreeMap.ext_getElem?
    intro path
    simp [Function.comp_def, Module.rename_rename]
  simp [rename, hmodules]

theorem Parameter.rename_self : Parameter.rename (fun i => i) (fun i => i) = fun p => p := by
  funext p
  simp [rename, funext TypeReference.rename_self]

theorem Property.rename_self : Property.rename (fun i => i) (fun i => i) = fun p => p := by
  funext p
  simp [rename, funext TypeReference.rename_self]

theorem Method.rename_self : Method.rename (fun i => i) (fun i => i) = fun m => m := by
  funext m
  simp [rename, Parameter.rename_self, Parameters.map_self, funext TypeReference.rename_self,
    funext TypeHandle.rename_self]

theorem Constructor.rename_self : Constructor.rename (fun i => i) (fun i => i) = fun k => k := by
  funext k
  simp [rename, Parameter.rename_self, Parameters.map_self]

theorem Entry.rename_self : Entry.rename (fun i => i) (fun i => i) = fun e => e := by
  funext e
  cases e <;>
    simp [rename, Parameter.rename_self, Parameters.map_self, Property.rename_self,
      Method.rename_self, Constructor.rename_self, funext TypeReference.rename_self,
      funext TypeHandle.rename_self]

theorem Module.rename_self : Module.rename (fun i => i) (fun i => i) = fun m => m := by
  funext m
  simp [rename, Entry.rename_self]

theorem Program.rename_self (p : Program) : p.rename (fun i => i) (fun i => i) = p := by
  have hmodules : (p.modules.map fun _ => Module.rename (fun i => i) (fun i => i)) = p.modules := by
    apply Std.ExtTreeMap.ext_getElem?
    intro path
    simp [Module.rename_self]
  rw [rename, hmodules]

namespace Record

@[simp] theorem rename_self (r : Record) : r.rename (fun i => i) (fun i => i) = r := by
  cases r <;>
    simp [rename, Program.rename_self, Module.rename_self, Entry.rename_self,
      Constructor.rename_self, Method.rename_self, Property.rename_self, Parameter.rename_self]

@[simp] theorem rename_rename (r : Record) :
    (r.rename ρ τ).rename ρ' τ' = r.rename (ρ' ∘ ρ) (τ' ∘ τ) := by
  cases r <;>
    simp [rename, Program.rename_rename, Module.rename_rename, Entry.rename_rename,
      Constructor.rename_rename, Method.rename_rename, Property.rename_rename,
      Parameter.rename_rename]

/-- Records that are the same under other handles are the same. -/
theorem rename_injective (hτ : Function.Injective τ) :
    Function.Injective (rename (fun i => i) τ) := by
  obtain ⟨back, hback⟩ := hτ.hasLeftInverse
  intro r r' h
  have hcancel := congrArg (rename (fun i => i) back) h
  rw [rename_rename, rename_rename, hback.id] at hcancel
  exact (rename_self r).symm.trans (hcancel.trans (rename_self r'))

end Record

end Declarations
