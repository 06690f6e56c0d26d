/-
  Declarations/Proofs/Session/Integrity.lean
  ==========================================
  **No reference leads astray.**

  A stored reference holds handles, and a handle is a number.  In a program built
  from nothing, with steps that are given names alone, every handle in a reference
  is the handle of one type, declared where the reference can see it: a type
  parameter of the record itself or of one around it, or a class or interface of the
  same module (`Session.ReferentialIntegrity`).

  What is looked up was declared by a record around (`exists_site_of_meaning?`), and
  a site keeps its handle, so a reference that was resolved once stays good
  (`Intact.advance`).  There is no second declaration under the handle, since
  handles are distinct (`Session.Distinct`).
-/
import Declarations.Proofs.Session.Resolution
import Declarations.Proofs.Session.Sites

namespace Declarations

/-- Where the type that is declared at a site can be referred to: a type parameter in
    the record that declares it, a class or interface in its module. -/
def Site.VisibleAt (site : Site) (place : Place) : Prop :=
  match site.position with
  | some _ => site.place <+: place
  | none => ∃ path i, site.place = [.module path, .entry i] ∧ [.module path] <+: place

/-- What is visible from a module is declared in it. -/
theorem Site.VisibleAt.path_eq {site : Site} {place : Place} {path path' : String}
    (hvisible : site.VisibleAt place) (hsite : [.module path] <+: site.place)
    (hplace : [.module path'] <+: place) : path = path' := by
  obtain ⟨q, position⟩ := site
  obtain ⟨rest, rfl⟩ := hsite
  obtain ⟨rest', rfl⟩ := hplace
  cases position with
  | some i => simpa using (List.cons_prefix_cons.mp hvisible).1
  | none =>
    obtain ⟨other, i, hq, hother⟩ := hvisible
    have hpath : path = other := by simpa using (List.cons.inj hq).1
    have hpath' : other = path' := by simpa using (List.cons_prefix_cons.mp hother).1
    exact hpath.trans hpath'

namespace Record

variable {root r : Record} {place : Place} {h : TypeHandle}

/-- Only the entries of a module declare types by themselves. -/
theorem place_of_handle? (hroot : root.kind = .program) (hget : root.get? place = some r)
    (hhandle : r.outline.handle? = some h) : ∃ path i, place = [.module path, .entry i] := by
  obtain ⟨e, rfl⟩ : ∃ e, r = .entry e := by
    cases r with
    | entry e => exact ⟨e, rfl⟩
    | _ => cases hhandle
  rcases place.eq_nil_or_concat with rfl | ⟨above, slot, rfl⟩
  · obtain rfl := Option.some.inj hget
    cases e <;> cases hroot
  · rw [List.concat_eq_append] at hget ⊢
    obtain ⟨owner, howner⟩ := exists_get?_of_append hget
    rw [get?_concat howner] at hget
    obtain ⟨i, m, rfl, rfl⟩ : ∃ i m, slot = .entry i ∧ owner = .module m := by
      rcases owner with _ | m | e' | _ | _ | _ | _
      case module => cases slot <;> simp [child?] at hget ⊢
      case entry => cases e' <;> cases slot <;> simp [child?] at hget
      all_goals cases slot <;> simp [child?] at hget
    rcases place_of_kind_eq_module howner rfl with rfl | ⟨path, rfl⟩
    · obtain rfl := Option.some.inj howner
      cases hroot
    · exact ⟨path, i, rfl⟩

end Record

namespace Session

variable {frames : Place → Option Nat} {start s s' : Session} {step : Step} {steps : List Step}
variable {place : Place} {r : Record} {name : String} {site : Site} {h : TypeHandle}
variable {reference : TypeReference}

/-! ## 1. What a name means was declared around -/

theorem exists_site_of_declared? (hget : s.root.get? place = some r)
    (hname : r.declared? name = some h) : ∃ site, s.handleAt? site = some h ∧ site.owner = place := by
  rcases Decidable.em (r.kind = .module) with hkind | hkind
  · obtain ⟨m, rfl⟩ := Record.exists_eq_module hkind
    obtain ⟨e, hfind, hhandle⟩ := Option.bind_eq_some_iff.mp hname
    obtain ⟨i, hi⟩ := List.getElem?_of_mem (List.mem_reverse.mp (List.mem_of_find?_eq_some hfind))
    have hchild : s.root.get? (place ++ [.entry i]) = some (.entry e) := by
      rw [Record.get?_concat hget, Record.child?, hi, Option.map_some]
    exact ⟨⟨place ++ [.entry i], none⟩, by rw [handleAt?_eq_of_get? hchild]; exact hhandle,
      List.dropLast_concat⟩
  · rw [Record.declared?_of_kind_ne_module hkind] at hname
    obtain ⟨i, hi⟩ := List.getElem?_of_mem (List.mem_reverse.mp (List.mem_of_find?_eq_some hname))
    exact ⟨⟨place, some i⟩, (handleAt?_eq_of_get? hget).trans hi, rfl⟩

/-- What a name means at a place is declared there or around it. -/
theorem exists_site_of_meaning? (hmeaning : s.meaning? place name = some h) :
    ∃ site, s.handleAt? site = some h ∧ site.owner <+: place := by
  obtain ⟨r, hmem, hname⟩ := List.exists_of_findSome?_eq_some hmeaning
  obtain ⟨q, hprefix, hget⟩ : ∃ q, q <+: place ∧ s.root.get? q = some r := by
    rcases List.mem_append.mp hmem with hmem | hmem
    · exact ⟨place, List.prefix_rfl, Option.mem_toList.mp hmem⟩
    · obtain ⟨q, slot, hprefix, hget⟩ := Record.mem_enclosing hmem
      exact ⟨q, (List.prefix_append q [slot]).trans hprefix, hget⟩
  obtain ⟨site, hsite, rfl⟩ := exists_site_of_declared? hget hname
  exact ⟨site, hsite, hprefix⟩

/-! ## 2. References stay good -/

/-- Every handle in a stored reference is declared at the place or around it. -/
def Intact (s : Session) : Prop :=
  ∀ place references, s.root.view Record.references place = some references →
    ∀ reference ∈ references, ∀ h ∈ reference.handles,
      ∃ site, s.handleAt? site = some h ∧ site.owner <+: place

/-- References that were there and references to what is declared around are good. -/
theorem Intact.of_grows (hintact : s.Intact) (hgrows : s.Grows s')
    (hnew : ∀ {place references}, s'.root.view Record.references place = some references →
      s.root.view Record.references place = some references ∨
        ∀ reference ∈ references,
          (∃ old, s.root.view Record.references place = some old ∧ reference ∈ old) ∨
            ∀ h ∈ reference.handles, ∃ site, s.handleAt? site = some h ∧ site.owner <+: place) :
    s'.Intact := by
  have hkept : ∀ {place : Place} {h}, (∃ site, s.handleAt? site = some h ∧ site.owner <+: place) →
      ∃ site, s'.handleAt? site = some h ∧ site.owner <+: place :=
    fun ⟨site, hsite, howner⟩ => ⟨site, hgrows.kept hsite, howner⟩
  intro place references hview reference hmem h hh
  rcases hnew hview with hold | hnew
  · exact hkept (hintact _ _ hold reference hmem h hh)
  · rcases hnew reference hmem with ⟨old, hold, hmem⟩ | hdeclared
    · exact hkept (hintact _ _ hold reference hmem h hh)
    · exact hkept (hdeclared h hh)

theorem Intact.of_view_eq (hintact : s.Intact) (hgrows : s.Grows s')
    (hview : s'.root.view Record.references = s.root.view Record.references) : s'.Intact :=
  hintact.of_grows hgrows fun h => Or.inl (hview ▸ h)

/-- What a step that is given names stores is declared around. -/
theorem Scoped.declared_of_revise? {draft : Draft} {r r' : Record} (hscoped : Scoped frames s)
    (hnames : step.UsesNames) (hmem : draft ∈ s.drafts)
    (hrevise : r.revise? (s.workspace.lookup draft.scope) step = some r')
    (hreference : reference ∈ r'.references) :
    reference ∈ r.references ∨
      ∀ h ∈ reference.handles, ∃ site, s.handleAt? site = some h ∧ site.owner <+: draft.place := by
  refine (Record.mem_references_of_revise? hrevise hreference).imp_right ?_
  rintro ⟨given, hgiven, rfl⟩ h hh
  rcases TypeReference.mem_handles_resolve given hh with hh | ⟨name, hlookup⟩
  · rw [hnames.1 given hgiven] at hh
    simp at hh
  · rw [hscoped.lookup_eq (hscoped.drafts hmem)] at hlookup
    exact exists_site_of_meaning? hlookup

/-- **A step that is given names keeps all references good.** -/
theorem Intact.advance (hintact : s.Intact) (hscoped : Scoped frames s) (hnames : step.UsesNames)
    (hadvance : s.Advance step s') : s'.Intact := by
  have hgrows := hadvance.grows hnames
  cases hadvance with
  | moduleOpened p path m id lineage scope workspace hdrafts hroot hmodule hregister hscope =>
    have hprogram : (Record.program { p with modules := p.modules.insert path { m with id } }
        ).references = (Record.program p).references := rfl
    apply hintact.of_grows hgrows
    intro place references hview
    rw [Record.view_insertModule Record.shallow_references p path m hmodule, hprogram,
      Record.update_view_self _ (Record.get?_nil (.program p)), ← hroot] at hview
    rcases Place.update_eq_some_iff.mp hview with ⟨-, rfl⟩ | ⟨-, hold⟩
    · exact Or.inr (by simp [Record.references])
    · exact Or.inl hold
  | childReopened => exact hintact.of_view_eq hgrows rfl
  | childDeclared draft rest d owner slot handle declared scope workspace hdrafts howner hslot
      hempty hdeclared henter =>
    apply hintact.of_grows hgrows
    intro place references hview
    rw [Record.view_replace_put Record.shallow_references howner
      (Record.hasSlot_of_slotFor? hslot) hempty (Record.accepts_of_slotFor? hslot (by simp))
      (Record.child?_withId_bare d handle _), Record.references_put,
      Record.update_view_self _ howner, Record.references_withId_bare] at hview
    rcases Place.update_eq_some_iff.mp hview with ⟨-, rfl⟩ | ⟨-, hold⟩
    · exact Or.inr (by simp)
    · exact Or.inl hold
  | closed => exact hintact.of_view_eq hgrows rfl
  | typeParametersAdded draft rest r r' old parameters handles workspace hdrafts hrecord hold
      hdeclared hnew =>
    obtain ⟨houtline, -, hchildren, -⟩ := Record.withTypeParameters?_keeps hnew
    apply hintact.of_view_eq hgrows
    rw [Record.view_replace_edited Record.shallow_references hrecord houtline hchildren,
      Record.references_withTypeParameters? hnew, Record.update_view_self _ hrecord]
  | unchanged => exact hintact
  | edited _ draft rest r r' hdrafts hrecord houtline hid hchildren htypes hrevise =>
    apply hintact.of_grows hgrows
    intro place references hview
    rw [Record.view_replace_edited Record.shallow_references hrecord houtline hchildren] at hview
    rcases Place.update_eq_some_iff.mp hview with ⟨rfl, rfl⟩ | ⟨-, hold⟩
    · refine Or.inr fun reference hreference => ?_
      exact (hscoped.declared_of_revise? hnames (hdrafts ▸ List.mem_cons_self) hrevise
        hreference).imp_left fun hmem => ⟨_, Record.view_eq_some_iff.mpr ⟨r, hrecord, rfl⟩, hmem⟩
    · exact Or.inl hold

theorem Blank.intact (hblank : start.Blank) : start.Intact := by
  intro place references hview reference hmem
  obtain ⟨r, hget, rfl⟩ := Record.view_eq_some_iff.mp hview
  obtain rfl := hblank.place_eq_nil hget
  obtain rfl := Option.some.inj hget
  rcases hblank with ⟨w, rfl⟩ | ⟨w, path, rfl⟩ <;> simp [ofProgram, ofModule, Record.references] at hmem

theorem intact_of_run? (hblank : start.Blank) (hrun : start.run? steps = some s)
    (hnames : ∀ step ∈ steps, step.UsesNames) : s.Intact := by
  have hboth := invariant_of_run?_of_mem (I := fun s => (∃ frames, Scoped frames s) ∧ s.Intact)
    ⟨hblank.scoped, hblank.intact⟩
    (fun hmem ⟨⟨_, hscoped⟩, hintact⟩ hadvance =>
      ⟨hscoped.advance hadvance, hintact.advance hscoped (hnames _ hmem) hadvance⟩) hrun
  exact hboth.2

/-! ## 3. Programs -/

theorem Advance.outline_root (hadvance : s.Advance step s') : s'.root.outline = s.root.outline := by
  cases hadvance with
  | moduleOpened p path m id lineage scope workspace hdrafts hroot => rw [hroot]; rfl
  | childDeclared draft rest d owner slot handle declared scope workspace hdrafts howner =>
    exact Record.outline_replace howner (Record.outline_put owner slot _)
  | typeParametersAdded draft rest r r' old parameters handles workspace hdrafts hrecord hold
      hdeclared hnew =>
    exact Record.outline_replace hrecord (Record.withTypeParameters?_keeps hnew).1
  | edited _ draft rest r r' hdrafts hrecord houtline => exact Record.outline_replace hrecord houtline
  | _ => rfl

theorem kind_root_of_run? (hrun : start.run? steps = some s) : s.root.kind = start.root.kind :=
  invariant_of_run? (I := fun s => s.root.kind = start.root.kind) rfl
    (fun hkind hadvance =>
      (Record.kind_eq_of_outline_eq hadvance.outline_root).trans hkind) hrun

/-- Every handle in a stored reference belongs to one declaration, which the
    reference can see. -/
structure ReferentialIntegrity (s : Session) : Prop where
  -- no two declarations have handles of one identity
  distinct {site site' : Site} {h h' : TypeHandle} : s.handleAt? site = some h →
    s.handleAt? site' = some h' → h.id = h'.id → site = site'
  -- a handle in a reference is that of a visible declaration, and of no other
  declared {place : Place} {r : Record} {reference : TypeReference} {h : TypeHandle} :
    s.root.get? place = some r → reference ∈ r.references → h ∈ reference.handles →
    ∃ site, s.handleAt? site = some h ∧ site.VisibleAt place ∧
      ∀ site' h', s.handleAt? site' = some h' → h'.id = h.id → site' = site
  -- that of a type parameter is not found outside of the record that declares it
  inside {owner place : Place} {declaring r : Record} {reference : TypeReference}
    {h h' : TypeHandle} : s.root.get? owner = some declaring →
    h ∈ declaring.typeParameters?.join.getD [] → s.root.get? place = some r →
    reference ∈ r.references → h' ∈ reference.handles → h'.id = h.id → owner <+: place
  -- and that of a type of one module not in another module
  within {path path' : String} {site : Site} {place : Place} {r : Record}
    {reference : TypeReference} {h h' : TypeHandle} : s.handleAt? site = some h →
    [.module path] <+: site.place → s.root.get? place = some r → [.module path'] <+: place →
    reference ∈ r.references → h' ∈ reference.handles → h'.id = h.id → path = path'

theorem visibleAt_of_owner_prefix (hroot : s.root.kind = .program)
    (hsite : s.handleAt? site = some h) (howner : site.owner <+: place) :
    site.VisibleAt place := by
  obtain ⟨q, position⟩ := site
  cases position with
  | some i => exact howner
  | none =>
    obtain ⟨r, hget, hhandle⟩ := Option.bind_eq_some_iff.mp hsite
    obtain ⟨path, i, rfl⟩ := Record.place_of_handle? hroot hget hhandle
    exact ⟨path, i, rfl, howner⟩

/-- **In a program that is built from nothing by steps that are given names, every
    handle in a stored reference is that of exactly one declaration, which is visible
    from the reference.** -/
theorem referentialIntegrity_of_run? {w : Workspace} (hrun : (ofProgram w {}).run? steps = some s)
    (hnames : ∀ step ∈ steps, step.UsesNames) : s.ReferentialIntegrity := by
  have hblank : (ofProgram w {}).Blank := Or.inl ⟨w, rfl⟩
  have hroot : s.root.kind = .program := kind_root_of_run? hrun
  have hdistinct := distinct_of_run? hblank hrun hnames
  have hintact := intact_of_run? hblank hrun hnames
  -- the declaration of a handle that a reference holds
  have hdeclared : ∀ {place r reference} {h h' : TypeHandle} {site}, s.root.get? place = some r →
      reference ∈ r.references → h' ∈ reference.handles → s.handleAt? site = some h →
      h'.id = h.id → site.VisibleAt place := by
    intro place r reference h h' site hget hreference hh' hsite hid
    obtain ⟨site', hsite', howner⟩ := hintact place _ (Record.view_eq_some_iff.mpr ⟨r, hget, rfl⟩)
      reference hreference h' hh'
    obtain rfl := hdistinct.unique hsite' hsite hid
    exact visibleAt_of_owner_prefix hroot hsite howner
  constructor
  case distinct => exact hdistinct.unique
  case declared =>
    intro place r reference h hget hreference hh
    obtain ⟨site, hsite, howner⟩ := hintact place _ (Record.view_eq_some_iff.mpr ⟨r, hget, rfl⟩)
      reference hreference h hh
    exact ⟨site, hsite, visibleAt_of_owner_prefix hroot hsite howner,
      fun site' h' hsite' hid => hdistinct.unique hsite' hsite hid⟩
  case inside =>
    intro owner place declaring r reference h h' howner hmem hget hreference hh' hid
    obtain ⟨i, hi⟩ := List.getElem?_of_mem hmem
    have hsite : s.handleAt? ⟨owner, some i⟩ = some h := (handleAt?_eq_of_get? howner).trans hi
    exact hdeclared hget hreference hh' hsite hid
  case within =>
    intro path path' site place r reference h h' hsite hpath hget hpath' hreference hh' hid
    exact (hdeclared hget hreference hh' hsite hid).path_eq hpath hpath'

/-- A property of a generic class has the type of the class, applied to the type
    parameter. -/
theorem referentialIntegrity_generic_class :
    ∃ s r, (ofProgram ∅ {}).run? [.openModule "app", .declare (.class "Box"),
        .addTypeParameters [.name "T"], .declare (.property (some "next")),
        .set .type (some ⟨.name "Box", some [⟨.name "T", none⟩]⟩)] = some s ∧
      s.root.get? [.module "app", .entry 0, .property 0] = some r ∧
      r.references.map TypeReference.handles = [[⟨1, "app::Box"⟩, ⟨2, "T"⟩]] ∧
      s.ReferentialIntegrity := by
  obtain ⟨s, r, hrun, hget, hhandles⟩ : ∃ s r,
      (ofProgram ∅ {}).run? [.openModule "app", .declare (.class "Box"),
        .addTypeParameters [.name "T"], .declare (.property (some "next")),
        .set .type (some ⟨.name "Box", some [⟨.name "T", none⟩]⟩)] = some s ∧
      s.root.get? [.module "app", .entry 0, .property 0] = some r ∧
      r.references.map TypeReference.handles = [[⟨1, "app::Box"⟩, ⟨2, "T"⟩]] :=
    ⟨_, _, rfl, rfl, rfl⟩
  exact ⟨s, r, hrun, hget, hhandles, referentialIntegrity_of_run? hrun (by decide)⟩

end Session

end Declarations
