import PageTemplates.Proofs.Edits

/-!
# Referential integrity

The numbers in a catalog, and the names under which components are filed.

* `Template.Orderly`, `Catalog.Orderly`   what edits keep besides soundness: registered sheets in
                     imports, no number twice in a list, hosts among the sheets of the page;
* `orderly`          the invariant;
* `Catalog.Integral` every number is a place in the right list, and tags and components are each
                     other's inverse;
* `run_integral`     the catalogs of all finished runs.
-/

namespace PageTemplates

/-! ## what edits keep -/

/-- no template and no sheet is listed twice, and the hosts are sheets of the page itself -/
structure Template.Orderly (c : Catalog) (t : Template) : Prop where
  imports : t.imports.Nodup
  sheets : t.sheets.Nodup
  hosts : ∀ h, ∀ id ∈ t.host? h, id ∈ t.sheets ∧
    ∃ sheet, c.sheets[id]? = some sheet ∧ sheet.fromComponent = false

/-- imports are listed once, and the name is in lower case -/
structure Component.Orderly (d : Component) : Prop where
  imports : d.imports.Nodup
  name : Text.lower d.name = d.name

structure Catalog.Orderly (c : Catalog) : Prop where
  main : ∀ id ∈ c.main, id ∈ c.templates.map Template.id
  imports : ∀ sheet ∈ c.sheets, ∀ id ∈ sheet.imports, id ∈ c.sheets.map Sheet.id
  templates : ∀ t ∈ c.templates, t.Orderly c
  components : ∀ d ∈ c.components, d.Orderly

theorem Catalog.Orderly.empty (siteRoot : Path) (lints : Bool) :
    (Catalog.empty siteRoot lints).Orderly :=
  ⟨fun _ h => absurd h (Option.not_mem_none _), fun _ h => absurd h List.not_mem_nil,
    fun _ h => absurd h List.not_mem_nil, fun _ h => absurd h List.not_mem_nil⟩

/-- the log is not looked at -/
theorem Catalog.Orderly.withLog {c : Catalog} (h : c.Orderly) (log : Log) :
    ({ c with log } : Catalog).Orderly :=
  ⟨h.main, h.imports, fun t hm =>
    ⟨(h.templates t hm).imports, (h.templates t hm).sheets, (h.templates t hm).hosts⟩, h.components⟩

theorem Template.Orderly.register (c : Catalog) (id : TemplateId) (l : Location) (usedFrom : Text)
    (isMain : Bool) : (Template.register id l usedFrom isMain).Orderly c := by
  refine ⟨List.nodup_nil, List.nodup_nil, ?_⟩
  intro h _ hm
  cases h <;> cases hm

/-- one of its own sheets that belongs to the page can be a host of a template -/
theorem Template.Orderly.setHost {c : Catalog} {t : Template} {host : Host} {id : SheetId}
    (h : t.Orderly c) (hown : id ∈ t.sheets)
    (hpage : ∃ sheet, c.sheets[id]? = some sheet ∧ sheet.fromComponent = false) :
    (Template.setHost host id t).Orderly c := by
  have hsheets : (Template.setHost host id t).sheets = t.sheets := by cases host <;> rfl
  refine ⟨?_, hsheets ▸ h.sheets, ?_⟩
  · cases host <;> exact h.imports
  · intro other i hi
    rw [hsheets]
    rw [Declarations.host?_setHost] at hi
    by_cases hh : host = other
    · rw [if_pos hh] at hi
      rw [← Option.some.inj hi]
      exact ⟨hown, hpage⟩
    · rw [if_neg hh] at hi
      exact h.hosts other i hi

theorem Declarations.nodup_addOnce {n : Nat} {ns : List Nat} (h : ns.Nodup) :
    (addOnce n ns).Nodup := by
  unfold addOnce
  split
  · exact h
  · next hnew =>
    exact List.nodup_append.2 ⟨h, List.nodup_singleton _, fun _ ha _ hb hab =>
      hnew (List.mem_singleton.1 hb ▸ hab ▸ ha)⟩

theorem Declarations.subset_addOnce (n : Nat) (ns : List Nat) : ns ⊆ addOnce n ns := by
  unfold addOnce
  split
  · exact fun _ h => h
  · exact fun _ h => List.mem_append_left _ h

namespace Session
open Declarations (Move)

variable {s s' : Session}

theorem orderly_mono (hg : s.Grows s') {t : Template} (h : t.Orderly s.catalog) :
    t.Orderly s'.catalog :=
  ⟨h.imports, h.sheets, fun host id hid =>
    ⟨(h.hosts host id hid).1, hg.page (h.hosts host id hid).2⟩⟩

/-- a session that has grown is orderly if what is new or changed in it is -/
theorem orderly_of_grows (h : s.catalog.Orderly) (hg : s.Grows s')
    (hmain : s'.catalog.main = s.catalog.main ∨
      ∀ id ∈ s'.catalog.main, id ∈ s'.catalog.templates.map Template.id)
    (hsheets : ∀ sheet ∈ s'.catalog.sheets, sheet ∈ s.catalog.sheets ∨
      ∀ id ∈ sheet.imports, id ∈ s'.catalog.sheets.map Sheet.id)
    (htemplates : ∀ t ∈ s'.catalog.templates, t.Orderly s.catalog ∨ t.Orderly s'.catalog)
    (hcomponents : ∀ d ∈ s'.catalog.components, d.Orderly) : s'.catalog.Orderly := by
  refine ⟨?_, ?_, ?_, hcomponents⟩
  · intro id hid
    rcases hmain with hmain | hmain
    · exact hg.template_mem (h.main id (hmain ▸ hid))
    · exact hmain id hid
  · intro sheet hm id hid
    rcases hsheets sheet hm with hold | hnew
    · exact hg.sheet_mem (h.imports sheet hold id hid)
    · exact hnew id hid
  · intro t hm
    rcases htemplates t hm with ht | ht
    · exact orderly_mono hg ht
    · exact ht

theorem modifyTemplate_orderly (h : s.catalog.Orderly) (id : TemplateId) (f : Template → Template)
    (hplace : ∀ t, (f t).place = t.place)
    (hf : ∀ t, s.catalog.templates[id]? = some t → t.Orderly s.catalog →
      (f t).Orderly s.catalog) : (s.mapCatalog (·.modifyTemplate id f)).catalog.Orderly := by
  refine orderly_of_grows h (modifyTemplate_grows s id f hplace) (.inl rfl)
    (fun _ hm => .inl hm) ?_ h.components
  intro t hm
  obtain ⟨i, hi⟩ := List.mem_iff_getElem?.1 hm
  obtain ⟨b, hb, ⟨rfl, rfl⟩ | ⟨_, rfl⟩⟩ := getElem?_modify_eq_some hi
  · exact .inl (hf b hb (h.templates b (List.mem_of_getElem? hb)))
  · exact .inl (h.templates _ (List.mem_of_getElem? hb))

theorem modifySheet_orderly (h : s.catalog.Orderly) (id : SheetId) (f : Sheet → Sheet)
    (hplace : ∀ sheet, (f sheet).place = sheet.place)
    (hf : ∀ sheet ∈ s.catalog.sheets, ∀ i ∈ (f sheet).imports, i ∈ sheet.imports ∨
      i ∈ s.catalog.sheets.map Sheet.id) :
    (s.mapCatalog (·.modifySheet id f)).catalog.Orderly := by
  have hg := modifySheet_grows s id f hplace
  refine orderly_of_grows h hg (.inl rfl) ?_ (fun t hm => .inl (h.templates t hm)) h.components
  intro sheet hm
  rcases mem_modify hm with hm | ⟨b, hb, rfl⟩
  · exact .inl hm
  · refine .inr fun i hi => hg.sheet_mem ?_
    rcases hf b hb i hi with hold | hnew
    · exact h.imports b hb i hold
    · exact hnew

theorem modifyComponent_orderly (h : s.catalog.Orderly) (id : ComponentId)
    (f : Component → Component) (hplace : ∀ d, (f d).place = d.place)
    (hf : ∀ d, d.Orderly → (f d).Orderly) :
    (s.mapCatalog (·.modifyComponent id f)).catalog.Orderly := by
  refine orderly_of_grows h (modifyComponent_grows s id f hplace) (.inl rfl)
    (fun _ hm => .inl hm) (fun t hm => .inl (h.templates t hm)) ?_
  intro d hm
  rcases mem_modify hm with hm | ⟨b, hb, rfl⟩
  · exact h.components d hm
  · exact hf b (h.components b hb)

/-- one more sheet, which imports nothing yet -/
theorem concatSheet_orderly (h : s.catalog.Orderly) {sheet : Sheet} (hg : s.Grows s')
    (himports : sheet.imports = []) (hs : s'.catalog.sheets = s.catalog.sheets ++ [sheet])
    (ht : s'.catalog.templates = s.catalog.templates)
    (hd : s'.catalog.components = s.catalog.components)
    (hmain : s'.catalog.main = s.catalog.main) : s'.catalog.Orderly := by
  refine orderly_of_grows h hg (.inl hmain) ?_ (fun t hm => .inl (h.templates t (ht ▸ hm)))
    (hd ▸ h.components)
  intro other hm
  rw [hs] at hm
  rcases List.mem_append.1 hm with hm | hm
  · exact .inl hm
  · refine .inr fun i hi => ?_
    rw [List.mem_singleton.1 hm, himports] at hi
    exact absurd hi List.not_mem_nil

theorem edit_orderly {env : Env} {w w' : Option Filling} (e : Edit env w s w' s')
    (h : s.catalog.Orderly) : s'.catalog.Orderly := by
  cases e with
  | warn file faults => exact h.withLog _
  | note c => exact h
  | main id registered =>
    have hg : s.Grows _ := .mapCatalog s (fun c => { c with main := some id }) rfl rfl rfl
    refine orderly_of_grows h hg (.inr fun i hi => Option.some.inj hi ▸ registered)
      (fun _ hm => .inl hm) (fun t hm => .inl (h.templates t hm)) h.components
  | mentionTemplate id usedFrom =>
    exact modifyTemplate_orderly h id _ (fun _ => rfl)
      (fun _ _ ht => ⟨ht.imports, ht.sheets, ht.hosts⟩)
  | newTemplate l usedFrom isMain =>
    refine orderly_of_grows h (newTemplate_grows s l usedFrom isMain) (.inl rfl)
      (fun _ hm => .inl hm) ?_ h.components
    intro t hm
    rcases List.mem_append.1 hm with hm | hm
    · exact .inl (h.templates t hm)
    · exact .inl (List.mem_singleton.1 hm ▸ .register ..)
  | mentionSheet id usedFrom =>
    exact modifySheet_orderly h id _ (fun _ => rfl) (fun _ _ _ hi => .inl hi)
  | newSheet l usedFrom =>
    exact concatSheet_orderly h (newSheet_grows s l usedFrom) rfl rfl rfl rfl rfl
  | newInline source origin fromComponent =>
    exact concatSheet_orderly h ((Grows.note s _).trans (registerInline_grows _ _ _))
      rfl rfl rfl rfl rfl
  | takeSheet id queue sheet => exact h
  | failSheet f sheet p =>
    have h1 := modifySheet_orderly h f.id (fun sheet => { sheet with status := .failed })
      (fun _ => rfl) (fun _ _ _ hi => .inl hi)
    exact h1.withLog _
  | fillSheet f sheet ast ids _ _ _ registered =>
    exact modifySheet_orderly h f.id _ (fun _ => rfl) (fun _ _ i hi => .inr (registered i hi))
  | failTemplate t queue p =>
    have h1 := modifyTemplate_orderly (s := s.taken queue t.location) h t.id
      (fun t => { t with status := .failed }) (fun _ => rfl)
      (fun _ _ ht => ⟨ht.imports, ht.sheets, ht.hosts⟩)
    exact h1.withLog _
  | takeTemplate t queue fragment =>
    exact modifyTemplate_orderly (s := s.taken queue t.location) h t.id _ (fun _ => rfl)
      (fun _ _ ht => ⟨ht.imports, ht.sheets, ht.hosts⟩)

theorem move_orderly {env : Env} {o : Origin} (m : Move env o s s')
    (hcall : ∀ c, (s.call env c).catalog.Orderly) (h : s.catalog.Orderly) : s'.catalog.Orderly := by
  -- a change of the template at hand
  have change (f : Template → Template) (hplace : ∀ t, (f t).place = t.place)
      (hf : ∀ t, s.catalog.templates[o.template]? = some t → t.Orderly s.catalog →
        (f t).Orderly s.catalog) : (Declarations.modifyTemplate o f s).catalog.Orderly :=
    modifyTemplate_orderly h o.template f hplace hf
  cases m with
  | report p => exact h.withLog _
  | declare name params t _ _ _ lower =>
    refine orderly_of_grows h (Declarations.declared_grows o s name params) (.inl rfl)
      (fun _ hm => .inl hm) ?_ ?_
    · intro t hm
      rcases mem_modify hm with hm | ⟨b, hb, rfl⟩
      · exact .inl (h.templates t hm)
      · have hb := h.templates b hb
        exact .inl ⟨hb.imports, hb.sheets, hb.hosts⟩
    · intro d hm
      rcases List.mem_append.1 hm with hm | hm
      · exact h.components d hm
      · rw [List.mem_singleton.1 hm]
        exact ⟨List.nodup_nil, lower⟩
  | body id body =>
    exact modifyComponent_orderly h id _ (fun _ => rfl) (fun _ hd => ⟨hd.imports, hd.name⟩)
  | useTemplate reference => exact hcall (.template reference o.location)
  | importSheet url => exact hcall (.sheet url o.location)
  | inlineSheet source => exact hcall (.inline source o.location !o.isMain)
  | fileImport id =>
    exact change _ (fun _ => rfl)
      (fun _ _ ht => ⟨Declarations.nodup_addOnce ht.imports, ht.sheets, ht.hosts⟩)
  | componentImport owner id =>
    exact modifyComponent_orderly h owner _ (fun _ => rfl)
      (fun _ hd => ⟨Declarations.nodup_addOnce hd.imports, hd.name⟩)
  | sheet id =>
    refine change _ (fun _ => rfl) ?_
    intro t _ ht
    exact ⟨ht.imports, Declarations.nodup_addOnce ht.sheets, fun host i hi =>
      ⟨Declarations.subset_addOnce id _ (ht.hosts host i hi).1, (ht.hosts host i hi).2⟩⟩
  | fileLink link =>
    exact change _ (fun _ => rfl) (fun _ _ ht => ⟨ht.imports, ht.sheets, ht.hosts⟩)
  | componentLink owner link =>
    exact modifyComponent_orderly h owner _ (fun _ => rfl) (fun _ hd => ⟨hd.imports, hd.name⟩)
  | testData l => exact change _ (fun _ => rfl) (fun _ _ ht => ⟨ht.imports, ht.sheets, ht.hosts⟩)
  | host host id _ t main hostable =>
    exact change _ (Declarations.place_setHost host id) fun t ht hold =>
      hold.setHost (hostable.own t ht) (hostable.page main)

theorem orderly (env : Env) : Invariant env fun _ s => s.catalog.Orderly where
  edit e h := edit_orderly e h
  move m _ hcall h := move_orderly m hcall h

end Session

/-! ## integrity -/

/-- the numbers in a template are places -/
structure Template.InRange (c : Catalog) (t : Template) : Prop where
  tags : ∀ e ∈ t.tags.entries, e.2 < c.components.length
  imports : ∀ id ∈ t.imports, id < c.templates.length
  sheets : ∀ id ∈ t.sheets, id < c.sheets.length
  hosts : ∀ h, ∀ id ∈ t.host? h, id < c.sheets.length
  links : ∀ l ∈ t.links, l.sheet < c.sheets.length

/-- the numbers in a component are places, also those of the styles inside its body -/
structure Component.InRange (c : Catalog) (d : Component) : Prop where
  template : d.template < c.templates.length
  imports : ∀ id ∈ d.imports, id < c.templates.length
  links : ∀ l ∈ d.links, l.sheet < c.sheets.length
  styles : ∀ id ∈ BodyNode.stylesOf d.body, id < c.sheets.length

/-- a catalog whose numbers can be followed without looking whether something is there -/
structure Catalog.Integral (c : Catalog) : Prop where
  template_ids : Numbered Template.id c.templates
  sheet_ids : Numbered Sheet.id c.sheets
  component_ids : Numbered Component.id c.components
  main : ∀ id ∈ c.main, id < c.templates.length
  templates : ∀ t ∈ c.templates, t.InRange c
  sheets : ∀ sheet ∈ c.sheets, ∀ id ∈ sheet.imports, id < c.sheets.length
  components : ∀ d ∈ c.components, d.InRange c
  /-- the tags of a template are its components by their names -/
  tags : ∀ t ∈ c.templates, ∀ name id, t.tags.get? name = some id ↔
    ∃ d, c.components[id]? = some d ∧ d.template = t.id ∧ d.name = name
  /-- names are in lower case -/
  lower : ∀ t ∈ c.templates, ∀ name ∈ t.tags.names, Text.lower name = name
  template_lists : ∀ t ∈ c.templates, t.imports.Nodup ∧ t.sheets.Nodup
  component_lists : ∀ d ∈ c.components, d.imports.Nodup
  /-- a host is a sheet of its own template, and belongs to the page -/
  hosts : ∀ t ∈ c.templates, ∀ h, ∀ id ∈ t.host? h, id ∈ t.sheets ∧
    ∃ sheet, c.sheets[id]? = some sheet ∧ sheet.fromComponent = false

namespace Catalog
variable {c : Catalog}

/-- an entry of the tags and the component that it stands for -/
theorem Sound.component_of_tag (h : c.Sound) {t : Template} (ht : t ∈ c.templates)
    {e : Text × ComponentId} (he : e ∈ t.tags.entries) :
    ∃ d, c.components[e.2]? = some d ∧ d.template = t.id ∧ d.name = e.1 := by
  have hface := h.filed.tags t.face (List.mem_map_of_mem ht) e he
  rw [List.getElem?_map] at hface
  obtain ⟨d, hd, hface⟩ := Option.map_eq_some_iff.1 hface
  obtain ⟨htemplate, hname⟩ := Prod.mk.inj (Prod.mk.inj hface).2
  exact ⟨d, hd, htemplate, hname⟩

/-- a component is found under its name -/
theorem Sound.tag_of_component (h : c.Sound) {t : Template} (ht : t ∈ c.templates)
    {id : ComponentId} {d : Component} (hd : c.components[id]? = some d)
    (htemplate : d.template = t.id) : t.tags.get? d.name = some id := by
  obtain ⟨face, hface, hm⟩ :=
    h.filed.declared d.face (List.mem_map_of_mem (List.mem_of_getElem? hd))
  have hplace : (c.templates.map Template.face)[d.template]? = some t.face := by
    rw [List.getElem?_map, htemplate, h.templates.getElem?_of_mem ht, Option.map_some]
  obtain rfl := Option.some.inj (hface.symm.trans hplace)
  rw [← h.components id d hd]
  exact NameMap.get?_eq_some_iff.2 hm

theorem Sound.template_inRange (h : c.Sound) {t : Template} (ht : t ∈ c.templates) :
    t.InRange c := by
  have hclosed := h.templates_closed t ht
  refine ⟨?_, fun id hid => h.templates.lt_of_mem_map (hclosed.imports id hid),
    fun id hid => h.sheets.lt_of_mem_map (hclosed.sheets id hid),
    fun host id hid => h.sheets.lt_of_mem_map (hclosed.hosts host id hid),
    fun l hl => h.sheets.lt_of_mem_map (hclosed.links l hl)⟩
  intro e he
  obtain ⟨d, hd, -⟩ := h.component_of_tag ht he
  exact (List.getElem?_eq_some_iff.1 hd).1

theorem Sound.component_inRange (h : c.Sound) {d : Component} (hd : d ∈ c.components) :
    d.InRange c := by
  have hclosed := h.components_closed d hd
  obtain ⟨t, ht, -⟩ := hclosed.elements
  exact ⟨(List.getElem?_eq_some_iff.1 ht).1,
    fun id hid => h.templates.lt_of_mem_map (hclosed.imports id hid),
    fun l hl => h.sheets.lt_of_mem_map (hclosed.links l hl),
    fun id hid => h.sheets.lt_of_mem_map (hclosed.styles id hid)⟩

theorem Orderly.integral (ho : c.Orderly) (h : c.Sound) : c.Integral where
  template_ids := h.templates
  sheet_ids := h.sheets
  component_ids := h.components
  main id hid := h.templates.lt_of_mem_map (ho.main id hid)
  templates _ ht := h.template_inRange ht
  sheets sheet hm id hid := h.sheets.lt_of_mem_map (ho.imports sheet hm id hid)
  components _ hd := h.component_inRange hd
  tags t ht name id := by
    constructor
    · intro hget
      exact h.component_of_tag ht (NameMap.get?_eq_some_iff.1 hget)
    · rintro ⟨d, hd, htemplate, rfl⟩
      exact h.tag_of_component ht hd htemplate
  lower t ht name hname := by
    obtain ⟨e, he, rfl⟩ := List.mem_map.1 hname
    obtain ⟨d, hd, -, hdname⟩ := h.component_of_tag ht he
    rw [← hdname]
    exact (ho.components d (List.mem_of_getElem? hd)).name
  template_lists t ht := ⟨(ho.templates t ht).imports, (ho.templates t ht).sheets⟩
  component_lists d hd := (ho.components d hd).imports
  hosts t ht := (ho.templates t ht).hosts

end Catalog

namespace Session

/-- **Referential integrity.**  Whatever is read and parsed and whatever has been called for, after
a run every number in the catalog is the place of something, the tags of the templates and the
components are each other's inverse, nothing is listed twice, and hosts are sheets of the page. -/
theorem run_integral (env : Env) (siteRoot : Path) (lints : Bool) (cs : List Call) (fuel : Nat)
    (s : Session) (hrun : (prepared env siteRoot lints cs).run env fuel = some s) :
    s.catalog.Integral :=
  ((orderly env).prepared_run (Catalog.Orderly.empty siteRoot lints) cs fuel hrun).integral
    (run_sound env fuel hrun (prepared_sound env siteRoot lints cs)).catalog

/-- a page with a host and a component inside, which imports a file that declares one name twice -/
def nest : Env where
  read _ := .ok []
  parseMarkup _ file :=
    if file = "x/a".toList then
      .ok ⟨[.element "html".toList .empty [
        .element "style".toList (.ofList [("inline-fonts".toList, [])]) [],
        .element "component".toList (.ofList [("name".toList, "Card".toList)]) [
          .element "import".toList (.ofList [("src".toList, "b".toList)]) []]]], true⟩
    else
      .ok ⟨[.element "b".toList .empty [.element "style".toList .empty []],
        .element "b".toList .empty []], true⟩
  parseCss _ _ := ⟨[], .ok (.sheet [])⟩

/-- the refused declaration and the one inside the page leave the numbers in order -/
theorem run_integral_nest : ∃ s,
    (prepared nest ⟨true, []⟩ true [.main (.remote "x/a".toList)]).run nest 2 = some s ∧
    s.catalog.Integral ∧
    s.catalog.templates.map (fun t => (t.tags.entries, t.fontHost))
      = [([("html".toList, 0), ("card".toList, 1)], some 0), ([("b".toList, 2)], none)] := by
  have htags : ((prepared nest ⟨true, []⟩ true [.main (.remote "x/a".toList)]).run nest 2).map
      (fun s => s.catalog.templates.map fun t => (t.tags.entries, t.fontHost))
      = some [([("html".toList, 0), ("card".toList, 1)], some 0), ([("b".toList, 2)], none)] := by
    decide
  obtain ⟨s, hrun, hs⟩ := Option.map_eq_some_iff.1 htags
  exact ⟨s, hrun, run_integral _ _ _ _ _ s hrun, hs⟩

end Session

end PageTemplates
