import Mathlib.Data.List.Induction
import PageTemplates.Proofs.Outline

/-!
# Where imports belong

An `import` belongs to the innermost declaration around it, or to the whole file if there is none.
What it names is called for at once; an import in a declaration that is refused is never reached.

* `Declared.imports`, `topImportsOf`   the imports of a declaration and of a file, by their trees;
* `Indexes`          the numbers that templates get, by their locations;
* `Aside`            what records no import and calls for no template;
* `Scoped`           what a walk adds to the imports of a session;
* `Scoped.store`     a declaration from the walk through its body;
* `bodyNodes_scoped`, `discover_scoped`   what the walks add.
-/

namespace PageTemplates

/-- what is looked at of a component: its template, its name and its imports -/
structure Importer where
  template : TemplateId
  name : Text
  imports : List TemplateId
deriving DecidableEq

def Component.importer (d : Component) : Importer := ⟨d.template, d.name, d.imports⟩

/-- what is looked at of a template -/
def Template.scoping (t : Template) : NameMap ComponentId × List TemplateId := (t.tags, t.imports)

namespace Declarations
open Session

/-! ## imports in a tree -/

/-- the target of an `import` element -/
def imported? (e : Text × Attributes) : Option Text :=
  if Role.ofName e.1 = .importing then e.2.get? "src".toList else none

/-- the targets of the imports that belong to a declaration, in document order -/
def Declared.imports (d : Declared) : List Text := (ownOf d.body).filterMap imported?

mutual
/-- the targets of the imports of a node that belong to the whole file -/
def topImports : Html.Node → List Text
  | .text _ => []
  | .fragment children _ => topImportsOf children
  | .element name attributes _ => (imported? (name, attributes)).toList
def topImportsOf : List Html.Node → List Text
  | [] => []
  | n :: ns => topImports n ++ topImportsOf ns
end

/-! ## numbers of templates -/

/-- every template has the number of its location -/
def Indexes (index : Location → TemplateId) (s : Session) : Prop :=
  ∀ t ∈ s.catalog.templates, index t.location = t.id

theorem Indexes.of_grows {index : Location → TemplateId} {s s' : Session} (h : Indexes index s')
    (hg : s.Grows s') : Indexes index s := by
  intro t ht
  obtain ⟨t', ht', hplace⟩ := List.mem_map.1 (hg.templates.subset (List.mem_map_of_mem ht))
  obtain ⟨hid, hrest⟩ := Prod.mk.inj hplace
  rw [← hid, ← (Prod.mk.inj hrest).1]
  exact h t' ht'

/-- a template that is called for gets the number of its location -/
theorem Indexes.useTemplate {index : Location → TemplateId} {s : Session} {reference : Text}
    {origin : Location} (h : Indexes index (s.useTemplate reference origin).2) :
    (s.useTemplate reference origin).1 = index (origin.resolvePath reference) := by
  have hold : Indexes index s := h.of_grows (useTemplate_grows s reference origin)
  unfold Session.useTemplate registerTemplate at h ⊢
  split
  · next t hfound =>
    obtain ⟨ht, hl⟩ := Catalog.template?_eq_some hfound
    rw [← hl]
    exact (hold t ht).symm
  · next hnone =>
    rw [hnone] at h
    exact (h _ (List.mem_append_right _ List.mem_cons_self)).symm

/-! ## what records no import -/

/-- neither the names nor the imports change, and no template is called for -/
structure Aside (s s' : Session) : Prop where
  files : s'.catalog.templates.map Template.scoping = s.catalog.templates.map Template.scoping
  components : s'.catalog.components.map Component.importer
    = s.catalog.components.map Component.importer
  requests : ∀ l, s'.requests l = s.requests l

namespace Aside
variable {s s' s'' : Session}

theorem of_eq (ht : s'.catalog.templates = s.catalog.templates)
    (hd : s'.catalog.components = s.catalog.components) (hc : s'.calls = s.calls) : Aside s s' :=
  ⟨congrArg _ ht, congrArg _ hd, fun _ => congrArg _ hc⟩

theorem refl (s : Session) : Aside s s := of_eq rfl rfl rfl

theorem trans (h : Aside s s') (h' : Aside s' s'') : Aside s s'' :=
  ⟨h'.files.trans h.files, h'.components.trans h.components,
    fun l => (h'.requests l).trans (h.requests l)⟩

theorem of_sheetwise (h : Sheetwise s s') : Aside s s' :=
  ⟨congrArg _ h.templates, congrArg _ h.components, h.requests⟩

theorem modifyTemplate (s : Session) (id : TemplateId) (f : Template → Template)
    (hf : ∀ t, (f t).scoping = t.scoping) : Aside s (s.mapCatalog (·.modifyTemplate id f)) :=
  ⟨map_modify_of_eq Template.scoping f hf _ _, rfl, fun _ => rfl⟩

theorem modifyComponent (s : Session) (id : ComponentId) (f : Component → Component)
    (hf : ∀ d, (f d).importer = d.importer) : Aside s (s.mapCatalog (·.modifyComponent id f)) :=
  ⟨rfl, map_modify_of_eq Component.importer f hf _ _, fun _ => rfl⟩

theorem report (o : Origin) (p : Problem) (s : Session) : Aside s (report o p s) :=
  of_eq rfl rfl rfl

theorem addSheet (o : Origin) (sheet : SheetId) (s : Session) : Aside s (addSheet o sheet s) :=
  modifyTemplate s _ _ (fun _ => rfl)

theorem testDataLink (o : Origin) (attributes : Attributes) (s : Session) :
    Aside s (testDataLink o attributes s) := by
  unfold Declarations.testDataLink
  split
  · exact report o .testDataWithoutHref s
  · split
    · exact refl s
    · split
      · exact report o _ s
      · exact modifyTemplate s _ _ (fun _ => rfl)

theorem link (o : Origin) (attributes : Attributes) (owner : Option ComponentId) (s : Session) :
    Aside s (link o attributes owner s).2 := by
  unfold Declarations.link
  dsimp only
  split
  · unfold stylesheetLink
    split
    · exact report o .stylesheetWithoutHref s
    · next href _ =>
      have hsheet := (of_sheetwise (.importSheet s href o.location)).trans
        (addSheet o (s.importSheet href o.location).1 _)
      dsimp only
      split
      · exact hsheet
      · cases owner with
        | none => exact hsheet.trans (modifyTemplate _ _ _ (fun _ => rfl))
        | some id =>
          dsimp only
          split
          · exact hsheet
          · exact hsheet.trans (modifyComponent _ _ _ (fun _ => rfl))
  · split
    · exact testDataLink o attributes s
    · exact refl s

theorem markHost (o : Origin) (sheet : SheetId) (h : Host) (s : Session) :
    Aside s (markHost o sheet h s) := by
  unfold Declarations.markHost
  split
  · exact report o _ s
  · split
    · exact refl s
    · split
      · exact report o _ s
      · exact modifyTemplate s _ _ (fun t => by cases h <;> rfl)

theorem markHosts (o : Origin) (attributes : Attributes) (sheet : SheetId)
    (hosts : List Host) (s : Session) : Aside s (markHosts o attributes sheet hosts s) := by
  unfold Declarations.markHosts
  induction hosts.filter (fun h => attributes.contains h.marker) generalizing s with
  | nil => exact refl s
  | cons h hosts ih => exact (markHost o sheet h s).trans (ih _)

theorem style (env : Env) (o : Origin) (attributes : Attributes) (children : List Html.Node)
    (s : Session) : Aside s (style env o attributes children s).2 := by
  unfold Declarations.style
  split
  · exact report o .elementInStyle s
  · next source _ =>
    have hsheet := of_sheetwise (.inlineSheet env s source o.location !o.isMain)
    exact (hsheet.trans (addSheet o _ _)).trans
      (markHosts o attributes _ _ _)

end Aside

/-! ## what a walk adds -/

section
variable (s : Session) (reference : Text) (origin : Location)

theorem useTemplate_scoping : s.catalog.templates.map Template.scoping
    <+: (s.useTemplate reference origin).2.catalog.templates.map Template.scoping := by
  unfold Session.useTemplate registerTemplate
  split
  · exact prefix_map_modify Template.scoping (Template.mention _) (fun _ => rfl) _ _
  · show _ <+: (s.catalog.templates ++ [_]).map Template.scoping
    rw [List.map_append]
    exact List.prefix_append _ _

theorem useTemplate_components :
    (s.useTemplate reference origin).2.catalog.components = s.catalog.components := by
  unfold Session.useTemplate registerTemplate
  split <;> rfl

theorem useTemplate_requests (l : Location) : (s.useTemplate reference origin).2.requests l
    = s.requests l ++ if origin = l then [reference] else [] := by
  have hcalls : (s.useTemplate reference origin).2.calls
      = s.calls ++ [.template reference origin] := by
    unfold Session.useTemplate registerTemplate
    split <;> rfl
  unfold requests
  rw [hcalls, List.filterMap_append]
  congr 1
  show List.filterMap _ [Call.template reference origin] = _
  split
  · next horigin => exact List.filterMap_cons_some (if_pos horigin)
  · next horigin => exact List.filterMap_cons_none (if_neg horigin)

end

/-- imports at the end of a list, each once -/
def addAll (ids is : List TemplateId) : List TemplateId := ids.foldl (fun is id => addOnce id is) is

theorem addAll_append (ids ids' is : List TemplateId) :
    addAll (ids ++ ids') is = addAll ids' (addAll ids is) := List.foldl_append

theorem addAll_eq_eraseDups (ids : List TemplateId) : addAll ids [] = ids.eraseDups := by
  induction ids using List.reverseRecOn with
  | nil => rfl
  | append_singleton ids id ih =>
    rw [addAll_append, ih]
    show addOnce id ids.eraseDups = _
    unfold addOnce
    by_cases hid : id ∈ ids
    · rw [if_pos (List.mem_eraseDups.2 hid), eraseDups_concat_of_mem hid]
    · rw [if_neg (mt List.mem_eraseDups.1 hid), eraseDups_concat_of_not_mem hid]

def Importer.add (ids : List TemplateId) (e : Importer) : Importer :=
  { e with imports := addAll ids e.imports }

/-- the imports of the file after some have been added to what belongs to `owner` -/
def addToFile (owner : Option ComponentId) (ids is : List TemplateId) : List TemplateId :=
  match owner with
  | none => addAll ids is
  | some _ => is

/-- the components after imports have been added to what belongs to `owner` -/
def addToOwner (owner : Option ComponentId) (ids : List TemplateId) (es : List Importer) :
    List Importer :=
  match owner with
  | none => es
  | some id => es.modify id (Importer.add ids)

theorem addToFile_nil (owner : Option ComponentId) (is : List TemplateId) :
    addToFile owner [] is = is := by
  cases owner <;> rfl

theorem addToFile_append (owner : Option ComponentId) (ids ids' is : List TemplateId) :
    addToFile owner (ids ++ ids') is = addToFile owner ids' (addToFile owner ids is) := by
  cases owner with
  | none => exact addAll_append ids ids' is
  | some id => rfl

theorem addToOwner_nil (owner : Option ComponentId) (es : List Importer) :
    addToOwner owner [] es = es := by
  cases owner with
  | none => rfl
  | some id => exact List.modify_id id es

/-- imports that are added in two parts, the owner being among the first components -/
theorem addToOwner_append {owner : Option ComponentId} {es : List Importer}
    (howner : ∀ id ∈ owner, id < es.length) (ids ids' : List TemplateId) (more : List Importer) :
    addToOwner owner ids' (addToOwner owner ids es ++ more)
      = addToOwner owner (ids ++ ids') es ++ more := by
  cases owner with
  | none => rfl
  | some id =>
    have hid : id < (es.modify id (Importer.add ids)).length := by
      rw [List.length_modify]
      exact howner id rfl
    have hboth : Importer.add ids' ∘ Importer.add ids = Importer.add (ids ++ ids') := by
      funext e
      show Importer.mk e.template e.name (addAll ids' (addAll ids e.imports)) = _
      rw [← addAll_append]
      rfl
    show (es.modify id _ ++ more).modify id _ = es.modify id _ ++ more
    rw [modify_append_of_lt _ hid, List.modify_modify_eq, hboth]

/-- the imports that the file of `o` has so far -/
def fileImports? (o : Origin) (s : Session) : Option (List TemplateId) :=
  s.catalog.templates[o.template]?.map Template.imports

/-- the numbers of what the file of `o` imports -/
def numbers (index : Location → TemplateId) (o : Origin) (refs : List Text) : List TemplateId :=
  refs.map fun src => index (o.location.resolvePath src)

/-- a declaration with what it imports -/
def Declared.importer (index : Location → TemplateId) (o : Origin) (d : Declared) : Importer :=
  ⟨o.template, d.name, addAll (numbers index o d.imports) []⟩

/-- a walk has added imports to what belongs to `owner` and declarations to the session, and has
called for the templates of all of them -/
structure Scoped (index : Location → TemplateId) (o : Origin) (owner : Option ComponentId)
    (taken : List Text) (refs : List Text) (ds : List Declared) (s s' : Session) : Prop where
  names : taken? o s' = some (taken ++ ds.map Declared.name)
  file : fileImports? o s' = (fileImports? o s).map (addToFile owner (numbers index o refs))
  components : s'.catalog.components.map Component.importer
    = addToOwner owner (numbers index o refs) (s.catalog.components.map Component.importer)
      ++ ds.map (Declared.importer index o)
  requests : (s'.requests o.location).Perm
    (s.requests o.location ++ (refs ++ ds.flatMap Declared.imports))

section
variable {index : Location → TemplateId} {o : Origin} {owner : Option ComponentId}
  {taken refs refs' : List Text} {ds ds' : List Declared} {s s' s'' : Session}

/-- what belongs to a declared component in parts -/
theorem Scoped.append (howner : ∀ id ∈ owner, Owned o s id)
    (h : Scoped index o owner taken refs ds s s')
    (h' : Scoped index o owner (taken ++ ds.map Declared.name) refs' ds' s' s'') :
    Scoped index o owner taken (refs ++ refs') (ds ++ ds') s s'' := by
  have hlt : ∀ id ∈ owner, id < (s.catalog.components.map Component.importer).length := by
    intro id hid
    obtain ⟨c, hc, -⟩ := howner id hid
    rw [List.length_map]
    exact (List.getElem?_eq_some_iff.1 hc).1
  have hnumbers : numbers index o (refs ++ refs')
      = numbers index o refs ++ numbers index o refs' := List.map_append
  constructor
  · rw [h'.names, List.map_append, List.append_assoc]
  · rw [h'.file, h.file, Option.map_map, hnumbers]
    congr 1
    funext is
    exact (addToFile_append owner _ _ is).symm
  · rw [h'.components, h.components, addToOwner_append hlt, List.map_append, hnumbers,
      List.append_assoc]
  · refine h'.requests.trans ((h.requests.append_right _).trans ?_)
    rw [List.flatMap_append, List.append_assoc, List.append_assoc, List.append_assoc]
    exact ((List.perm_append_comm_assoc _ _ _).append_left refs).append_left _

theorem Aside.taken? (h : Aside s s') (hs : Declarations.taken? o s = some taken) :
    Declarations.taken? o s' = some taken := by
  have hsame := congrArg (fun l => l[o.template]?.map fun r => r.1.names) h.files
  simp only [List.getElem?_map, Option.map_map] at hsame
  exact hsame.trans hs

theorem Aside.fileImports? (h : Aside s s') :
    Declarations.fileImports? o s' = Declarations.fileImports? o s := by
  have hsame := congrArg (fun l => l[o.template]?.map Prod.snd) h.files
  simp only [List.getElem?_map, Option.map_map] at hsame
  exact hsame

theorem Aside.scoped (h : Aside s s') (index : Location → TemplateId)
    (hs : Declarations.taken? o s = some taken) (owner : Option ComponentId) :
    Scoped index o owner taken [] [] s s' := by
  constructor
  · rw [h.taken? hs, List.map_nil, List.append_nil]
  · rw [h.fileImports?]
    have hid : addToFile owner (numbers index o []) = id := funext (addToFile_nil owner)
    rw [hid, Option.map_id, id]
  · rw [h.components]
    have hnone : addToOwner owner (numbers index o []) (s.catalog.components.map Component.importer)
        = s.catalog.components.map Component.importer := addToOwner_nil owner _
    rw [hnone, List.map_nil, List.append_nil]
  · rw [h.requests, List.flatMap_nil, List.append_nil, List.append_nil]

/-- calling for a template changes neither the names nor the imports of the file -/
theorem useTemplate_file (hs : taken? o s = some taken) (reference : Text) (origin : Location) :
    taken? o (s.useTemplate reference origin).2 = some taken ∧
      fileImports? o (s.useTemplate reference origin).2 = fileImports? o s := by
  obtain ⟨t, ht, rfl⟩ := Option.map_eq_some_iff.1 hs
  obtain ⟨t', ht', hsame⟩ := getElem?_of_map_prefix Template.scoping
    (useTemplate_scoping s reference origin) ht
  obtain ⟨htags, himports⟩ := Prod.mk.inj hsame
  unfold taken? fileImports?
  rw [ht', ht]
  exact ⟨congrArg (fun tags => some (NameMap.names tags)) htags, congrArg some himports⟩

/-- an import of the whole file -/
theorem addImport_file (other : TemplateId) (s : Session) :
    taken? o (modifyTemplate o (fun t => { t with imports := addOnce other t.imports }) s)
        = taken? o s ∧
      fileImports? o (modifyTemplate o (fun t => { t with imports := addOnce other t.imports }) s)
        = (fileImports? o s).map (addOnce other) := by
  have hat : (modifyTemplate o (fun t => { t with imports := addOnce other t.imports })
      s).catalog.templates[o.template]? = s.catalog.templates[o.template]?.map
        fun t => { t with imports := addOnce other t.imports } := List.getElem?_modify_eq _ _ _
  unfold taken? fileImports?
  rw [hat, Option.map_map, Option.map_map, Option.map_map]
  exact ⟨rfl, rfl⟩

/-- an `import` element calls for what it names and records it -/
theorem importTemplate_scoped {name : Text} (hname : Role.ofName name = .importing)
    (attributes : Attributes) (owner : Option ComponentId) (hs : taken? o s = some taken)
    (hindex : Indexes index (importTemplate o attributes owner s)) :
    Scoped index o owner taken (imported? (name, attributes)).toList [] s
      (importTemplate o attributes owner s) := by
  have himported : imported? (name, attributes) = attributes.get? "src".toList := if_pos hname
  rw [himported]
  unfold importTemplate at hindex ⊢
  cases hsrc : attributes.get? "src".toList with
  | none => exact (Aside.report o .importWithoutSrc s).scoped index hs owner
  | some src =>
    rw [hsrc] at hindex
    dsimp only at hindex ⊢
    obtain ⟨hnames, hfile⟩ := useTemplate_file hs src o.location
    have hcomponents := useTemplate_components s src o.location
    have hrequests : (s.useTemplate src o.location).2.requests o.location
        = s.requests o.location ++ [src] := by
      rw [useTemplate_requests, if_pos rfl]
    have hnumbers (h : Indexes index (s.useTemplate src o.location).2) :
        numbers index o (some src).toList = [(s.useTemplate src o.location).1] := by
      rw [h.useTemplate]
      rfl
    cases owner with
    | some id =>
      have hnumber := hnumbers hindex
      refine ⟨hnames.trans ?_, hfile.trans ?_, ?_, hrequests ▸ List.Perm.refl _⟩
      · rw [List.map_nil, List.append_nil]
      · exact Option.map_id'.symm
      · rw [hnumber, ← hcomponents, List.map_nil, List.append_nil]
        exact map_modify Component.importer _ (Importer.add [_]) (fun _ => rfl) _ _
    | none =>
      have hnumber := hnumbers (hindex.of_grows (modifyTemplate_grows o _ _ fun _ => rfl))
      obtain ⟨hnames', hfile'⟩ := addImport_file (o := o) (s.useTemplate src o.location).1
        (s.useTemplate src o.location).2
      refine ⟨(hnames'.trans hnames).trans ?_, ?_, ?_, hrequests ▸ List.Perm.refl _⟩
      · rw [List.map_nil, List.append_nil]
      · rw [hfile', hfile, hnumber]
        rfl
      · rw [List.map_nil, List.append_nil]
        exact congrArg (List.map Component.importer) hcomponents

/-! ## declarations -/

theorem fileImports?_declared (name : Text) (params : Attributes) (s : Session) :
    fileImports? o (declared o name params s) = fileImports? o s := by
  have hrecords := map_modify_of_eq Template.imports
    (fun t => { t with tags := t.tags.insert name s.catalog.components.length }) (fun _ => rfl)
    s.catalog.templates o.template
  have hat := congrArg (fun l => l[o.template]?) hrecords
  simp only [List.getElem?_map] at hat
  exact hat

/-- a new component has the imports of the walk through its body, whatever the body is -/
theorem Scoped.store {name : Text} {tree : List Html.Node} {params : Attributes}
    (h : Scoped index o (some s.catalog.components.length) (taken ++ [name])
      ((ownOf tree).filterMap imported?) ds (declared o name params s) s')
    (owner : Option ComponentId) (body : List BodyNode) :
    Scoped index o owner taken [] (⟨name, tree⟩ :: ds) s
      (s'.mapCatalog (·.modifyComponent s.catalog.components.length
        fun c => { c with body })) := by
  have hnew : (declared o name params s).catalog.components.map Component.importer
      = s.catalog.components.map Component.importer ++ [⟨o.template, name, []⟩] := List.map_append
  have hlast : addToOwner (some s.catalog.components.length)
      (numbers index o ((ownOf tree).filterMap imported?))
      (s.catalog.components.map Component.importer ++ [⟨o.template, name, []⟩])
      = s.catalog.components.map Component.importer
        ++ [Declared.importer index o ⟨name, tree⟩] := by
    have h := modify_concat (Importer.add (numbers index o ((ownOf tree).filterMap imported?)))
      (s.catalog.components.map Component.importer) ⟨o.template, name, []⟩
    rw [List.length_map] at h
    exact h
  have hnone : addToOwner owner (numbers index o []) (s.catalog.components.map Component.importer)
      = s.catalog.components.map Component.importer := addToOwner_nil owner _
  constructor
  · refine h.names.trans ?_
    rw [List.append_assoc]
    rfl
  · refine h.file.trans ?_
    rw [fileImports?_declared]
    have hid : addToFile owner (numbers index o []) = id := funext (addToFile_nil owner)
    rw [hid]
    rfl
  · show (List.modify _ _ _).map Component.importer = _
    rw [map_modify_of_eq Component.importer (fun d => { d with body }) (fun _ => rfl), hnone]
    refine h.components.trans ?_
    rw [hnew, hlast, List.append_assoc]
    rfl
  · exact h.requests

/-- what the walk through the content of a component has to add -/
def ScopedWalk (index : Location → TemplateId) (o : Origin) (body : List Html.Node)
    (walk : ComponentId → Session → List BodyNode × Session) : Prop :=
  ∀ (id : ComponentId) (s : Session) (taken : List Text), taken? o s = some taken →
    Owned o s id → Indexes index (walk id s).2 →
    Scoped index o (some id) taken ((ownOf body).filterMap imported?) (nestedAll taken body) s
      (walk id s).2

theorem declareBody_scoped {body : List Html.Node}
    {walk : ComponentId → Session → List BodyNode × Session} (hw : ScopedWalk index o body walk)
    (name : Text) (params : Attributes) (owner : Option ComponentId) (s : Session)
    (hs : taken? o s = some taken) (hindex : Indexes index (declareBody o name params walk s)) :
    Scoped index o owner taken [] (declaredAs taken name body) s
      (declareBody o name params walk s) := by
  obtain ⟨t, ht, htaken⟩ := Option.map_eq_some_iff.1 hs
  unfold declareBody declare at hindex ⊢
  unfold declaredAs
  dsimp only at hindex ⊢
  rw [ht] at hindex ⊢
  dsimp only at hindex ⊢
  by_cases hname : Text.lower name ∈ taken
  · rw [if_pos (List.contains_iff_mem.2 hname),
      if_pos (NameMap.contains_iff.2 (htaken.symm ▸ hname))]
    exact (Aside.report o _ s).scoped index hs owner
  · have hfree : ¬ t.tags.contains (Text.lower name) = true :=
      fun hc => hname (htaken ▸ NameMap.contains_iff.1 hc)
    rw [if_neg hfree] at hindex ⊢
    rw [if_neg (fun hc => hname (List.contains_iff_mem.1 hc))]
    exact (hw s.catalog.components.length _ _ (taken?_declared hs hname params)
      (declared_owned o (Text.lower name) params s) hindex).store owner _

theorem component_scoped {body : List Html.Node}
    {walk : ComponentId → Session → List BodyNode × Session} (hw : ScopedWalk index o body walk)
    (attributes : Attributes) (owner : Option ComponentId) (s : Session)
    (hs : taken? o s = some taken) (hindex : Indexes index (component o attributes walk s)) :
    Scoped index o owner taken []
      ((attributes.get? "name".toList).elim [] (declaredAs taken · body)) s
      (component o attributes walk s) := by
  unfold component at hindex ⊢
  cases hname : attributes.get? "name".toList with
  | none => exact (Aside.report o .unnamedComponent s).scoped index hs owner
  | some name =>
    rw [hname] at hindex
    exact declareBody_scoped hw name _ owner s hs hindex

/-! ## walks -/

theorem imported?_of_role {name : Text} (h : Role.ofName name ≠ .importing)
    (attributes : Attributes) : imported? (name, attributes) = none := if_neg h

/-- an element that is no `import` has the imports of its content -/
theorem imports_element {name : Text} (h : Role.ofName name ≠ .importing)
    (hcomponent : Role.ofName name ≠ .component) (attributes : Attributes)
    (children : List Html.Node) :
    (own (.element name attributes children)).filterMap imported?
      = (ownOf children).filterMap imported? := by
  rw [own, if_neg hcomponent, List.filterMap_cons_none (imported?_of_role h attributes)]

theorem imports_component {name : Text} (h : Role.ofName name = .component)
    (attributes : Attributes) (children : List Html.Node) :
    (own (.element name attributes children)).filterMap imported? = [] := by
  have himport : Role.ofName name ≠ .importing := h ▸ Role.noConfusion
  rw [own, if_pos h, List.filterMap_cons_none (imported?_of_role himport attributes)]
  rfl

mutual
/-- a node of a body has its imports recorded for its component, and declares the rest -/
theorem bodyNode_scoped (env : Env) (owner : ComponentId) (n : Html.Node) (s : Session)
    (taken : List Text) (hs : taken? o s = some taken) (howner : Owned o s owner)
    (hn : isRegular n = true) (hindex : Indexes index (bodyNode env o owner n s).2) :
    Scoped index o (some owner) taken ((own n).filterMap imported?) (nested taken n) s
      (bodyNode env o owner n s).2 := by
  cases n with
  | text run =>
    rw [bodyNode]
    exact (Aside.refl s).scoped index hs _
  | fragment children _ =>
    rw [bodyNode] at hindex ⊢
    rw [own, nested]
    exact bodyNodes_scoped env owner children s taken hs howner hn hindex
  | element name attributes children =>
    -- an element that stays
    have hplain (hchildren : areRegular children = true) (himport : Role.ofName name ≠ .importing)
        (hcomponent : Role.ofName name ≠ .component)
        (hindex : Indexes index (bodyNodes env o owner children s).2) :
        Scoped index o (some owner) taken ((own (.element name attributes children)).filterMap
          imported?) (nested taken (.element name attributes children)) s
          (bodyNodes env o owner children s).2 := by
      rw [imports_element himport hcomponent, nested_element hcomponent]
      exact bodyNodes_scoped env owner children s taken hs howner hchildren hindex
    rw [isRegular] at hn
    rw [bodyNode] at hindex ⊢
    cases hrole : Role.ofName name with
    | importing =>
      rw [hrole] at hn hindex
      have hcomponent : Role.ofName name ≠ .component := hrole ▸ Role.noConfusion
      have hown : (own (.element name attributes children)).filterMap imported?
          = (imported? (name, attributes)).toList := by
        rw [own, if_neg hcomponent, ownOf_of_elementless hn]
        cases himport : imported? (name, attributes) with
        | none => exact List.filterMap_cons_none himport
        | some src => exact List.filterMap_cons_some himport
      rw [hown, nested_element hcomponent, nestedAll_of_elementless _ hn]
      exact importTemplate_scoped hrole attributes (some owner) hs hindex
    | style =>
      rw [hrole] at hn
      have hcomponent : Role.ofName name ≠ .component := hrole ▸ Role.noConfusion
      rw [imports_element (hrole ▸ Role.noConfusion) hcomponent, nested_element hcomponent,
        ownOf_of_elementless hn, nestedAll_of_elementless _ hn]
      exact (Aside.style env o attributes children s).scoped index hs _
    | page =>
      rw [hrole] at hn hindex
      exact hplain hn (hrole ▸ Role.noConfusion) (hrole ▸ Role.noConfusion) hindex
    | other =>
      rw [hrole] at hn hindex
      exact hplain hn (hrole ▸ Role.noConfusion) (hrole ▸ Role.noConfusion) hindex
    | component =>
      rw [hrole] at hn hindex
      rw [imports_component hrole, nested_component hrole]
      exact component_scoped
        (fun id s taken hs hid hindex =>
          bodyNodes_scoped env id children s taken hs hid hn hindex)
        attributes (some owner) s hs hindex
    | link =>
      rw [hrole] at hn hindex
      have hcomponent : Role.ofName name ≠ .component := hrole ▸ Role.noConfusion
      have hlink := Aside.link o attributes (some owner) s
      have hgrows := (link_moves env o attributes (some owner) s
        (fun id hid => Option.some.inj hid ▸ howner)).grows
      rw [imports_element (hrole ▸ Role.noConfusion) hcomponent, nested_element hcomponent]
      dsimp only at hindex ⊢
      cases hfate : link o attributes (some owner) s with
      | mk fate s' =>
        rw [hfate] at hlink hgrows hindex
        cases fate with
        | gone =>
          rw [ownOf_of_elementless hn, nestedAll_of_elementless _ hn]
          exact hlink.scoped index hs _
        | inlined sheet more =>
          rw [ownOf_of_elementless hn, nestedAll_of_elementless _ hn]
          exact hlink.scoped index hs _
        | kept =>
          have hbelow := bodyNodes_scoped env owner children s' taken (hlink.taken? hs)
            (howner.mono hgrows) (areRegular_of_elementless hn) hindex
          have hfirst := hlink.scoped index hs (some owner)
          refine hfirst.append (fun id hid => Option.some.inj hid ▸ howner) ?_
          rwa [List.map_nil, List.append_nil]
theorem bodyNodes_scoped (env : Env) (owner : ComponentId) (ns : List Html.Node) (s : Session)
    (taken : List Text) (hs : taken? o s = some taken) (howner : Owned o s owner)
    (hns : areRegular ns = true) (hindex : Indexes index (bodyNodes env o owner ns s).2) :
    Scoped index o (some owner) taken ((ownOf ns).filterMap imported?) (nestedAll taken ns) s
      (bodyNodes env o owner ns s).2 := by
  cases ns with
  | nil =>
    rw [bodyNodes]
    exact (Aside.refl s).scoped index hs _
  | cons n ns =>
    obtain ⟨hn, hns⟩ := Bool.and_eq_true_iff.1 hns
    rw [bodyNodes] at hindex ⊢
    dsimp only at hindex ⊢
    have howner' : Owned o (bodyNode env o owner n s).2 owner :=
      howner.mono (bodyNode_moves env o owner n s howner).1.grows
    have hfirst := bodyNode_scoped env owner n s taken hs howner hn
      (hindex.of_grows (bodyNodes_moves env o owner ns _ howner').1.grows)
    have hothers := bodyNodes_scoped env owner ns _ _ hfirst.names howner' hns hindex
    rw [ownOf, nestedAll, List.filterMap_append]
    exact hfirst.append (fun id hid => Option.some.inj hid ▸ howner) hothers
end

/-- an element at the top level -/
theorem topElement_scoped (env : Env) (name : Text) (attributes : Attributes)
    (children : List Html.Node) (s : Session) (hs : taken? o s = some taken)
    (hn : isRegular (.element name attributes children) = true)
    (hindex : Indexes index (topElement env o name attributes children s)) :
    Scoped index o none taken (topImports (.element name attributes children))
      (declaredBy o.isMain taken (.element name attributes children)) s
      (topElement env o name attributes children s) := by
  have hw (hchildren : areRegular children = true) :
      ScopedWalk index o children fun id s => bodyNodes env o id children s :=
    fun id s taken hs hid hindex =>
      bodyNodes_scoped env id children s taken hs hid hchildren hindex
  -- an element without imports of the file
  have hnone (himport : Role.ofName name ≠ .importing) :
      topImports (.element name attributes children) = [] := by
    rw [topImports, imported?_of_role himport]
    rfl
  rw [isRegular] at hn
  rw [declaredBy]
  unfold topElement at hindex ⊢
  cases hrole : Role.ofName name with
  | importing =>
    rw [hrole] at hindex
    rw [topImports]
    exact importTemplate_scoped hrole attributes none hs hindex
  | style =>
    rw [hnone (hrole ▸ Role.noConfusion)]
    exact (Aside.style env o attributes children s).scoped index hs none
  | link =>
    rw [hnone (hrole ▸ Role.noConfusion)]
    exact (Aside.link o attributes none s).scoped index hs none
  | component =>
    rw [hrole] at hn hindex
    rw [hnone (hrole ▸ Role.noConfusion)]
    exact component_scoped (hw hn) attributes none s hs hindex
  | page =>
    rw [hrole] at hn hindex
    rw [hnone (hrole ▸ Role.noConfusion)]
    dsimp only at hindex ⊢
    cases hmain : o.isMain with
    | false => exact (Aside.report o .misplacedHtml s).scoped index hs none
    | true =>
      rw [hmain] at hindex
      have hpage : ScopedWalk index o children fun id s =>
          ([.element name attributes (bodyNodes env o id children s).1],
            (bodyNodes env o id children s).2) := hw hn
      exact declareBody_scoped hpage name .empty none s hs hindex
  | other =>
    rw [hrole] at hn hindex
    rw [hnone (hrole ▸ Role.noConfusion)]
    dsimp only at hindex ⊢
    have hreport : Aside s
        (if Html.isStandard name then report o (.shadowsElement name) s else s) := by
      split
      · exact .report o _ s
      · exact .refl s
    have hfirst := hreport.scoped index hs none
    have hbody := declareBody_scoped (hw hn) name attributes none _ hfirst.names hindex
    rw [List.map_nil, List.append_nil] at hbody
    refine hfirst.append (fun id hid => absurd hid (Option.not_mem_none id)) ?_
    rwa [List.map_nil, List.append_nil]

mutual
theorem topNode_scoped (env : Env) (n : Html.Node) (s : Session) (taken : List Text)
    (hs : taken? o s = some taken) (hn : isRegular n = true)
    (hindex : Indexes index (topNode env o n s)) :
    Scoped index o none taken (topImports n) (declaredBy o.isMain taken n) s
      (topNode env o n s) := by
  cases n with
  | text run =>
    rw [topNode]
    split
    · exact (Aside.refl s).scoped index hs none
    · exact (Aside.report o _ s).scoped index hs none
  | fragment children _ =>
    rw [topNode] at hindex ⊢
    rw [declaredBy, topImports]
    exact topNodes_scoped env children s taken hs hn hindex
  | element name attributes children =>
    rw [topNode] at hindex ⊢
    exact topElement_scoped env name attributes children s hs hn hindex
theorem topNodes_scoped (env : Env) (ns : List Html.Node) (s : Session) (taken : List Text)
    (hs : taken? o s = some taken) (hns : areRegular ns = true)
    (hindex : Indexes index (topNodes env o ns s)) :
    Scoped index o none taken (topImportsOf ns) (declaredAll o.isMain taken ns) s
      (topNodes env o ns s) := by
  cases ns with
  | nil =>
    rw [topNodes]
    exact (Aside.refl s).scoped index hs none
  | cons n ns =>
    obtain ⟨hn, hns⟩ := Bool.and_eq_true_iff.1 hns
    rw [topNodes] at hindex ⊢
    have hfirst := topNode_scoped env n s taken hs hn
      (hindex.of_grows (topNodes_moves env o ns _).grows)
    have hothers := topNodes_scoped env ns _ _ hfirst.names hns hindex
    rw [topImportsOf, declaredAll]
    exact hfirst.append (fun id hid => absurd hid (Option.not_mem_none id)) hothers
end

/-- a file imports what the top level of its tree says, and its declarations what theirs do -/
theorem discover_scoped (env : Env) (f : Html.Fragment) (s : Session)
    (hs : taken? o s = some taken) (hf : areRegular f.children = true)
    (hindex : Indexes index (discover env o f s)) :
    Scoped index o none taken (topImportsOf f.children) (declaredAll o.isMain taken f.children) s
      (discover env o f s) := by
  unfold discover at hindex ⊢
  have hreport : Aside s
      (if o.isMain && !f.hasDoctype then report o .missingDoctype s else s) := by
    split
    · exact .report o _ s
    · exact .refl s
  have hfirst := hreport.scoped index hs none
  have hnodes := topNodes_scoped env f.children _ _ hfirst.names hf hindex
  rw [List.map_nil, List.append_nil] at hnodes
  refine hfirst.append (fun id hid => absurd hid (Option.not_mem_none id)) ?_
  rwa [List.map_nil, List.append_nil]

end

end Declarations

end PageTemplates
