import PageTemplates.Compile
import PageTemplates.Proofs.Sound

/-!
# What compiling the bodies of a catalog does

`Catalog.compileBodies` works on a catalog that it changes, template by template.  Nothing that it
changes has an influence on what it does, so that its result is a function of the catalog at the
beginning.

* `Catalog.visible`          the namespace of a component, and what is reported of it;
* `Catalog.compiled`         the nodes of a component, and what is reported of its body;
* `Catalog.reports`          everything that is reported of a template;
* `Catalog.schedule`         the components in the order in which they are compiled;
* `Catalog.schedule_perm`    each component is compiled once;
* `Catalog.compileBodies_eq` the catalog at the end;
* `Catalog.compileBodies_about`   the entries of one kind in its log.
-/

namespace PageTemplates

/-! ## entries of one kind -/

namespace Log

/-- the entries whose problems satisfy `p` -/
def about (p : Problem → Bool) (log : Log) : List Entry := log.entries.filter (p ·.problem)

variable {p : Problem → Bool}

/-- problems that are not lints are always recorded -/
theorem about_report (hp : ∀ q, p q = true → q.severity ≠ .lint) (log : Log) (file : Option Text)
    (q : Problem) :
    (log.report file q).about p = log.about p ++ ([q].filter p).map (Entry.mk file) := by
  unfold report about
  rw [List.filter_singleton]
  by_cases hq : p q = true
  · rw [if_neg (fun hl => hp q hq hl.1), hq, List.filter_append, List.filter_singleton]
    show log.entries.filter _ ++ (bif p q then _ else _) = _
    rw [hq]
    rfl
  · rw [Bool.not_eq_true] at hq
    rw [hq]
    split
    · exact (List.append_nil _).symm
    · rw [List.filter_append, List.filter_singleton]
      show log.entries.filter _ ++ (bif p q then _ else _) = _
      rw [hq]
      rfl

theorem about_reportAll (hp : ∀ q, p q = true → q.severity ≠ .lint) (log : Log)
    (file : Option Text) (qs : List Problem) :
    (log.reportAll file qs).about p = log.about p ++ (qs.filter p).map (Entry.mk file) := by
  induction qs generalizing log with
  | nil => exact (List.append_nil _).symm
  | cons q qs ih =>
    rw [reportAll_cons, ih, about_report hp, List.append_assoc, ← List.map_append,
      ← List.filter_append, List.singleton_append]

end Log

/-! ## components as they are used -/

/-- what a use of a component depends on -/
def Component.signature (d : Component) : ComponentId × Attributes := (d.id, d.params)

namespace Scope
variable {c : Scope} {ds : List Component}

theorem target?_congr (h : ds.map Component.signature = c.components.map Component.signature)
    (name : Text) : ({ c with components := ds }.target? name).map Component.signature
      = (c.target? name).map Component.signature := by
  unfold target?
  dsimp only
  cases c.names.get? name with
  | none => rfl
  | some v =>
    cases v with
    | builtin => rfl
    | component id =>
      dsimp only
      split
      · rfl
      · rw [← List.getElem?_map, h, List.getElem?_map]

mutual
theorem node_congr (h : ds.map Component.signature = c.components.map Component.signature)
    (verbatim : Bool) (n : BodyNode) (done : List OutputNode) :
    Scope.node { c with components := ds } verbatim n done = c.node verbatim n done := by
  cases n with
  | text run => rw [node, node]
  | style sheet attributes => rw [node, node]
  | element name attributes children =>
    have ht := target?_congr h name
    rw [node, node]
    rw [nodes_congr h false children, nodes_congr h (name = scriptName) children]
    cases hnew : Scope.target? { c with components := ds } name with
    | none =>
      rw [hnew] at ht
      rw [Option.map_eq_none_iff.1 ht.symm]
    | some target =>
      rw [hnew] at ht
      obtain ⟨target', htarget, hs⟩ := Option.map_eq_some_iff.1 ht.symm
      obtain ⟨hid, hparams⟩ := Prod.mk.inj hs
      rw [htarget]
      dsimp only
      rw [hid, hparams]
theorem nodes_congr (h : ds.map Component.signature = c.components.map Component.signature)
    (verbatim : Bool) (ns : List BodyNode) (done : List OutputNode) :
    Scope.nodes { c with components := ds } verbatim ns done = c.nodes verbatim ns done := by
  cases ns with
  | nil => rw [nodes, nodes]
  | cons n ns => rw [nodes, nodes, node_congr h verbatim n done, nodes_congr h verbatim ns]
end

theorem compile_congr (h : ds.map Component.signature = c.components.map Component.signature)
    (body : List BodyNode) :
    Scope.compile { c with components := ds } body = c.compile body := by
  unfold compile
  rw [nodes_congr h]

end Scope

/-! ## what bodies report -/

/-- a problem that the markup of a body can have by itself -/
def Problem.isMarkup : Problem → Bool
  | .placeholder _ _ | .directive _ _ | .deprecatedElement _ | .unknownElement _ => true
  | _ => false

/-- problems of markup only -/
def Markup (ps : List Problem) : Prop := ∀ p ∈ ps, p.isMarkup = true

namespace Markup

theorem nil : Markup [] := fun _ h => absurd h List.not_mem_nil

theorem single {p : Problem} (h : p.isMarkup = true) : Markup [p] := fun _ hq =>
  List.mem_singleton.1 hq ▸ h

theorem append {ps qs : List Problem} (h : Markup ps) (h' : Markup qs) : Markup (ps ++ qs) :=
  fun p hp => (List.mem_append.1 hp).elim (h p) (h' p)

/-- problems of another kind are not among them -/
theorem filter_eq_nil {ps : List Problem} (h : Markup ps) {q : Problem → Bool}
    (hq : ∀ p, p.isMarkup = true → q p = false) : ps.filter q = [] :=
  List.filter_eq_nil_iff.2 (fun p hp => by rw [hq p (h p hp)]; exact Bool.false_ne_true)

theorem placeholders (source : Text) : Markup (Problem.ofPlaceholders source) := by
  intro p hp
  obtain ⟨fault, _, rfl⟩ := List.mem_map.1 hp
  rfl

theorem plainBinds (attributes : Attributes) : Markup (PageTemplates.plainBinds attributes).2 := by
  intro p hp
  obtain ⟨e, _, hp⟩ := List.mem_flatMap.1 hp
  exact placeholders e.2 p hp

theorem wrap (element : Text) (attributes : Attributes) (n : OutputNode) :
    Markup (PageTemplates.wrap element attributes n).2 := by
  unfold PageTemplates.wrap
  refine append ?_ ?_
  · unfold wrapCondition
    split
    · exact nil
    · split
      · exact nil
      · exact single rfl
  · unfold wrapRepetition
    split
    · exact nil
    · split
      · exact nil
      · exact single rfl

theorem plain (name : Text) : Markup (plainProblems name) := by
  unfold plainProblems
  split
  · exact single rfl
  · split
    · exact nil
    · exact single rfl

theorem text (verbatim : Bool) (run : Run) : Markup (compileText verbatim run).2 := by
  unfold compileText
  split
  · exact nil
  · exact placeholders _

theorem style (sheets : List Sheet) (sheet : SheetId) (attributes : Attributes)
    (done : List OutputNode) : Markup (compileStyle sheets sheet attributes done).2 := by
  unfold compileStyle
  split
  · exact nil
  · dsimp only
    split
    · exact nil
    · split
      · exact append (plainBinds _) (wrap _ _ _)
      · split
        · exact plainBinds _
        · exact append (plainBinds _) (wrap _ _ _)

end Markup

namespace Scope

/-- a problem for each attribute of a use that is neither a directive nor a parameter -/
def strays (c : Scope) (e : Text × Attributes) : List Problem :=
  (c.target? e.1).toList.flatMap fun target =>
    (e.2.names.filter fun name => !directiveNames.contains name && !target.params.contains name).map
      (.unknownParameter e.1)

variable {c : Scope} {q : Problem → Bool}

theorem strays_of_some {e : Text × Attributes} {target : Component}
    (h : c.target? e.1 = some target) : c.strays e
      = (e.2.names.filter fun name =>
          !directiveNames.contains name && !target.params.contains name).map
        (.unknownParameter e.1) := by
  unfold strays
  rw [h, Option.toList_some, List.flatMap_singleton]

theorem strays_of_none {e : Text × Attributes} (h : c.target? e.1 = none) : c.strays e = [] := by
  unfold strays
  rw [h]
  rfl

theorem eq_of_mem_strays {e : Text × Attributes} {p : Problem} (h : p ∈ c.strays e) :
    ∃ name, p = .unknownParameter e.1 name := by
  obtain ⟨target, _, h⟩ := List.mem_flatMap.1 h
  obtain ⟨name, _, rfl⟩ := List.mem_map.1 h
  exact ⟨name, rfl⟩

theorem filter_componentBinds (hq : ∀ p, p.isMarkup = true → q p = false) (element : Text)
    (params attributes : Attributes) :
    (componentBinds element params (attributes.without directiveNames)).2.filter q
      = ((attributes.names.filter fun name =>
          !directiveNames.contains name && !params.contains name).map
        (.unknownParameter element)).filter q := by
  have hparam (e : Text × Text) : (if params.contains e.1 = true
        then Problem.ofPlaceholders e.2 else [.unknownParameter element e.1]).filter q
      = if params.contains e.1 = true then [] else [.unknownParameter element e.1].filter q := by
    split
    · exact (Markup.placeholders e.2).filter_eq_nil hq
    · rfl
  unfold componentBinds NameMap.names
  dsimp only
  rw [NameMap.entries_without, List.filter_flatMap, funext hparam]
  induction attributes.entries with
  | nil => rfl
  | cons e entries ih =>
    rw [List.filter_cons, List.map_cons, List.filter_cons]
    cases hd : directiveNames.contains e.1 with
    | true => exact ih
    | false =>
      rw [if_pos (show (!false) = true from rfl), List.flatMap_cons, ih]
      cases hp : params.contains e.1 with
      | true => rfl
      | false =>
        rw [if_neg Bool.false_ne_true, if_pos (show (!false && !false) = true from rfl),
          List.map_cons, ← List.filter_append]
        rfl

mutual
/-- apart from the problems of markup, a body reports its stray attributes, parents first -/
theorem filter_node (hq : ∀ p, p.isMarkup = true → q p = false) (verbatim : Bool) (n : BodyNode)
    (done : List OutputNode) :
    (c.node verbatim n done).2.filter q = (n.elements.flatMap c.strays).filter q := by
  cases n with
  | text run =>
    rw [node]
    exact (Markup.text verbatim run).filter_eq_nil hq
  | style sheet attributes =>
    rw [node]
    exact (Markup.style _ _ _ _).filter_eq_nil hq
  | element name attributes children =>
    rw [node, BodyNode.elements, List.flatMap_cons]
    dsimp only
    rw [List.filter_append, (Markup.wrap _ _ _).filter_eq_nil hq, List.append_nil,
      List.filter_append]
    cases ht : c.target? name with
    | some target =>
      dsimp only
      rw [List.filter_append, filter_componentBinds hq, filter_nodes hq false children [],
        strays_of_some ht]
    | none =>
      dsimp only
      rw [List.filter_append, List.filter_append, (Markup.plain name).filter_eq_nil hq,
        (Markup.plainBinds _).filter_eq_nil hq, filter_nodes hq _ children [], strays_of_none ht]
      rfl
theorem filter_nodes (hq : ∀ p, p.isMarkup = true → q p = false) (verbatim : Bool)
    (ns : List BodyNode) (done : List OutputNode) : (c.nodes verbatim ns done).2.filter q
      = ((BodyNode.elementsOf ns).flatMap c.strays).filter q := by
  cases ns with
  | nil =>
    rw [nodes]
    rfl
  | cons n ns =>
    rw [nodes, BodyNode.elementsOf, List.flatMap_append, List.filter_append, List.filter_append,
      filter_node hq verbatim n done, filter_nodes hq verbatim ns]
end

theorem filter_compile (hq : ∀ p, p.isMarkup = true → q p = false) (body : List BodyNode) :
    (c.compile body).2.filter q = ((BodyNode.elementsOf body).flatMap c.strays).filter q :=
  filter_nodes hq false body []

end Scope

namespace Catalog

/-- the namespace in which a component of a template is compiled, and what is reported of it -/
def visible (cat : Catalog) (t : Template) (d : Component) : Namespace × List Problem :=
  (TemplateNames.ofTemplate t cat.templates).1.forComponent d cat.templates

/-- what the body of a component of a template is compiled against -/
def scope (cat : Catalog) (t : Template) (d : Component) : Scope :=
  ⟨d.id, cat.components, cat.sheets, (cat.visible t d).1⟩

/-- the nodes of a component of a template, and what is reported of its body -/
def compiled (cat : Catalog) (t : Template) (d : Component) : List OutputNode × List Problem :=
  (cat.scope t d).compile d.body

/-- a component with its nodes -/
def finished (cat : Catalog) (d : Component) : Component :=
  match cat.templates[d.template]? with
  | none => d
  | some t => { d with nodes := (cat.compiled t d).1 }

def declarations (cat : Catalog) (t : Template) : List Component :=
  cat.components.filter fun d => d.template = t.id

/-- everything that is reported of a template -/
def reports (cat : Catalog) (t : Template) : List Problem :=
  (TemplateNames.ofTemplate t cat.templates).2
    ++ (cat.declarations t).flatMap fun d => (cat.visible t d).2 ++ (cat.compiled t d).2

/-- the templates that declare something -/
def declaring (cat : Catalog) : List Template := cat.templates.filter fun t => !t.tags.isEmpty

/-- the work on one template: its own problems, and then one component after another -/
def compileDeclared (cat c : Catalog) (t : Template) : Catalog :=
  (cat.declarations t).foldl (compileComponent (TemplateNames.ofTemplate t cat.templates).1 t.file)
    (c.reportAll t.file (TemplateNames.ofTemplate t cat.templates).2)

/-- the components in the order in which they are compiled -/
def schedule (cat : Catalog) : List Component := cat.declaring.flatMap cat.declarations

/-! ## the catalog on the way -/

/-- the catalog when some components are compiled -/
def progress (cat : Catalog) (done : List ComponentId) (log : Log) : Catalog :=
  { cat with
    components := cat.components.map fun d => if d.id ∈ done then cat.finished d else d
    log }

theorem finished_eq (cat : Catalog) (d : Component) :
    ∃ nodes, cat.finished d = { d with nodes } := by
  unfold finished
  split
  · exact ⟨d.nodes, rfl⟩
  · exact ⟨_, rfl⟩

/-- a component on the way differs in nothing but its nodes -/
theorem progress_component (cat : Catalog) (done : List ComponentId) (d : Component) :
    ∃ nodes, (if d.id ∈ done then cat.finished d else d) = { d with nodes } := by
  split
  · exact cat.finished_eq d
  · exact ⟨d.nodes, rfl⟩

theorem progress_signature (cat : Catalog) (done : List ComponentId) (log : Log) :
    (cat.progress done log).components.map Component.signature
      = cat.components.map Component.signature := by
  show (cat.components.map _).map Component.signature = _
  rw [List.map_map]
  apply List.map_congr_left
  intro d _
  obtain ⟨nodes, h⟩ := cat.progress_component done d
  show Component.signature (ite _ _ _) = _
  rw [h]
  rfl

section
variable {cat : Catalog} (h : cat.Sound) {t : Template}
include h

theorem finished_of_declared (ht : t ∈ cat.templates) {d : Component}
    (hd : d ∈ cat.declarations t) : cat.finished d = { d with nodes := (cat.compiled t d).1 } := by
  have htemplate : d.template = t.id := of_decide_eq_true (List.mem_filter.1 hd).2
  unfold finished
  rw [htemplate, h.templates.getElem?_of_mem ht]

/-- what the components on the way hold does not matter to the next one -/
theorem progress_modify (ht : t ∈ cat.templates) {d : Component} (hd : d ∈ cat.declarations t)
    (done : List ComponentId) (log : Log) :
    (cat.progress done log).components.modify d.id
        (fun c => { c with nodes := (cat.compiled t d).1 })
      = (cat.progress (done ++ [d.id]) log).components := by
  have hnumbered : Numbered Component.id (cat.progress done log).components := by
    apply h.components.of_map_eq
    have hs := congrArg (List.map Prod.fst) (cat.progress_signature done log)
    rw [List.map_map, List.map_map] at hs
    exact hs
  have hdmem : d ∈ cat.components := (List.mem_filter.1 hd).1
  rw [hnumbered.modify_eq_map]
  show (cat.components.map _).map _ = cat.components.map _
  rw [List.map_map]
  apply List.map_congr_left
  intro e he
  obtain ⟨nodes, hn⟩ := cat.progress_component done e
  show (if (ite _ _ _ : Component).id = d.id then _ else ite _ _ _) = ite _ _ _
  by_cases hid : e.id = d.id
  · obtain rfl := h.components.eq_of_mem he hdmem hid
    rw [hn, if_pos rfl, if_pos (List.mem_append_right _ List.mem_cons_self),
      finished_of_declared h ht hd]
    dsimp only
    rw [hn]
  · have hmem : e.id ∈ done ++ [d.id] ↔ e.id ∈ done := by
      rw [List.mem_append, List.mem_singleton, or_iff_left hid]
    rw [if_neg (by rw [hn]; exact hid)]
    by_cases hdone : e.id ∈ done
    · rw [if_pos hdone, if_pos (hmem.2 hdone)]
    · rw [if_neg hdone, if_neg (fun hm => hdone (hmem.1 hm))]

theorem compileComponent_progress (ht : t ∈ cat.templates) {d : Component}
    (hd : d ∈ cat.declarations t) (done : List ComponentId) (log : Log) :
    compileComponent (TemplateNames.ofTemplate t cat.templates).1 t.file (cat.progress done log) d
      = cat.progress (done ++ [d.id])
        (log.reportAll (some t.file) ((cat.visible t d).2 ++ (cat.compiled t d).2)) := by
  have hcompiled : Scope.compile ⟨d.id, (cat.progress done log).components,
      (cat.progress done log).sheets, (cat.visible t d).1⟩ d.body = cat.compiled t d :=
    Scope.compile_congr (c := cat.scope t d) (cat.progress_signature done log) d.body
  unfold compileComponent
  show (fun r : List OutputNode × List Problem => ((cat.progress done log).reportAll t.file
    ((cat.visible t d).2 ++ r.2)).modifyComponent d.id fun c => { c with nodes := r.1 })
      (Scope.compile ⟨d.id, (cat.progress done log).components, (cat.progress done log).sheets,
        (cat.visible t d).1⟩ d.body) = _
  rw [hcompiled]
  exact congrArg (fun components => { cat.progress done
    (log.reportAll (some t.file) ((cat.visible t d).2 ++ (cat.compiled t d).2)) with components })
    (progress_modify h ht hd done log)

theorem foldl_compileComponent (ht : t ∈ cat.templates) (ds : List Component)
    (hds : ∀ d ∈ ds, d ∈ cat.declarations t) (done : List ComponentId) (log : Log) :
    ds.foldl (compileComponent (TemplateNames.ofTemplate t cat.templates).1 t.file)
        (cat.progress done log)
      = cat.progress (done ++ ds.map Component.id) (log.reportAll (some t.file)
        (ds.flatMap fun d => (cat.visible t d).2 ++ (cat.compiled t d).2)) := by
  induction ds generalizing done log with
  | nil => rw [List.map_nil, List.append_nil]; rfl
  | cons d ds ih =>
    rw [List.foldl_cons, compileComponent_progress h ht (hds d List.mem_cons_self),
      ih (fun e he => hds e (List.mem_cons_of_mem _ he)), List.map_cons, List.flatMap_cons,
      ← Log.reportAll_append, List.append_assoc, List.singleton_append]

omit h in
/-- the components of a template on the way, and at the beginning -/
theorem progress_declarations (t : Template) (done : List ComponentId) (log : Log) :
    (cat.progress done log).declarations t
      = (cat.declarations t).map fun d => if d.id ∈ done then cat.finished d else d := by
  unfold declarations
  show (cat.components.map _).filter _ = _
  rw [List.filter_map]
  refine congrArg _ (List.filter_congr ?_)
  intro d _
  obtain ⟨nodes, hn⟩ := cat.progress_component done d
  show decide ((ite _ _ _ : Component).template = t.id) = _
  rw [hn]

omit h in
theorem compileTemplate_eq (ht : t ∈ cat.declaring) (done : List ComponentId) (log : Log) :
    (cat.progress done log).compileTemplate t = cat.compileDeclared (cat.progress done log) t := by
  have htags := (List.mem_filter.1 ht).2
  rw [Bool.not_eq_true'] at htags
  unfold compileTemplate
  rw [htags, if_neg Bool.false_ne_true]
  show ((cat.progress done log).declarations t).foldl _ _ = _
  rw [progress_declarations, List.foldl_map]
  have hfill : (fun c d => compileComponent (TemplateNames.ofTemplate t cat.templates).1 t.file c
        (if d.id ∈ done then cat.finished d else d))
      = compileComponent (TemplateNames.ofTemplate t cat.templates).1 t.file := by
    funext c d
    obtain ⟨nodes, hn⟩ := cat.progress_component done d
    rw [hn]
    rfl
  show (cat.declarations t).foldl (fun c d =>
    compileComponent (TemplateNames.ofTemplate t cat.templates).1 t.file c _) _ = _
  rw [hfill]
  rfl

theorem compileDeclared_progress (ht : t ∈ cat.declaring) (done : List ComponentId) (log : Log) :
    cat.compileDeclared (cat.progress done log) t
      = cat.progress (done ++ (cat.declarations t).map Component.id)
        (log.reportAll (some t.file) (cat.reports t)) := by
  have hfold := foldl_compileComponent h (List.mem_filter.1 ht).1 _ (fun _ hd => hd) done
    (log.reportAll (some t.file) (TemplateNames.ofTemplate t cat.templates).2)
  rw [← Log.reportAll_append] at hfold
  exact hfold

omit h in
theorem foldl_compileTemplate (ts : List Template) (c : Catalog) : ts.foldl compileTemplate c
    = (ts.filter fun t => !t.tags.isEmpty).foldl compileTemplate c := by
  induction ts generalizing c with
  | nil => rfl
  | cons t ts ih =>
    rw [List.foldl_cons, ih, List.filter_cons]
    cases htags : t.tags.isEmpty with
    | true =>
      have hskip : c.compileTemplate t = c := by
        unfold compileTemplate
        rw [htags, if_pos rfl]
      rw [hskip]
      rfl
    | false => rfl

theorem foldl_compileDeclared (ts : List Template) (hts : ∀ t ∈ ts, t ∈ cat.declaring)
    (done : List ComponentId) (log : Log) :
    ts.foldl compileTemplate (cat.progress done log)
      = ts.foldl cat.compileDeclared (cat.progress done log) ∧
    ts.foldl cat.compileDeclared (cat.progress done log)
      = cat.progress (done ++ (ts.flatMap cat.declarations).map Component.id)
        (ts.foldl (fun log t => log.reportAll (some t.file) (cat.reports t)) log) := by
  induction ts generalizing done log with
  | nil =>
    rw [List.flatMap_nil, List.map_nil, List.append_nil]
    exact ⟨rfl, rfl⟩
  | cons t ts ih =>
    have ht := hts t List.mem_cons_self
    rw [List.foldl_cons, List.foldl_cons, List.foldl_cons, compileTemplate_eq ht,
      compileDeclared_progress h ht, List.flatMap_cons, List.map_append, ← List.append_assoc]
    exact ih (fun t' ht' => hts t' (List.mem_cons_of_mem _ ht')) _ _

/-! ## the catalog at the end -/

/-- every component belongs to a template that declares it -/
theorem mem_schedule (d : Component) : d ∈ cat.schedule ↔ d ∈ cat.components := by
  unfold schedule
  rw [List.mem_flatMap]
  constructor
  · rintro ⟨t, _, hd⟩
    exact (List.mem_filter.1 hd).1
  · intro hd
    obtain ⟨face, hface, hm⟩ := h.filed.declared d.face (List.mem_map_of_mem hd)
    rw [List.getElem?_map] at hface
    obtain ⟨t, ht, rfl⟩ := Option.map_eq_some_iff.1 hface
    have hid : t.id = d.template := h.templates d.template t ht
    refine ⟨t, List.mem_filter.2 ⟨List.mem_of_getElem? ht, ?_⟩,
      List.mem_filter.2 ⟨hd, decide_eq_true hid.symm⟩⟩
    rw [Bool.not_eq_true']
    unfold NameMap.isEmpty
    rw [List.isEmpty_eq_false_iff]
    exact List.ne_nil_of_mem hm

/-- each component is compiled once -/
theorem schedule_perm : cat.schedule.Perm cat.components := by
  have hnodup : cat.components.Nodup := h.components.nodup_map.of_map
  refine (List.perm_ext_iff_of_nodup ?_ hnodup).2 (mem_schedule h)
  refine List.nodup_flatMap.2 ⟨fun t _ => hnodup.filter _, ?_⟩
  have hids : cat.declaring.Pairwise fun t t' => t.id ≠ t'.id :=
    List.pairwise_map.1 (h.templates.nodup_map.sublist (List.filter_sublist.map _))
  refine hids.imp (fun hne d hd hd' => hne ?_)
  exact (of_decide_eq_true (List.mem_filter.1 hd).2).symm.trans
    (of_decide_eq_true (List.mem_filter.1 hd').2)

omit h in
theorem progress_nil : cat.progress [] cat.log = cat := by
  unfold progress
  have hnone : (fun d : Component => if d.id ∈ [] then cat.finished d else d) = id := by
    funext d
    exact if_neg List.not_mem_nil
  rw [hnone, List.map_id]

/-- the work is done for the components that there are at the beginning -/
theorem compileBodies_foldl : cat.compileBodies = cat.declaring.foldl cat.compileDeclared cat := by
  have hfold := (foldl_compileDeclared h cat.declaring (fun _ ht => ht) [] cat.log).1
  rw [progress_nil] at hfold
  exact (foldl_compileTemplate cat.templates cat).trans hfold

theorem compileBodies_eq : cat.compileBodies =
    { cat with
      components := cat.components.map cat.finished
      log := cat.declaring.foldl (fun log t => log.reportAll (some t.file) (cat.reports t))
        cat.log } := by
  have hend (log : Log) : cat.progress (cat.schedule.map Component.id) log
      = { cat with components := cat.components.map cat.finished, log } := by
    unfold progress
    congr 1
    apply List.map_congr_left
    intro d hd
    exact if_pos (List.mem_map_of_mem ((mem_schedule h d).2 hd))
  have hfold := (foldl_compileDeclared h cat.declaring (fun _ ht => ht) [] cat.log).2
  rw [progress_nil] at hfold
  rw [compileBodies_foldl h, hfold]
  exact hend _

/-- the entries of one kind that the bodies add to the log -/
theorem compileBodies_about {p : Problem → Bool} (hp : ∀ q, p q = true → q.severity ≠ .lint) :
    cat.compileBodies.log.about p = cat.log.about p
      ++ cat.declaring.flatMap fun t =>
        ((cat.reports t).filter p).map (Entry.mk (some t.file)) := by
  rw [compileBodies_eq h]
  show (cat.declaring.foldl _ cat.log).about p = _
  generalize cat.declaring = ts
  generalize cat.log = log
  induction ts generalizing log with
  | nil => exact (List.append_nil _).symm
  | cons t ts ih =>
    rw [List.foldl_cons, ih, Log.about_reportAll hp, List.flatMap_cons, List.append_assoc]

end

end Catalog

end PageTemplates
