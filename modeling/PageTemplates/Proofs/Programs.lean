import PageTemplates.Program
import PageTemplates.Proofs.Bodies
import PageTemplates.Proofs.FirstUse

/-!
# Compiled programs

* `OutputNode.usesOf_styling`, `Scope.uses_compile`   what a compiled body uses is in scope;
* `Program.Whole`     components have their numbers, their templates, and use components only;
* `whole_of_compile`  every compiled program is whole;
* `pageLinks_walk`    the links of its pages.
-/

namespace PageTemplates

open OutputNode (usesOf)

/-! ## compiled bodies -/

namespace OutputNode

theorem uses_wrapped {core o : OutputNode} (h : Wrapped core o) : o.uses = core.uses := by
  have hsingle (n : OutputNode) : usesOf [n] = n.uses := List.append_nil _
  cases h with
  | bare => rfl
  | cond e => exact hsingle core
  | repetition r => exact hsingle core
  | both r e => exact (hsingle _).trans (hsingle core)

theorem usesOf_append (ns ms : List OutputNode) : usesOf (ns ++ ms) = usesOf ns ++ usesOf ms := by
  induction ns with
  | nil => rfl
  | cons n ns ih => rw [List.cons_append, usesOf, usesOf, ih, List.append_assoc]

theorem mem_usesOf_reverse {id : ComponentId} {ns : List OutputNode} :
    id ∈ usesOf ns.reverse ↔ id ∈ usesOf ns := by
  simp only [mem_usesOf, List.mem_reverse]

theorem usesOf_compileText (verbatim : Bool) (run : Run) :
    usesOf (compileText verbatim run).1 = [] := by
  unfold compileText
  split
  · rfl
  · show usesOf ((Placeholder.fragments run.text).map Fragment.node) = []
    induction Placeholder.fragments run.text with
    | nil => rfl
    | cons f fs ih =>
      rw [List.map_cons, usesOf, ih]
      cases f <;> rfl

theorem usesOf_styling {sheets : List Sheet} {sheet : SheetId} {attributes : Attributes}
    {done done' : List OutputNode} (h : Styling sheets sheet attributes done done') :
    usesOf done' = usesOf done := by
  cases h with
  | blank => rfl
  | fresh =>
    rw [usesOf, uses_wrapped (Wrapped.of_wrap _ _ _)]
    rfl
  | merged =>
    rw [usesOf_append, usesOf_append, usesOf, usesOf, uses, uses, usesOf_append]
    simp only [usesOf, uses, List.append_nil]

end OutputNode

namespace Scope
variable {c : Scope}

theorem target?_mem {name : Text} {target : Component} (h : c.target? name = some target) :
    target ∈ c.components := by
  unfold target? at h
  split at h
  · split at h
    · cases h
    · exact List.mem_of_getElem? h
  · cases h

mutual
/-- a compiled node uses components of its scope -/
theorem uses_node (verbatim : Bool) (n : BodyNode) (done : List OutputNode) {id : ComponentId}
    (h : id ∈ usesOf (c.node verbatim n done).1) :
    id ∈ usesOf done ∨ id ∈ c.components.map Component.id := by
  cases n with
  | text run =>
    rw [node, OutputNode.usesOf_append, List.mem_append, OutputNode.mem_usesOf_reverse,
      OutputNode.usesOf_compileText] at h
    exact h.elim (fun h => absurd h List.not_mem_nil) .inl
  | style sheet attributes =>
    rw [node, OutputNode.usesOf_styling (compileStyle_styling _ _ _ _)] at h
    exact .inl h
  | element name attributes children =>
    have hbelow (verbatim : Bool) (h : id ∈ usesOf (c.nodes verbatim children []).1.reverse) :
        id ∈ c.components.map Component.id :=
      (uses_nodes verbatim children [] (OutputNode.mem_usesOf_reverse.1 h)).resolve_left
        List.not_mem_nil
    rw [node] at h
    dsimp only at h
    rw [usesOf, List.mem_append, OutputNode.uses_wrapped (Wrapped.of_wrap _ _ _)] at h
    rcases h with h | h
    · right
      cases ht : c.target? name with
      | some target =>
        rw [ht] at h
        rcases List.mem_cons.1 h with rfl | h
        · exact List.mem_map_of_mem (target?_mem ht)
        · exact hbelow _ h
      | none =>
        rw [ht] at h
        exact hbelow _ h
    · exact .inl h
theorem uses_nodes (verbatim : Bool) (ns : List BodyNode) (done : List OutputNode)
    {id : ComponentId} (h : id ∈ usesOf (c.nodes verbatim ns done).1) :
    id ∈ usesOf done ∨ id ∈ c.components.map Component.id := by
  cases ns with
  | nil =>
    rw [nodes] at h
    exact .inl h
  | cons n ns =>
    rw [nodes] at h
    rcases uses_nodes verbatim ns _ h with h | h
    · exact uses_node verbatim n done h
    · exact .inr h
end

theorem uses_compile (body : List BodyNode) {id : ComponentId}
    (h : id ∈ usesOf (c.compile body).1) : id ∈ c.components.map Component.id :=
  (uses_nodes false body [] (OutputNode.mem_usesOf_reverse.1 h)).resolve_left List.not_mem_nil

end Scope

/-! ## compiled programs -/

namespace Catalog
variable {cat : Catalog}

theorem Loaded.collect (h : cat.Loaded) : cat.collect.Loaded := by
  unfold Catalog.collect
  dsimp only
  cases cat.templates.findSome? Template.fontHost with
  | none =>
    cases cat.templates.findSome? Template.styleHost with
    | none => exact h
    | some host => exact h.collectStyles _ host
  | some host =>
    cases cat.templates.findSome? Template.styleHost with
    | none => exact h.collectFonts _ host
    | some host' => exact (h.collectFonts _ host).collectStyles _ host'

/-- every component of a compiled catalog is one of the catalog before, with nodes that use
components of the catalog only -/
theorem uses_compileBodies (h : cat.Sound) (i : ComponentId) (d : Component)
    (hd : cat.compileBodies.components[i]? = some d) :
    d.id = i ∧ (∃ t, cat.compileBodies.templates[d.template]? = some t) ∧
      ∀ id ∈ usesOf d.nodes, id < cat.compileBodies.components.length := by
  rw [compileBodies_eq h] at hd ⊢
  show _ ∧ _ ∧ ∀ id ∈ _, id < (cat.components.map cat.finished).length
  have hd : (cat.components.map cat.finished)[i]? = some d := hd
  rw [List.getElem?_map] at hd
  obtain ⟨e, he, rfl⟩ := Option.map_eq_some_iff.1 hd
  have hmem := List.mem_of_getElem? he
  obtain ⟨t, ht, hdt⟩ := List.mem_flatMap.1 ((mem_schedule h e).2 hmem)
  have htm : t ∈ cat.templates := (List.mem_filter.1 ht).1
  have htemplate : e.template = t.id := of_decide_eq_true (List.mem_filter.1 hdt).2
  rw [finished_of_declared h htm hdt]
  refine ⟨h.components i e he, ⟨t, ?_⟩, ?_⟩
  · show cat.templates[e.template]? = some t
    rw [htemplate]
    exact h.templates.getElem?_of_mem htm
  · intro id hid
    obtain ⟨target, htarget, rfl⟩ := List.mem_map.1 (Scope.uses_compile e.body hid)
    rw [List.length_map]
    exact (List.getElem?_eq_some_iff.1 (h.components.getElem?_of_mem htarget)).1

end Catalog

namespace Compiler

/-- the test data adds nothing to a catalog but entries of the log -/
theorem testData_eq (c : Compiler) (cat : Catalog) :
    ∃ log, (c.testData cat).2.1 = { cat with log } := by
  unfold testData
  split
  · exact ⟨cat.log, rfl⟩
  · split
    · exact ⟨cat.log, rfl⟩
    · split
      · exact ⟨_, rfl⟩
      · split
        · exact ⟨cat.log, rfl⟩
        · exact ⟨_, rfl⟩

theorem components_finish (c : Compiler) (s : Session) :
    (c.finish s).program.components = s.catalog.collect.compileBodies.components := by
  obtain ⟨log, hlog⟩ := c.testData_eq s.catalog.collect.compileBodies
  show (c.testData s.catalog.collect.compileBodies).2.1.components = _
  rw [hlog]

theorem templates_finish (c : Compiler) (s : Session) :
    (c.finish s).program.templates = s.catalog.collect.compileBodies.templates := by
  obtain ⟨log, hlog⟩ := c.testData_eq s.catalog.collect.compileBodies
  show (c.testData s.catalog.collect.compileBodies).2.1.templates = _
  rw [hlog]

end Compiler

namespace Program

/-- every component is found under its number and belongs to a template, and uses components only -/
structure Whole (p : Program) : Prop where
  numbered : Numbered Component.id p.components
  owned : ∀ d ∈ p.components, ∃ t, p.templates[d.template]? = some t
  closed : p.linkWalk.Closed

theorem whole_of_compile {c : Compiler} {fuel : Nat} {entry : Path} {r : Compilation}
    (h : c.compile fuel entry = some r) : r.program.Whole := by
  obtain ⟨s, hrun, rfl⟩ := Option.map_eq_some_iff.1 h
  have hloaded : s.catalog.Loaded :=
    .run c.env c.siteRoot c.lints [.main (.ofPath entry)] fuel s hrun
  have hcomponents := c.components_finish s
  have htemplates := c.templates_finish s
  have hall := Catalog.uses_compileBodies hloaded.collect.sound
  refine ⟨?_, ?_, ?_⟩
  · rw [hcomponents]
    exact fun i d hd => (hall i d hd).1
  · rw [hcomponents, htemplates]
    intro d hd
    obtain ⟨i, hi⟩ := List.mem_iff_getElem?.1 hd
    exact (hall i d hi).2.1
  · unfold LinkWalk.Closed linkWalk
    rw [hcomponents]
    intro d hd
    obtain ⟨i, hi⟩ := List.mem_iff_getElem?.1 hd
    exact (hall i d hi).2.2

/-- a link of a component that `root` reaches, or of the template that declares one -/
def Hoisted (p : Program) (root : ComponentId) (l : Link) : Prop :=
  ∃ (id : ComponentId) (d : Component) (t : Template), p.linkWalk.Reaches root id ∧
    p.components[id]? = some d ∧ p.templates[d.template]? = some t ∧ (l ∈ d.links ∨ l ∈ t.links)

section
variable {p : Program} {root : ComponentId}

/-- nothing outside of a program is reached -/
theorem Whole.found (h : p.Whole) (hroot : root < p.components.length) {id : ComponentId}
    (hreach : p.linkWalk.Reaches root id) :
    ∃ d t, p.components[id]? = some d ∧ p.templates[d.template]? = some t := by
  have hlt : id < p.components.length := by
    cases hreach with
    | refl => exact hroot
    | tail _ hstep =>
      obtain ⟨c, hc, huse⟩ := hstep
      exact h.closed c (List.mem_of_getElem? hc) id huse
  obtain ⟨t, ht⟩ := h.owned _ (List.getElem_mem hlt)
  exact ⟨_, t, List.getElem?_eq_getElem hlt, ht⟩

theorem Whole.mem_iff_hoisted (h : p.Whole) {ls : List Link} (hmet : p.linkWalk.Met root ls)
    {l : Link} : l ∈ ls ↔ p.Hoisted root l := by
  have hlinks {d : Component} {t : Template} (ht : p.templates[d.template]? = some t) :
      p.linkWalk.templateLinks d.template = t.links := by
    show (p.templates[d.template]?.map Template.links).getD [] = _
    rw [ht]
    rfl
  rw [hmet.mem_iff]
  constructor
  · rintro ⟨id, d, hreach, hd, hl⟩
    obtain ⟨t, ht⟩ := h.owned d (List.mem_of_getElem? hd)
    rw [hlinks ht] at hl
    exact ⟨id, d, t, hreach, hd, ht, hl⟩
  · rintro ⟨id, d, t, hreach, hd, ht, hl⟩
    rw [← hlinks ht] at hl
    exact ⟨id, d, hreach, hd, hl⟩

theorem pageLinks_of_met {ls : List Link} (hmet : p.linkWalk.Met root ls) :
    p.pageLinks root = firstOfEachSheet [] ls := by
  show firstOfEachSheet [] (p.linkWalk.visit [] [] [.enter root]) = _
  rw [LinkWalk.visit_of_met hmet]

end

/-- **The links of a page.**  In a compiled program the walk from a component never leaves the
program, and it ends.  The links of the page are the first of each sheet that it meets; they are
links of components that it reaches or of their templates, and they stand for all of those. -/
theorem pageLinks_walk {c : Compiler} {fuel : Nat} {entry : Path} {r : Compilation}
    (h : c.compile fuel entry = some r) {root : Component} (hroot : root ∈ r.program.components) :
    (∀ id, r.program.linkWalk.Reaches root.id id → ∃ d t, r.program.components[id]? = some d ∧
      r.program.templates[d.template]? = some t) ∧
    (∃ ls, r.program.linkWalk.Met root.id ls) ∧
    (∀ ls, r.program.linkWalk.Met root.id ls → r.program.pageLinks root.id
      = ls.eraseDupsBy fun l l' => l.sheet == l'.sheet) ∧
    ((r.program.pageLinks root.id).map Link.sheet).Nodup ∧
    (∀ l ∈ r.program.pageLinks root.id, r.program.Hoisted root.id l) ∧
    ∀ l, r.program.Hoisted root.id l →
      ∃ l' ∈ r.program.pageLinks root.id, l'.sheet = l.sheet := by
  have hwhole := whole_of_compile h
  have hlt : root.id < r.program.components.length :=
    (List.getElem?_eq_some_iff.1 (hwhole.numbered.getElem?_of_mem hroot)).1
  obtain ⟨ls, hmet⟩ := LinkWalk.exists_met hwhole.closed hlt
  refine ⟨fun id => hwhole.found hlt, ⟨ls, hmet⟩, ?_, ?_, ?_, ?_⟩
  · intro ls' hmet'
    rw [pageLinks_of_met hmet', firstOfEachSheet_eq]
    exact congrArg _ (List.filter_eq_self.2 fun _ _ => rfl)
  · exact (nodup_firstOfEachSheet [] _).1
  · intro l hl
    rw [pageLinks_of_met hmet] at hl
    exact (hwhole.mem_iff_hoisted hmet).1 (firstOfEachSheet_subset [] ls hl)
  · intro l hl
    rw [pageLinks_of_met hmet]
    exact exists_mem_firstOfEachSheet ((hwhole.mem_iff_hoisted hmet).2 hl) List.not_mem_nil

/-- `one` and `two` use each other, and a stylesheet stands beside them -/
def entwined : Compiler where
  env := {
    read _ := .ok []
    parseMarkup _ _ := .ok ⟨[
      .element "link".toList
        (.ofList [("rel".toList, "stylesheet".toList), ("href".toList, "s".toList)]) [],
      .element "one".toList .empty [.element "two".toList .empty []],
      .element "two".toList .empty [.element "one".toList .empty []]], true⟩
    parseCss _ _ := ⟨[], .ok (.sheet [])⟩ }
  parseData _ := .error []
  siteRoot := ⟨true, []⟩
  lints := true

/-- the walk from `one` ends, and the page has the link of its template -/
theorem pageLinks_walk_entwined : ∃ r, entwined.compile 2 ⟨true, [.text "a".toList]⟩ = some r ∧
    ∃ root ∈ r.program.components, root.name = "one".toList ∧
      (∃ ls, r.program.linkWalk.Met root.id ls) ∧
      ∃ l ∈ r.program.pageLinks root.id, l.sheet = 0 := by
  have hr : (entwined.compile 2 ⟨true, [.text "a".toList]⟩).map (fun r => decide (
      (r.program.components.map fun d => (d.id, d.name, d.template))
        = [(0, "one".toList, 0), (1, "two".toList, 0)] ∧
      r.program.templates.map (fun t => t.links.map Link.sheet) = [[0]])) = some true := by decide
  obtain ⟨r, hcompile, hr⟩ := Option.map_eq_some_iff.1 hr
  obtain ⟨hcomponents, htemplates⟩ := of_decide_eq_true hr
  obtain ⟨root, rest, hlist, hroot, _⟩ := List.map_eq_cons_iff.1 hcomponents
  obtain ⟨t, _, hts, hlinks, _⟩ := List.map_eq_cons_iff.1 htemplates
  obtain ⟨l, _, hls, hsheet, _⟩ := List.map_eq_cons_iff.1 hlinks
  have hmem : root ∈ r.program.components := hlist ▸ List.mem_cons_self
  have hid : root.id = 0 := congrArg Prod.fst hroot
  have htemplate : root.template = 0 := congrArg (·.2.2) hroot
  have hhoisted : r.program.Hoisted root.id l := by
    refine ⟨root.id, root, t, .refl, ?_, ?_, .inr (hls ▸ List.mem_cons_self)⟩
    · rw [hid, hlist]
      rfl
    · rw [htemplate, hts]
      rfl
  obtain ⟨_, hmet, _, _, _, hall⟩ := pageLinks_walk hcompile hmem
  obtain ⟨l', hl', hs⟩ := hall l hhoisted
  exact ⟨r, hcompile, root, hmem, congrArg (·.2.1) hroot, hmet, l', hl', hs.trans hsheet⟩

end Program

end PageTemplates
