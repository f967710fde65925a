import PageTemplates.Proofs.CompiledNodes

/-!
# The structure of a body and of its nodes

Without texts, styles and wrappers, a body and what it becomes are one tree of names.  A directive
that cannot be read leaves its node without the wrapper, and no directive is a binding.

* `Branch`                    an element or the node made of it, wrapped, and what is below;
* `OutputNode.Regular`        what wrappers hold, and which names are bound;
* `Laid`                      a body and its nodes side by side;
* `Scope.compile_laid`        a body is laid out beside its compiled nodes;
* `Scope.compile_structure`   the tree, the wrappers and the bindings of a compiled body.
-/

namespace PageTemplates

/-! ## branches -/

/-- an element, or the tag or use that is made of it, with its wrappers and the branches below -/
inductive Branch where
  | node (name : Text) (wrapping : Wrapping) (below : List Branch)

namespace Branch

/-- a branch under further wrappers -/
def under (w : Wrapping) : Branch → Branch
  | .node name inner below =>
    .node name ⟨inner.condition?.or w.condition?, inner.repetition?.or w.repetition?⟩ below

theorem under_none (b : Branch) : b.under .none = b := by
  obtain ⟨name, ⟨condition?, repetition?⟩, below⟩ := b
  simp only [under, Wrapping.none, Option.or_none]

theorem under_under (b : Branch) (e : Expression) (r : Repetition) :
    (b.under ⟨some e, none⟩).under ⟨none, some r⟩ = b.under ⟨some e, some r⟩ := by
  obtain ⟨name, inner, below⟩ := b
  simp only [under, Option.or_none]

end Branch

mutual
/-- the elements, with the wrappers that their attributes ask for -/
def BodyNode.branches : BodyNode → List Branch
  | .text _ | .style _ _ => []
  | .element name attributes children =>
    [.node name (.ofAttributes attributes) (BodyNode.branchesOf children)]
def BodyNode.branchesOf : List BodyNode → List Branch
  | [] => []
  | n :: ns => n.branches ++ BodyNode.branchesOf ns
end

mutual
/-- the tags and uses without the styles, each with the wrappers around it -/
def OutputNode.branches : OutputNode → List Branch
  | .text _ | .expression _ => []
  | .tag name _ children =>
    if name = styleName then [] else [.node name .none (OutputNode.branchesOf children)]
  | .custom _ name _ captured => [.node name .none (OutputNode.branchesOf captured)]
  | .cond e children => (OutputNode.branchesOf children).map (Branch.under ⟨some e, none⟩)
  | .repetition r children => (OutputNode.branchesOf children).map (Branch.under ⟨none, some r⟩)
def OutputNode.branchesOf : List OutputNode → List Branch
  | [] => []
  | n :: ns => n.branches ++ OutputNode.branchesOf ns
end

namespace OutputNode

theorem branchesOf_singleton (n : OutputNode) : branchesOf [n] = n.branches := List.append_nil _

theorem branches_around (w : Wrapping) (core : OutputNode) :
    (w.around core).branches = core.branches.map (Branch.under w) := by
  have hcond (e : Expression) :
      branches (.cond e [core]) = core.branches.map (Branch.under ⟨some e, none⟩) := by
    rw [branches, branchesOf_singleton]
  have hrepetition (r : Repetition) (n : OutputNode) :
      branches (.repetition r [n]) = n.branches.map (Branch.under ⟨none, some r⟩) := by
    rw [branches, branchesOf_singleton]
  obtain ⟨_ | e, _ | r⟩ := w
  · exact ((List.map_congr_left fun b _ => b.under_none).trans (List.map_id' _)).symm
  · exact hrepetition r core
  · exact hcond e
  · refine (hrepetition r _).trans ?_
    rw [hcond, List.map_map]
    exact List.map_congr_left fun b _ => b.under_under e r

/-! ## regular nodes -/

/-- a tag or a use of a component -/
def isCore : OutputNode → Bool
  | .tag _ _ _ | .custom _ _ _ _ => true
  | _ => false

def isCondition : OutputNode → Bool
  | .cond _ _ => true
  | _ => false

/-- a wrapper holds one node, a condition no other wrapper and a repetition no other repetition; a
directive is bound only where the component in use declares a parameter of its name -/
def Regular (c : Scope) : OutputNode → Prop
  | .text _ | .expression _ => True
  | .tag _ binds _ => ∀ d ∈ directiveNames, d ∉ binds.names
  | .custom id name binds _ => ∃ target, c.target? name = some target ∧ target.id = id ∧
    ∀ d ∈ directiveNames, d ∈ binds.names → d ∈ target.params.names
  | .cond _ children => ∃ n, children = [n] ∧ n.isCore = true
  | .repetition _ children => ∃ n, children = [n] ∧ (n.isCore = true ∨ n.isCondition = true)

variable {c : Scope}

theorem regular_around (w : Wrapping) {core : OutputNode} (hcore : core.isCore = true)
    (h : ∀ n ∈ core.all, n.Regular c) : ∀ n ∈ (w.around core).all, n.Regular c := by
  have hcond (e : Expression) : ∀ n ∈ all (.cond e [core]), n.Regular c := by
    rw [all, allOf, allOf, List.append_nil]
    exact List.forall_mem_cons.2 ⟨⟨core, rfl, hcore⟩, h⟩
  have hrepetition (r : Repetition) {n : OutputNode} (hn : n.isCore = true ∨ n.isCondition = true)
      (h : ∀ o ∈ n.all, o.Regular c) : ∀ o ∈ all (.repetition r [n]), o.Regular c := by
    rw [all, allOf, allOf, List.append_nil]
    exact List.forall_mem_cons.2 ⟨⟨n, rfl, hn⟩, h⟩
  obtain ⟨_ | e, _ | r⟩ := w
  · exact h
  · exact hrepetition r (.inl hcore) h
  · exact hcond e
  · exact hrepetition r (.inr rfl) (hcond e)

end OutputNode

/-! ## bodies beside their nodes -/

/-- the tag or the use that an element is made into, around the nodes inside of it -/
inductive Core (c : Scope) (name : Text) (attributes : Attributes) (inside : List OutputNode) :
    OutputNode → Prop where
  | tag (binds : Bindings) (plain : c.target? name = none)
      (undirected : ∀ d ∈ directiveNames, d ∉ binds.names) :
      Core c name attributes inside (.tag name binds inside)
  | custom (target : Component) (binds : Bindings) (visible : c.target? name = some target)
      (bound : Bound target attributes binds) :
      Core c name attributes inside (.custom target.id name binds inside)

/-- A body and its nodes, in order.  Texts and expressions stand anywhere; an element and a style
that is not merged are made into one node each, under the wrappers of their attributes. -/
inductive Laid (c : Scope) : List BodyNode → List OutputNode → Prop where
  | nil : Laid c [] []
  | leaf {n : OutputNode} {body : List BodyNode} {nodes : List OutputNode}
      (leaf : n.isLeaf = true) (rest : Laid c body nodes) : Laid c body (n :: nodes)
  | text (run : Run) {body : List BodyNode} {nodes : List OutputNode} (rest : Laid c body nodes) :
      Laid c (.text run :: body) nodes
  | element {name : Text} {attributes : Attributes} {children body : List BodyNode}
      {core : OutputNode} {inside nodes : List OutputNode} (unstyled : name ≠ styleName)
      (made : Core c name attributes inside core) (below : Laid c children inside)
      (rest : Laid c body nodes) : Laid c (.element name attributes children :: body)
        ((Wrapping.ofAttributes attributes).around core :: nodes)
  | style (sheet : SheetId) {attributes : Attributes} {binds : Bindings} {css : List OutputNode}
      {body : List BodyNode} {nodes : List OutputNode}
      (undirected : ∀ d ∈ directiveNames, d ∉ binds.names)
      (texts : css.all OutputNode.isText = true) (rest : Laid c body nodes) :
      Laid c (.style sheet attributes :: body)
        ((Wrapping.ofAttributes attributes).around (.tag styleName binds css) :: nodes)
  /-- a style that makes no node: its sheet has nothing in it, or it has no directive -/
  | merged (sheet : SheetId) (attributes : Attributes) {body : List BodyNode}
      {nodes : List OutputNode}
      (blank : directiveNames.any attributes.contains = true → ∀ ast,
        c.sheets[sheet]?.bind Sheet.ast = some ast → Text.isBlank ast.render = true)
      (rest : Laid c body nodes) : Laid c (.style sheet attributes :: body) nodes

namespace Laid
variable {c : Scope} {before after : List BodyNode} {nodes more : List OutputNode}

theorem append (h : Laid c before nodes) (h' : Laid c after more) :
    Laid c (before ++ after) (nodes ++ more) := by
  induction h with
  | nil => exact h'
  | leaf hleaf _ ih => exact .leaf hleaf ih
  | text run _ ih => exact .text run ih
  | element hname hcore below _ _ ih => exact .element hname hcore below ih
  | style sheet hfree htext _ ih => exact .style sheet hfree htext ih
  | merged sheet attributes hblank _ ih => exact .merged sheet attributes hblank ih

theorem of_leaves (h : ∀ n ∈ nodes, n.isLeaf = true) : Laid c [] nodes := by
  induction nodes with
  | nil => exact .nil
  | cons n nodes ih =>
    obtain ⟨hn, hnodes⟩ := List.forall_mem_cons.1 h
    exact .leaf hn (ih hnodes)

/-- more text in a style changes nothing -/
theorem fold {binds : Bindings} {children : List OutputNode} {css : OutputNode}
    (hcss : css.isText = true) {newer older : List OutputNode}
    (h : Laid c before (older ++ .tag styleName binds children :: newer)) :
    Laid c before (older ++ .tag styleName binds (children ++ [css]) :: newer) := by
  generalize hall : older ++ .tag styleName binds children :: newer = nodes at h
  induction h generalizing older with
  | nil => exact absurd hall (List.append_ne_nil_of_right_ne_nil _ (List.cons_ne_nil _ _))
  | leaf hleaf _ ih =>
    cases older with
    | nil =>
      obtain ⟨rfl, rfl⟩ := List.cons.inj hall
      cases hleaf
    | cons n older =>
      obtain ⟨rfl, hrest⟩ := List.cons.inj hall
      exact .leaf hleaf (ih hrest)
  | text run _ ih => exact .text run (ih hall)
  | element hname hcore below _ _ ih =>
    cases older with
    | nil =>
      -- no element is made into a style
      obtain ⟨he, rfl⟩ := List.cons.inj hall
      obtain ⟨-, rfl⟩ := Wrapping.eq_of_around_eq_tag he.symm
      cases hcore
      exact absurd rfl hname
    | cons n older =>
      obtain ⟨rfl, hrest⟩ := List.cons.inj hall
      exact .element hname hcore below (ih hrest)
  | @style sheet attributes _ _ _ _ hfree htext rest ih =>
    cases older with
    | nil =>
      obtain ⟨he, rfl⟩ := List.cons.inj hall
      obtain ⟨hw, htag⟩ := Wrapping.eq_of_around_eq_tag he.symm
      cases htag
      have htext' : (children ++ [css]).all OutputNode.isText = true := by
        rw [List.all_append, htext, List.all_cons, hcss]
        rfl
      have hmore := @Laid.style c sheet attributes binds _ _ _ hfree htext' rest
      rw [hw] at hmore
      exact hmore
    | cons n older =>
      obtain ⟨rfl, hrest⟩ := List.cons.inj hall
      exact .style sheet hfree htext (ih hrest)
  | merged sheet attributes hblank _ ih => exact .merged sheet attributes hblank (ih hall)

/-! ## what is laid out beside a body -/

theorem branches (h : Laid c before nodes) :
    OutputNode.branchesOf nodes = BodyNode.branchesOf before := by
  induction h with
  | nil => rfl
  | @leaf n _ _ hleaf _ ih =>
    have hn : n.branches = [] := by
      cases n <;> first | rfl | cases hleaf
    rw [OutputNode.branchesOf, hn, ih]
    rfl
  | text run _ ih => exact ih
  | @element name attributes children _ core inside _ hname hcore _ _ hbelow ih =>
    have hbranches : core.branches = [.node name .none (BodyNode.branchesOf children)] := by
      rw [← hbelow]
      cases hcore with
      | tag binds hplain hfree => exact if_neg hname
      | custom target binds hvisible hbound => rfl
    rw [OutputNode.branchesOf, OutputNode.branches_around, hbranches, ih]
    rfl
  | @style _ attributes binds css _ _ _ _ _ ih =>
    have hbranches : (OutputNode.tag styleName binds css).branches = [] := by
      rw [OutputNode.branches, if_pos rfl]
    rw [OutputNode.branchesOf, OutputNode.branches_around, hbranches, ih]
    rfl
  | merged sheet attributes _ _ ih => exact ih

theorem regular (h : Laid c before nodes) : ∀ n ∈ OutputNode.allOf nodes, n.Regular c := by
  induction h with
  | nil => exact fun n hn => absurd hn List.not_mem_nil
  | @leaf n _ _ hleaf _ ih =>
    refine List.forall_mem_append.2 ⟨?_, ih⟩
    cases n with
    | text run => exact List.forall_mem_singleton.2 trivial
    | expression e => exact List.forall_mem_singleton.2 trivial
    | _ => cases hleaf
  | text run _ ih => exact ih
  | @element name attributes children _ core inside _ _ hcore _ _ hbelow ih =>
    refine List.forall_mem_append.2 ⟨OutputNode.regular_around _ ?_ ?_, ih⟩
    · cases hcore <;> rfl
    · cases hcore with
      | tag binds hplain hfree => exact List.forall_mem_cons.2 ⟨hfree, hbelow⟩
      | custom target binds hvisible hbound =>
        refine List.forall_mem_cons.2 ⟨⟨target, hvisible, rfl, fun d _ hd => ?_⟩, hbelow⟩
        exact hbound.names.subset hd
  | @style _ attributes binds css _ _ hfree htext _ ih =>
    refine List.forall_mem_append.2 ⟨OutputNode.regular_around _ rfl ?_, ih⟩
    refine List.forall_mem_cons.2 ⟨hfree, fun n hn => ?_⟩
    obtain ⟨o, ho, hn⟩ := OutputNode.mem_allOf.1 hn
    have ho := List.all_eq_true.1 htext o ho
    cases o with
    | text run =>
      obtain rfl := List.mem_singleton.1 hn
      trivial
    | _ => cases ho
  | merged sheet attributes _ _ ih => exact ih

end Laid

/-! ## compilation -/

theorem not_mem_plainBinds (attributes : Attributes) : ∀ d ∈ directiveNames,
    d ∉ (plainBinds (attributes.without directiveNames)).1.names := by
  intro d hd hmem
  rw [plainBinds, NameMap.mem_names_ofList, List.map_map] at hmem
  obtain ⟨value, hvalue⟩ := NameMap.mem_names_iff.1 hmem
  rw [NameMap.get?_without, if_pos hd] at hvalue
  cases hvalue

namespace Scope
variable {c : Scope}

theorem styling_laid {sheet : SheetId} {attributes : Attributes} {done done' : List OutputNode}
    (h : Styling c.sheets sheet attributes done done') {before : List BodyNode}
    (hdone : Laid c before done.reverse) :
    Laid c (before ++ [.style sheet attributes]) done'.reverse := by
  have hmerged {nodes : List OutputNode} (h : Laid c before nodes)
      (hblank : directiveNames.any attributes.contains = true → ∀ ast,
        c.sheets[sheet]?.bind Sheet.ast = some ast → Text.isBlank ast.render = true) :
      Laid c (before ++ [.style sheet attributes]) nodes :=
    List.append_nil nodes ▸ h.append (.merged sheet attributes hblank .nil)
  cases h with
  | blank _ hblank => exact hmerged hdone fun _ => hblank
  | fresh =>
    rw [List.reverse_cons, Wrapping.wrap_eq]
    exact hdone.append (.style sheet (not_mem_plainBinds attributes) rfl .nil)
  | merged newer older children binds ast _ hplain =>
    rw [List.reverse_append, List.reverse_cons, List.append_assoc] at hdone ⊢
    exact hmerged (hdone.fold rfl) fun hdirected => by cases hplain.symm.trans hdirected

mutual
theorem node_laid (verbatim : Bool) (n : BodyNode) (hn : ∀ e ∈ n.elements, e.1 ≠ styleName)
    (before : List BodyNode) (done : List OutputNode) (h : Laid c before done.reverse) :
    Laid c (before ++ [n]) (c.node verbatim n done).1.reverse := by
  cases n with
  | text run =>
    rw [node, List.reverse_append, List.reverse_reverse]
    exact h.append (.text run (.of_leaves fun n => isLeaf_of_mem_compileText))
  | style sheet attributes =>
    rw [node]
    exact styling_laid (compileStyle_styling c.sheets sheet attributes done) h
  | element name attributes children =>
    obtain ⟨hname, hchildren⟩ := List.forall_mem_cons.1 hn
    have hbelow (verbatim : Bool) : Laid c children (c.nodes verbatim children []).1.reverse :=
      nodes_laid verbatim children hchildren [] [] .nil
    rw [node, List.reverse_cons]
    dsimp only
    rw [Wrapping.wrap_eq]
    cases htarget : c.target? name with
    | none =>
      exact h.append (.element hname (.tag _ htarget (not_mem_plainBinds attributes))
        (hbelow _) .nil)
    | some target =>
      exact h.append (.element hname
        (.custom target _ htarget (componentBinds_bound name target attributes)) (hbelow _) .nil)
theorem nodes_laid (verbatim : Bool) (ns : List BodyNode)
    (hns : ∀ e ∈ BodyNode.elementsOf ns, e.1 ≠ styleName) (before : List BodyNode)
    (done : List OutputNode) (h : Laid c before done.reverse) :
    Laid c (before ++ ns) (c.nodes verbatim ns done).1.reverse := by
  cases ns with
  | nil =>
    rw [nodes, List.append_nil]
    exact h
  | cons n ns =>
    obtain ⟨hn, hns⟩ := List.forall_mem_append.1 hns
    rw [nodes, List.append_cons]
    exact nodes_laid verbatim ns hns _ _ (node_laid verbatim n hn before done h)
end

theorem compile_laid (c : Scope) (body : List BodyNode)
    (hbody : ∀ e ∈ BodyNode.elementsOf body, e.1 ≠ styleName) :
    Laid c body (c.compile body).1 := nodes_laid false body hbody [] [] .nil

/-- **Compilation keeps the structure of a body.**  Its elements and the tags and uses made of them
are one tree, each under the wrappers whose directives can be read; wrappers hold one node each and
directives are no bindings, anywhere below. -/
theorem compile_structure (c : Scope) (body : List BodyNode)
    (hbody : ∀ e ∈ BodyNode.elementsOf body, e.1 ≠ styleName) :
    OutputNode.branchesOf (c.compile body).1 = BodyNode.branchesOf body ∧
    Laid c body (c.compile body).1 ∧
    ∀ n ∈ OutputNode.allOf (c.compile body).1, n.Regular c :=
  have hlaid := compile_laid c body hbody
  ⟨hlaid.branches, hlaid, hlaid.regular⟩

/-- `box` has a parameter `if`; the only sheet holds one rule -/
def sampleScope : Scope where
  self := 0
  components := [.declare 0 0 "card".toList .empty,
    .declare 1 0 "box".toList (.ofList [("if".toList, "no".toList)])]
  sheets := [{ Sheet.register 0 (.remote "x/a.css".toList) [] false false with
    ast := some (.sheet [.rule "p".toList "top: 0".toList]) }]
  names := ⟨.ofList [("card".toList, .component 0), ("box".toList, .component 1)]⟩

/-- directives that can be read beside ones that cannot, and styles under a condition, merged and
without a sheet -/
def sampleBody : List BodyNode :=
  [.element "card".toList
      (.ofList [("if".toList, " ".toList), ("repeat".toList, "x in \x7bxs\x7d".toList)])
      [.element "box".toList
        (.ofList [("if".toList, "\x7bok\x7d".toList), ("repeat".toList, "xs".toList)])
        [.style 0 .empty]],
    .style 0 (.ofList [("if".toList, "ok".toList)]), .style 0 .empty, .style 0 .empty,
    .style 1 .empty]

theorem compile_structure_malformed :
    (∀ e ∈ BodyNode.elementsOf sampleBody, e.1 ≠ styleName) ∧
    OutputNode.branchesOf (sampleScope.compile sampleBody).1
      = [.node "card".toList ⟨none, some ⟨"x".toList, ⟨["xs".toList]⟩⟩⟩
          [.node "box".toList ⟨some ⟨["ok".toList]⟩, none⟩ []]] ∧
    Laid sampleScope sampleBody (sampleScope.compile sampleBody).1 ∧
    (∀ n ∈ OutputNode.allOf (sampleScope.compile sampleBody).1, n.Regular sampleScope) ∧
    let css := OutputNode.text ⟨"p \x7b top: 0 \x7d".toList, true⟩
    (sampleScope.compile sampleBody).1
      = [.repetition ⟨"x".toList, ⟨["xs".toList]⟩⟩
          [.tag "card".toList .empty
            [.cond ⟨["ok".toList]⟩
              [.custom 1 "box".toList (.ofList [("if".toList, .text "no".toList)])
                [.tag styleName .empty [css]]]]],
        .cond ⟨["ok".toList]⟩ [.tag styleName .empty [css]],
        .tag styleName .empty [css, css]] := by
  have hbody : ∀ e ∈ BodyNode.elementsOf sampleBody, e.1 ≠ styleName := by decide
  obtain ⟨hbranches, hlaid, hregular⟩ := compile_structure sampleScope sampleBody hbody
  exact ⟨hbody, hbranches.trans rfl, hlaid, hregular, rfl⟩

end Scope

end PageTemplates
