import Mathlib.Data.List.Forall2
import PageTemplates.Proofs.VisibleNames

/-!
# What a body becomes

Apart from texts and styles, a list of body nodes becomes a list of tags and uses of components,
each under its wrappers, one for each element and in the same order.

* `argument`, `Bound`     what a use of a component binds;
* `Wrapping`              the wrappers that attributes ask for;
* `Styling`               what becomes of a style;
* `Made`                  an element and the node made of it, and everything below;
* `Scope.compile_made`    a body and its nodes;
* `strays`                the attributes of a use that are no parameters;
* `Catalog.compileBodies_made`   the bodies of a loaded catalog.
-/

namespace PageTemplates

/-! ## uses of components -/

/-- what the parameter `name` is bound to in an element with these attributes -/
def argument (attributes : Attributes) (name default : Text) : Binding :=
  if directiveNames.contains name then .text default
  else ((attributes.get? name).map Binding.ofText).getD (.text default)

/-- every parameter is bound once, and nothing else is -/
structure Bound (target : Component) (attributes : Attributes) (binds : Bindings) : Prop where
  names : binds.names.Perm target.params.names
  values : ∀ name default, target.params.get? name = some default →
    binds.get? name = some (argument attributes name default)

theorem find?_given (params attributes : Attributes) {name : Text} (h : name ∈ params.names) :
    ((attributes.entries.filter fun e => params.contains e.1).find? (·.1 == name)).map Prod.snd
      = attributes.get? name := by
  rw [List.find?_filter]
  have hp : (fun e : Text × Text => decide (params.contains e.1 = true ∧ (e.1 == name) = true))
      = (·.1 == name) := by
    funext e
    by_cases hn : e.1 = name
    · rw [hn, NameMap.contains_iff.2 h, beq_self_eq_true]
      rfl
    · rw [beq_false_of_ne hn]
      exact decide_eq_false (fun he => Bool.false_ne_true he.2)
  rw [hp]
  rfl

theorem get?_componentBinds (element : Text) (params attributes : Attributes) {name default : Text}
    (h : params.get? name = some default) :
    (componentBinds element params attributes).1.get? name
      = some (((attributes.get? name).map Binding.ofText).getD (.text default)) := by
  have hmem : name ∈ params.names := NameMap.mem_names_iff.2 ⟨default, h⟩
  unfold componentBinds
  dsimp only
  have hparam : (params.entries.map fun e => (e.1, Binding.text e.2)).find? (·.1 == name)
      = (params.entries.find? (·.1 == name)).map fun e => (e.1, Binding.text e.2) := List.find?_map
  have hgiven : (((attributes.entries.filter fun e => params.contains e.1).map
        fun e => (e.1, Binding.ofText e.2)).find? (·.1 == name)).map Prod.snd
      = (attributes.get? name).map Binding.ofText := by
    rw [← find?_given params attributes hmem, List.find?_map, Option.map_map, Option.map_map]
    rfl
  obtain ⟨e, he, hdefault⟩ := Option.map_eq_some_iff.1 h
  rw [NameMap.get?_ofList, List.find?_append, Option.map_or, hgiven, hparam, he]
  cases attributes.get? name with
  | some value => rfl
  | none =>
    rw [← hdefault]
    rfl

theorem componentBinds_bound (element : Text) (target : Component) (attributes : Attributes) :
    Bound target attributes
      (componentBinds element target.params (attributes.without directiveNames)).1 := by
  constructor
  · apply (List.perm_ext_iff_of_nodup (NameMap.nodup _) target.params.nodup).2
    intro name
    refine NameMap.mem_names_ofList.trans ?_
    rw [List.map_append, List.mem_append, List.map_map, List.map_map]
    refine ⟨fun hm => hm.elim ?_ (fun hm => hm), .inr⟩
    intro hm
    obtain ⟨e, he, rfl⟩ := List.mem_map.1 hm
    exact NameMap.contains_iff.1 (List.mem_filter.1 he).2
  · intro name default h
    rw [get?_componentBinds element _ _ h, NameMap.get?_without]
    unfold argument
    by_cases hn : name ∈ directiveNames
    · rw [if_pos hn, if_pos (List.contains_iff_mem.2 hn)]
      rfl
    · rw [if_neg hn, if_neg (fun hc => hn (List.contains_iff_mem.1 hc))]

/-! ## wrappers -/

/-- the condition and the repetition around a node -/
structure Wrapping where
  condition? : Option Expression
  repetition? : Option Repetition

namespace Wrapping

def none : Wrapping := ⟨.none, .none⟩

/-- the directives that can be read -/
def ofAttributes (attributes : Attributes) : Wrapping :=
  ⟨(attributes.get? "if".toList).bind fun value => (Condition.ofText value).toOption,
    (attributes.get? "repeat".toList).bind fun value => (Repetition.ofText value).toOption⟩

/-- a node under its wrappers, the repetition outermost -/
def around : Wrapping → OutputNode → OutputNode
  | ⟨.none, .none⟩, core => core
  | ⟨some e, .none⟩, core => .cond e [core]
  | ⟨.none, some r⟩, core => .repetition r [core]
  | ⟨some e, some r⟩, core => .repetition r [.cond e [core]]

theorem wrap_eq (element : Text) (attributes : Attributes) (n : OutputNode) :
    (wrap element attributes n).1 = (ofAttributes attributes).around n := by
  unfold wrap wrapRepetition wrapCondition ofAttributes
  cases attributes.get? "if".toList with
  | none =>
    cases attributes.get? "repeat".toList with
    | none => rfl
    | some value =>
      dsimp only [Option.bind]
      cases Repetition.ofText value <;> rfl
  | some condition =>
    cases attributes.get? "repeat".toList with
    | none =>
      dsimp only [Option.bind]
      cases Condition.ofText condition <;> rfl
    | some value =>
      dsimp only [Option.bind]
      cases Condition.ofText condition <;> cases Repetition.ofText value <;> rfl

theorem eq_of_around_eq_tag {w : Wrapping} {core : OutputNode} {name : Text} {binds : Bindings}
    {children : List OutputNode} (h : w.around core = .tag name binds children) :
    w = none ∧ core = .tag name binds children := by
  obtain ⟨_ | e, _ | r⟩ := w
  · exact ⟨rfl, h⟩
  all_goals cases h

end Wrapping

/-- a node under no wrapper, a condition, a repetition, or a condition under a repetition -/
inductive Wrapped (core : OutputNode) : OutputNode → Prop where
  | bare : Wrapped core core
  | cond (e : Expression) : Wrapped core (.cond e [core])
  | repetition (r : Repetition) : Wrapped core (.repetition r [core])
  | both (r : Repetition) (e : Expression) : Wrapped core (.repetition r [.cond e [core]])

theorem Wrapped.of_wrap (element : Text) (attributes : Attributes) (core : OutputNode) :
    Wrapped core (wrap element attributes core).1 := by
  rw [Wrapping.wrap_eq]
  obtain ⟨_ | e, _ | r⟩ := Wrapping.ofAttributes attributes
  · exact .bare
  · exact .repetition r
  · exact .cond e
  · exact .both r e

/-! ## styles -/

theorem foldStyle_eq_some {binds : Bindings} {css : OutputNode} {done done' : List OutputNode}
    (h : foldStyle binds css done = some done') : ∃ newer older children,
      (∀ n ∈ newer, n.isBlankText = true) ∧
      done = newer ++ .tag styleName binds children :: older ∧
      done' = newer ++ .tag styleName binds (children ++ [css]) :: older := by
  induction done generalizing done' with
  | nil => cases h
  | cons n ns ih =>
    unfold foldStyle at h
    split at h
    · next hn =>
      obtain ⟨ns', hns, rfl⟩ := Option.map_eq_some_iff.1 h
      obtain ⟨newer, older, children, hnewer, rfl, rfl⟩ := ih hns
      exact ⟨n :: newer, older, children, List.forall_mem_cons.2 ⟨hn, hnewer⟩, rfl, rfl⟩
    · split at h
      · next name binds' children _ =>
        obtain ⟨⟨rfl, rfl⟩, he⟩ := Option.ite_none_right_eq_some.1 h
        exact ⟨[], ns, children, List.forall_mem_nil _, rfl, (Option.some.inj he).symm⟩
      · cases h

/-- a style behind its siblings, newest first: it makes no node, or one of its own, or adds to the
style before it -/
inductive Styling (sheets : List Sheet) (sheet : SheetId) (attributes : Attributes) :
    List OutputNode → List OutputNode → Prop where
  | blank (done : List OutputNode) (blank : ∀ ast, sheets[sheet]?.bind Sheet.ast = some ast →
      Text.isBlank ast.render = true) : Styling sheets sheet attributes done done
  | fresh (done : List OutputNode) (ast : Css.Node)
      (found : sheets[sheet]?.bind Sheet.ast = some ast) :
      Styling sheets sheet attributes done ((wrap styleName attributes (.tag styleName
        (plainBinds (attributes.without directiveNames)).1 [.text ⟨ast.render, true⟩])).1 :: done)
  | merged (newer older children : List OutputNode) (binds : Bindings) (ast : Css.Node)
      (found : sheets[sheet]?.bind Sheet.ast = some ast)
      (undirected : directiveNames.any attributes.contains = false) :
      Styling sheets sheet attributes (newer ++ .tag styleName binds children :: older)
        (newer ++ .tag styleName binds (children ++ [.text ⟨ast.render, true⟩]) :: older)

theorem compileStyle_styling (sheets : List Sheet) (sheet : SheetId) (attributes : Attributes)
    (done : List OutputNode) : Styling sheets sheet attributes done
      (compileStyle sheets sheet attributes done).1 := by
  unfold compileStyle
  cases hast : sheets[sheet]?.bind Sheet.ast with
  | none => exact .blank done fun _ he => by cases hast.symm.trans he
  | some ast =>
    dsimp only
    split
    · next hblank => exact .blank done fun _ he => Option.some.inj (hast.symm.trans he) ▸ hblank
    · split
      · exact .fresh done ast hast
      · next hplain =>
        split
        · next hfold =>
          obtain ⟨newer, older, children, -, rfl, rfl⟩ := foldStyle_eq_some hfold
          exact .merged newer older children _ ast hast (Bool.not_eq_true _ ▸ hplain)
        · exact .fresh done ast hast

/-! ## made nodes -/

def BodyNode.isElement : BodyNode → Bool
  | .element _ _ _ => true
  | _ => false

namespace OutputNode

def isText : OutputNode → Bool
  | .text _ => true
  | _ => false

def isLeaf : OutputNode → Bool
  | .text _ | .expression _ => true
  | _ => false

mutual
/-- whether the node is text, an expression or a style with nothing but text in it, or wraps only
such nodes -/
def isLoose : OutputNode → Bool
  | .text _ | .expression _ => true
  | .tag name _ children => name == styleName && children.all isText
  | .custom _ _ _ _ => false
  | .cond _ children => allLoose children
  | .repetition _ children => allLoose children
def allLoose : List OutputNode → Bool
  | [] => true
  | n :: ns => n.isLoose && allLoose ns
end

def isMade (n : OutputNode) : Bool := !n.isLoose

end OutputNode

/-- an element and the node made of it: a use of a component if its name means another component
than the one at hand, and a tag otherwise -/
inductive Made (c : Scope) : BodyNode → OutputNode → Prop where
  | custom (name : Text) (attributes : Attributes) (children : List BodyNode) (id : ComponentId)
      (target : Component) (binds : Bindings) (captured : List OutputNode) (o : OutputNode)
      (visible : c.names.get? name = some (.component id)) (other : id ≠ c.self)
      (found : c.components[id]? = some target) (bound : Bound target attributes binds)
      (below : List.Forall₂ (Made c) (children.filter BodyNode.isElement)
        (captured.filter OutputNode.isMade))
      (wrapped : Wrapped (.custom id name binds captured) o) :
      Made c (.element name attributes children) o
  | tag (name : Text) (attributes : Attributes) (children : List BodyNode) (binds : Bindings)
      (inside : List OutputNode) (o : OutputNode)
      (plain : ∀ id, c.names.get? name = some (.component id) → id = c.self)
      (below : List.Forall₂ (Made c) (children.filter BodyNode.isElement)
        (inside.filter OutputNode.isMade))
      (wrapped : Wrapped (.tag name binds inside) o) :
      Made c (.element name attributes children) o

namespace Wrapped
variable {core o : OutputNode}

theorem isMade_eq (h : Wrapped core o) : o.isMade = core.isMade := by
  have hsingle (n : OutputNode) : OutputNode.allLoose [n] = n.isLoose := Bool.and_true _
  cases h with
  | bare => rfl
  | cond e => exact congrArg not (hsingle core)
  | repetition r => exact congrArg not (hsingle core)
  | both r e => exact congrArg not ((hsingle _).trans (hsingle core))

end Wrapped

theorem isLeaf_of_mem_compileText {verbatim : Bool} {run : Run} {n : OutputNode}
    (h : n ∈ (compileText verbatim run).1) : n.isLeaf = true := by
  unfold compileText at h
  split at h
  · obtain rfl := List.mem_singleton.1 h
    rfl
  · obtain ⟨f, _, rfl⟩ := List.mem_map.1 h
    cases f <;> rfl

theorem filter_compileText (verbatim : Bool) (run : Run) :
    (compileText verbatim run).1.filter OutputNode.isMade = [] := by
  apply List.filter_eq_nil_iff.2
  intro n hn
  have hleaf := isLeaf_of_mem_compileText hn
  cases n with
  | text run => exact Bool.false_ne_true
  | expression e => exact Bool.false_ne_true
  | _ => cases hleaf

theorem isMade_tag {name : Text} (h : name ≠ styleName) (binds : Bindings)
    (children : List OutputNode) : (OutputNode.tag name binds children).isMade = true := by
  show (!(name == styleName && _)) = true
  rw [beq_false_of_ne h]
  rfl

theorem isMade_style (binds : Bindings) {children : List OutputNode}
    (h : children.all OutputNode.isText = true) :
    (OutputNode.tag styleName binds children).isMade = false := by
  show (!(styleName == styleName && children.all OutputNode.isText)) = false
  rw [h]
  rfl

/-- the styles of a list hold nothing but text -/
def Clean (done : List OutputNode) : Prop :=
  ∀ binds children, .tag styleName binds children ∈ done → children.all OutputNode.isText = true

namespace Clean
variable {done more : List OutputNode}

theorem nil : Clean [] := fun _ _ h => absurd h List.not_mem_nil

theorem append (h : Clean more) (h' : Clean done) : Clean (more ++ done) :=
  fun binds children hm => (List.mem_append.1 hm).elim (h binds children) (h' binds children)

theorem cons {n : OutputNode} (h : Clean [n]) (h' : Clean done) : Clean (n :: done) := h.append h'

theorem wrapped {core o : OutputNode} (h : Wrapped core o) (hcore : Clean [core]) : Clean [o] := by
  intro binds children hm
  cases h with
  | bare => exact hcore binds children hm
  | cond e => cases List.mem_singleton.1 hm
  | repetition r => cases List.mem_singleton.1 hm
  | both r e => cases List.mem_singleton.1 hm

theorem style (binds : Bindings) {children : List OutputNode}
    (h : children.all OutputNode.isText = true) : Clean [.tag styleName binds children] := by
  intro binds' children' hm
  cases List.mem_singleton.1 hm
  exact h

theorem tag {name : Text} (h : name ≠ styleName) (binds : Bindings) (children : List OutputNode) :
    Clean [.tag name binds children] := by
  intro binds' children' hm
  cases List.mem_singleton.1 hm
  exact absurd rfl h

theorem custom (id : ComponentId) (name : Text) (binds : Bindings) (captured : List OutputNode) :
    Clean [.custom id name binds captured] := by
  intro binds' children' hm
  cases List.mem_singleton.1 hm

theorem text (verbatim : Bool) (run : Run) : Clean (compileText verbatim run).1.reverse := by
  intro binds children hm
  cases isLeaf_of_mem_compileText (List.mem_reverse.1 hm)

end Clean

theorem Clean.merge {binds : Bindings} {children newer older : List OutputNode} {css : OutputNode}
    (hcss : css.isText = true) (h : Clean (newer ++ .tag styleName binds children :: older)) :
    Clean (newer ++ .tag styleName binds (children ++ [css]) :: older) ∧
      (newer ++ .tag styleName binds (children ++ [css]) :: older).filter OutputNode.isMade
        = (newer ++ .tag styleName binds children :: older).filter OutputNode.isMade := by
  have htext : children.all OutputNode.isText = true :=
    h binds children (List.mem_append_right _ List.mem_cons_self)
  have htext' : (children ++ [css]).all OutputNode.isText = true := by
    rw [List.all_append, htext, List.all_cons, hcss]
    rfl
  have hnewer : Clean newer := fun binds children hm => h binds children (List.mem_append_left _ hm)
  have holder : Clean older := fun binds children hm =>
    h binds children (List.mem_append_right _ (List.mem_cons_of_mem _ hm))
  refine ⟨hnewer.append (.cons (.style binds htext') holder), ?_⟩
  rw [List.filter_append, List.filter_append, List.filter_cons, List.filter_cons,
    isMade_style binds htext, isMade_style binds htext']
  rfl

theorem Styling.clean {sheets : List Sheet} {sheet : SheetId} {attributes : Attributes}
    {done done' : List OutputNode} (h : Styling sheets sheet attributes done done')
    (hclean : Clean done) :
    Clean done' ∧ done'.filter OutputNode.isMade = done.filter OutputNode.isMade := by
  cases h with
  | blank => exact ⟨hclean, rfl⟩
  | fresh _ ast =>
    have hw := Wrapped.of_wrap styleName attributes (.tag styleName
      (plainBinds (attributes.without directiveNames)).1 [.text ⟨ast.render, true⟩])
    refine ⟨.cons (.wrapped hw (.style _ rfl)) hclean, ?_⟩
    rw [List.filter_cons, hw.isMade_eq]
    rfl
  | merged => exact hclean.merge rfl

/-! ## bodies -/

namespace Scope

/-- every visible component exists under its number -/
def Resolved (c : Scope) : Prop := ∀ name id, c.names.get? name = some (.component id) →
  ∃ target, c.components[id]? = some target ∧ target.id = id

variable {c : Scope}

/-- the target of a name, or the reason why it has none -/
theorem target?_cases (h : c.Resolved) (name : Text) :
    (∃ target, c.target? name = some target ∧ target.id ≠ c.self ∧
      c.names.get? name = some (.component target.id) ∧
      c.components[target.id]? = some target) ∨
    c.target? name = none ∧ ∀ id, c.names.get? name = some (.component id) → id = c.self := by
  unfold target?
  cases hv : c.names.get? name with
  | none => exact .inr ⟨rfl, fun id he => by cases he⟩
  | some v =>
    cases v with
    | builtin => exact .inr ⟨rfl, fun id he => by cases he⟩
    | component id =>
      dsimp only
      by_cases hself : id = c.self
      · rw [if_pos hself]
        refine .inr ⟨rfl, ?_⟩
        intro id' he
        cases he
        exact hself
      · rw [if_neg hself]
        obtain ⟨target, ht, rfl⟩ := h name id hv
        exact .inl ⟨target, ht, hself, rfl, ht⟩

mutual
theorem node_made (h : c.Resolved) (verbatim : Bool) (n : BodyNode)
    (hn : ∀ e ∈ n.elements, e.1 ≠ styleName) {done : List OutputNode} (hclean : Clean done) :
    Clean (c.node verbatim n done).1 ∧
      ∃ made, (c.node verbatim n done).1.filter OutputNode.isMade
          = made.reverse ++ done.filter OutputNode.isMade ∧
        List.Forall₂ (Made c) ([n].filter BodyNode.isElement) made := by
  cases n with
  | text run =>
    rw [node]
    refine ⟨(Clean.text verbatim run).append hclean, [], ?_, .nil⟩
    show ((compileText verbatim run).1.reverse ++ done).filter _ = _
    rw [List.filter_append, List.filter_reverse, filter_compileText]
  | style sheet attributes =>
    rw [node]
    obtain ⟨hc, hf⟩ := (compileStyle_styling c.sheets sheet attributes done).clean hclean
    exact ⟨hc, [], hf, .nil⟩
  | element name attributes children =>
    have hname : name ≠ styleName := hn _ List.mem_cons_self
    have hchildren : ∀ e ∈ BodyNode.elementsOf children, e.1 ≠ styleName :=
      fun e he => hn e (List.mem_cons_of_mem _ he)
    -- what stands in the element is made by the same rules
    have hbelow (verbatim : Bool) : List.Forall₂ (Made c) (children.filter BodyNode.isElement)
        ((c.nodes verbatim children []).1.reverse.filter OutputNode.isMade) := by
      obtain ⟨_, made, hmade, hall⟩ := nodes_made h verbatim children hchildren .nil
      rw [List.filter_reverse, hmade, List.filter_nil, List.append_nil, List.reverse_reverse]
      exact hall
    rw [node]
    rcases target?_cases h name with
      ⟨target, ht, hother, hvisible, hfound⟩ | ⟨ht, hplain⟩
    · rw [ht]
      have hmade : Made c (.element name attributes children) (wrap name attributes
          (.custom target.id name
            (componentBinds name target.params (attributes.without directiveNames)).1
            (c.nodes false children []).1.reverse)).1 :=
        .custom name attributes children target.id target _ _ _ hvisible hother hfound
          (componentBinds_bound name target attributes) (hbelow false)
          (Wrapped.of_wrap name attributes _)
      refine ⟨.cons (.wrapped (Wrapped.of_wrap _ _ _) (.custom _ _ _ _)) hclean, [_], ?_,
        .cons hmade .nil⟩
      rw [List.filter_cons, (Wrapped.of_wrap _ _ _).isMade_eq]
      rfl
    · rw [ht]
      have hmade : Made c (.element name attributes children) (wrap name attributes
          (.tag name (plainBinds (attributes.without directiveNames)).1
            (c.nodes (name = scriptName) children []).1.reverse)).1 :=
        .tag name attributes children _ _ _ hplain (hbelow (name = scriptName))
          (Wrapped.of_wrap name attributes _)
      refine ⟨.cons (.wrapped (Wrapped.of_wrap _ _ _) (.tag hname _ _)) hclean, [_], ?_,
        .cons hmade .nil⟩
      rw [List.filter_cons, (Wrapped.of_wrap _ _ _).isMade_eq]
      exact if_pos (isMade_tag hname _ _)
theorem nodes_made (h : c.Resolved) (verbatim : Bool) (ns : List BodyNode)
    (hns : ∀ e ∈ BodyNode.elementsOf ns, e.1 ≠ styleName) {done : List OutputNode}
    (hclean : Clean done) : Clean (c.nodes verbatim ns done).1 ∧
      ∃ made, (c.nodes verbatim ns done).1.filter OutputNode.isMade
          = made.reverse ++ done.filter OutputNode.isMade ∧
        List.Forall₂ (Made c) (ns.filter BodyNode.isElement) made := by
  cases ns with
  | nil =>
    rw [nodes]
    exact ⟨hclean, [], rfl, .nil⟩
  | cons n ns =>
    rw [nodes]
    obtain ⟨hc, made, hmade, hall⟩ :=
      node_made h verbatim n (fun e he => hns e (List.mem_append_left _ he)) hclean
    obtain ⟨hc', made', hmade', hall'⟩ := nodes_made h verbatim ns
      (fun e he => hns e (List.mem_append_right _ he)) hc
    refine ⟨hc', made ++ made', ?_, ?_⟩
    · rw [hmade', hmade, List.reverse_append, List.append_assoc]
    · rw [← List.singleton_append, List.filter_append]
      exact List.rel_append hall hall'
end

/-- the elements of a body and the nodes made of them, one for each -/
theorem compile_made (h : c.Resolved) (body : List BodyNode)
    (hbody : ∀ e ∈ BodyNode.elementsOf body, e.1 ≠ styleName) :
    List.Forall₂ (Made c) (body.filter BodyNode.isElement)
      ((c.compile body).1.filter OutputNode.isMade) := by
  obtain ⟨_, made, hmade, hall⟩ := nodes_made h false body hbody .nil
  unfold compile
  rw [List.filter_reverse, hmade, List.filter_nil, List.append_nil, List.reverse_reverse]
  exact hall

end Scope

/-! ## loaded catalogs -/

def Problem.isStray : Problem → Bool
  | .unknownParameter _ _ => true
  | _ => false

theorem Problem.severity_of_isStray (p : Problem) (h : p.isStray = true) : p.severity ≠ .lint := by
  cases p <;> cases h
  show Severity.warning ≠ .lint
  decide

namespace Catalog
variable {cat : Catalog}

/-- a declaration of a template stands for a component -/
theorem Sound.component_of_meaning (h : cat.Sound) {t : Template} (ht : t ∈ cat.templates)
    {name : Text} {id : ComponentId} (hm : t.meaning name = some (.component id)) :
    ∃ target, cat.components[id]? = some target ∧ target.id = id := by
  obtain ⟨id', hid, he⟩ := Option.map_eq_some_iff.1 hm
  obtain rfl : id' = id := Visible.component.inj he
  have hface := h.filed.tags t.face (List.mem_map_of_mem ht) _ (NameMap.get?_eq_some_iff.1 hid)
  rw [List.getElem?_map] at hface
  obtain ⟨target, htarget, hf⟩ := Option.map_eq_some_iff.1 hface
  exact ⟨target, htarget, (Prod.mk.inj hf).1⟩

theorem Sound.resolved (h : cat.Sound) {t : Template} (ht : t ∈ cat.templates) (d : Component) :
    (cat.scope t d).Resolved := by
  intro name id hv
  have hv : (cat.visible t d).1.get? name = some (.component id) := hv
  rw [get?_visible] at hv
  have himported {ids : List TemplateId}
      (hm : Visible.component id ∈ importedMeanings cat.templates ids name) :
      ∃ target, cat.components[id]? = some target ∧ target.id = id := by
    obtain ⟨source, _, hs⟩ := List.mem_filterMap.1 hm
    obtain ⟨t', ht', hm⟩ := Option.bind_eq_some_iff.1 hs
    exact h.component_of_meaning (List.mem_of_getElem? ht') hm
  rcases List.mem_append.1 (List.mem_of_mem_head? hv) with hm | hm
  · rcases List.mem_append.1 hm with hm | hm
    · rcases List.mem_append.1 hm with hm | hm
      · cases Namespace.eq_builtin (Option.mem_toList.1 hm)
      · exact h.component_of_meaning ht (Option.mem_toList.1 hm)
    · exact himported hm
  · exact himported hm

/-- no style is left in a body as an element -/
theorem Sound.no_style (h : cat.Sound) {d : Component} (hd : d ∈ cat.components) :
    ∀ e ∈ BodyNode.elementsOf d.body, e.1 ≠ styleName := by
  obtain ⟨t, _, helements⟩ := (h.components_closed d hd).elements
  intro e he hname
  have hrole := (helements e he).1
  rw [hname] at hrole
  revert hrole
  decide

/-- the stray attributes are all that is reported of a template besides markup and names -/
theorem filter_reports_stray (t : Template) : (cat.reports t).filter Problem.isStray
    = (cat.declarations t).flatMap fun d =>
      (BodyNode.elementsOf d.body).flatMap (cat.scope t d).strays := by
  have hmarkup (p : Problem) (hp : p.isMarkup = true) : p.isStray = false := by
    cases p <;> first | rfl | cases hp
  have hclash {ps : List Problem} (h : ∀ p ∈ ps, p.isClash = true) :
      ps.filter Problem.isStray = [] := by
    apply List.filter_eq_nil_iff.2
    intro p hp hs
    have hc := h p hp
    cases p <;> cases hs
    cases hc
  have hshared : (TemplateNames.ofTemplate t cat.templates).2.filter Problem.isStray = [] := by
    rw [TemplateNames.ofTemplate_problems]
    exact hclash (fun p hp => isClash_of_mem_shared hp)
  have hown (d : Component) : (cat.visible t d).2.filter Problem.isStray = [] := by
    obtain ⟨contested, _, _, hproblems⟩ := visible_problems cat t d
    rw [hproblems]
    exact hclash (fun p hp => isClash_of_mem_own hp)
  unfold reports
  rw [List.filter_append, hshared, List.nil_append, List.filter_flatMap]
  refine congrArg (List.flatMap · _) (funext ?_)
  intro d
  rw [List.filter_append, hown, List.nil_append]
  unfold compiled
  rw [Scope.filter_compile hmarkup]
  apply List.filter_eq_self.2
  intro p hp
  obtain ⟨e, _, hp⟩ := List.mem_flatMap.1 hp
  obtain ⟨name, rfl⟩ := Scope.eq_of_mem_strays hp
  rfl

/-- **Every body is compiled once, and every use of a component is one that its namespace gives.**
The work goes through the components of the catalog, each once.  The nodes of a component are made
of the elements of its body, one for each at every depth: a use of the component that the name
means, with its parameters bound, or a tag.  The stray attributes of the uses are reported, each
once. -/
theorem compileBodies_made (h : cat.Loaded) :
    cat.compileBodies = cat.declaring.foldl cat.compileDeclared cat ∧
    (cat.declaring.flatMap cat.declarations).Perm cat.components ∧
    (∀ d ∈ cat.components, ∃ t ∈ cat.declaring, d ∈ cat.declarations t ∧
      (∀ name, (cat.scope t d).names.get? name = (cat.meanings t d name).head?) ∧
      ∃ nodes, cat.compileBodies.components[d.id]? = some { d with nodes } ∧
        List.Forall₂ (Made (cat.scope t d)) (d.body.filter BodyNode.isElement)
          (nodes.filter OutputNode.isMade)) ∧
    cat.compileBodies.log.about Problem.isStray = cat.log.about Problem.isStray
      ++ cat.declaring.flatMap fun t => ((cat.declarations t).flatMap fun d =>
        (BodyNode.elementsOf d.body).flatMap (cat.scope t d).strays).map
          (Entry.mk (some t.file)) := by
  have hsound := h.sound
  refine ⟨compileBodies_foldl hsound, schedule_perm hsound, ?_, ?_⟩
  · intro d hd
    obtain ⟨t, ht, hdt⟩ := List.mem_flatMap.1 ((mem_schedule hsound d).2 hd)
    have htm : t ∈ cat.templates := (List.mem_filter.1 ht).1
    refine ⟨t, ht, hdt, get?_visible cat t d, (cat.compiled t d).1, ?_, ?_⟩
    · rw [compileBodies_eq hsound]
      show (cat.components.map cat.finished)[d.id]? = _
      rw [List.getElem?_map, hsound.components.getElem?_of_mem hd, Option.map_some,
        finished_of_declared hsound htm hdt]
    · exact Scope.compile_made (hsound.resolved htm d) d.body (hsound.no_style hd)
  · rw [compileBodies_about hsound Problem.severity_of_isStray]
    refine congrArg (_ ++ List.flatMap · _) (funext ?_)
    intro t
    rw [filter_reports_stray]

/-- `one` uses `two` with an argument for its parameter and with another attribute -/
def passing : Env where
  read _ := .ok []
  parseMarkup _ _ := .ok ⟨[
    .element "one".toList .empty [.element "two".toList
      (.ofList [("p".toList, "1".toList), ("q".toList, "2".toList)]) []],
    .element "two".toList (.ofList [("p".toList, "0".toList)]) []], true⟩
  parseCss _ _ := ⟨[], .ok (.sheet [])⟩

/-- the body of `one` is a use of `two` with the argument bound -/
theorem compileBodies_made_passing : ∃ s,
    (Session.prepared passing ⟨true, []⟩ true [.main (.remote "x/a".toList)]).run passing 1
      = some s ∧
    ∃ d ∈ s.catalog.components, ∃ nodes o binds captured, d.name = "one".toList ∧
      s.catalog.compileBodies.components[d.id]? = some { d with nodes } ∧
      nodes.filter OutputNode.isMade = [o] ∧ Wrapped (.custom 1 "two".toList binds captured) o ∧
      binds.get? "p".toList = some (.text "1".toList) := by
  have hs : ((Session.prepared passing ⟨true, []⟩ true [.main (.remote "x/a".toList)]).run
      passing 1).map (fun s => decide ((∃ d ∈ s.catalog.components, d.name = "one".toList ∧
        d.id = 0 ∧ d.body.length = 1 ∧ BodyNode.elementsOf d.body = [("two".toList,
          .ofList [("p".toList, "1".toList), ("q".toList, "2".toList)])] ∧
        ∀ t ∈ s.catalog.declaring, t.id = d.template →
          (s.catalog.meanings t d "two".toList).head? = some (.component 1)) ∧
        (s.catalog.components[1]?.map fun d => d.params.get? "p".toList)
          = some (some "0".toList))) = some true := by decide
  obtain ⟨s, hrun, hs⟩ := Option.map_eq_some_iff.1 hs
  obtain ⟨⟨d, hd, hname, hid, hlength, helements, hmeanings⟩, hparams⟩ := of_decide_eq_true hs
  obtain ⟨_, _, hall, _⟩ := compileBodies_made (.run _ _ _ _ _ s hrun)
  obtain ⟨t, ht, hdt, hnames, nodes, hnodes, hmade⟩ := hall d hd
  have htwo := hnames "two".toList
  rw [hmeanings t ht (of_decide_eq_true (List.mem_filter.1 hdt).2).symm] at htwo
  obtain ⟨n, hbody⟩ := List.length_eq_one_iff.1 hlength
  rw [hbody] at helements hmade
  cases n with
  | text run => cases helements
  | style sheet attributes => cases helements
  | element name attributes children =>
    have helement : (name, attributes) = ("two".toList,
        .ofList [("p".toList, "1".toList), ("q".toList, "2".toList)]) :=
      (List.cons.inj helements).1
    obtain ⟨rfl, rfl⟩ := Prod.mk.inj helement
    obtain ⟨o, rest, ho, hrest, hfilter⟩ := List.forall₂_cons_left_iff.1 hmade
    obtain rfl := List.forall₂_nil_left_iff.1 hrest
    cases ho with
    | custom _ _ _ id target binds captured _ visible other found bound below wrapped =>
      obtain rfl : id = 1 := by
        rw [htwo] at visible
        cases visible
        rfl
      have hfound : s.catalog.components[1]? = some target := found
      rw [hfound] at hparams
      refine ⟨s, hrun, d, hd, nodes, o, binds, captured, hname, hnodes, hfilter, wrapped, ?_⟩
      rw [bound.values _ _ (Option.some.inj hparams)]
      decide
    | tag _ _ _ _ _ _ plain =>
      have hself : (1 : ComponentId) = d.id := plain 1 htwo
      rw [hid] at hself
      cases hself

end Catalog

end PageTemplates
