import PageTemplates.Proofs.Bodies

/-!
# Compiled nodes at every depth

Compiling a body makes no names up, and loses no style: the name of a tag or of a use is `style` or
the name of an element, and a raw style with anything in its sheet is text in some `style` tag, even
when its tag is merged with the one before it.

* `OutputNode.allOf`      the nodes of a list at every depth;
* `Scope.names_compile`   the names in a compiled body;
* `OutputNode.Styled`     some `style` tag holds a text;
* `Scope.styled_compile`  the styles of a body.
-/

namespace PageTemplates

namespace OutputNode

mutual
/-- the nodes at and below a node, also those captured -/
def all : OutputNode → List OutputNode
  | .text run => [.text run]
  | .expression e => [.expression e]
  | .tag name binds children => .tag name binds children :: allOf children
  | .custom target name binds captured => .custom target name binds captured :: allOf captured
  | .cond condition children => .cond condition children :: allOf children
  | .repetition r children => .repetition r children :: allOf children
def allOf : List OutputNode → List OutputNode
  | [] => []
  | n :: ns => n.all ++ allOf ns
end

/-- the name of a tag or of the use of a component -/
def name? : OutputNode → Option Text
  | .tag name _ _ | .custom _ name _ _ => some name
  | _ => none

/-- the names of the tags and uses at every depth -/
def namesOf (ns : List OutputNode) : List Text := (allOf ns).filterMap name?

theorem mem_allOf {o : OutputNode} {ns : List OutputNode} : o ∈ allOf ns ↔ ∃ n ∈ ns, o ∈ n.all := by
  induction ns with
  | nil => simp [allOf]
  | cons n ns ih => simp [allOf, ih]

theorem mem_allOf_reverse {o : OutputNode} {ns : List OutputNode} :
    o ∈ allOf ns.reverse ↔ o ∈ allOf ns := by
  simp only [mem_allOf, List.mem_reverse]

theorem allOf_append (ns ms : List OutputNode) : allOf (ns ++ ms) = allOf ns ++ allOf ms := by
  induction ns with
  | nil => rfl
  | cons n ns ih => rw [List.cons_append, allOf, allOf, ih, List.append_assoc]

/-! ## names -/

theorem mem_namesOf_reverse {name : Text} {ns : List OutputNode} :
    name ∈ namesOf ns.reverse ↔ name ∈ namesOf ns := by
  simp only [namesOf, List.mem_filterMap, mem_allOf_reverse]

theorem namesOf_append (ns ms : List OutputNode) :
    namesOf (ns ++ ms) = namesOf ns ++ namesOf ms := by
  rw [namesOf, allOf_append, List.filterMap_append]
  rfl

theorem namesOf_cons (n : OutputNode) (ns : List OutputNode) :
    namesOf (n :: ns) = namesOf [n] ++ namesOf ns := namesOf_append [n] ns

theorem namesOf_text (run : Run) : namesOf [.text run] = [] := rfl

theorem namesOf_tag (name : Text) (binds : Bindings) (children : List OutputNode) :
    namesOf [.tag name binds children] = name :: namesOf children := by
  rw [namesOf, allOf, all, allOf, List.append_nil]
  rfl

theorem namesOf_custom (target : ComponentId) (name : Text) (binds : Bindings)
    (captured : List OutputNode) :
    namesOf [.custom target name binds captured] = name :: namesOf captured := by
  rw [namesOf, allOf, all, allOf, List.append_nil]
  rfl

theorem namesOf_cond (e : Expression) (ns : List OutputNode) :
    namesOf [.cond e ns] = namesOf ns := by
  rw [namesOf, allOf, all, allOf, List.append_nil]
  rfl

theorem namesOf_repetition (r : Repetition) (ns : List OutputNode) :
    namesOf [.repetition r ns] = namesOf ns := by
  rw [namesOf, allOf, all, allOf, List.append_nil]
  rfl

theorem namesOf_wrapped {core o : OutputNode} (h : Wrapped core o) :
    namesOf [o] = namesOf [core] := by
  cases h with
  | bare => rfl
  | cond e => exact namesOf_cond e [core]
  | repetition r => exact namesOf_repetition r [core]
  | both r e => exact (namesOf_repetition r _).trans (namesOf_cond e [core])

theorem namesOf_compileText (verbatim : Bool) (run : Run) :
    namesOf (compileText verbatim run).1 = [] := by
  unfold compileText
  split
  · rfl
  · show namesOf ((Placeholder.fragments run.text).map Fragment.node) = []
    induction Placeholder.fragments run.text with
    | nil => rfl
    | cons f fs ih =>
      rw [List.map_cons, namesOf_cons, ih]
      cases f <;> rfl

theorem mem_namesOf_styling {sheets : List Sheet} {sheet : SheetId} {attributes : Attributes}
    {done done' : List OutputNode} (h : Styling sheets sheet attributes done done') {name : Text}
    (hname : name ∈ namesOf done') : name = styleName ∨ name ∈ namesOf done := by
  cases h with
  | blank => exact .inr hname
  | fresh =>
    rw [namesOf_cons, namesOf_wrapped (Wrapped.of_wrap _ _ _), namesOf_tag] at hname
    exact List.mem_cons.1 hname
  | merged newer older children binds =>
    right
    rw [namesOf_append, namesOf_cons, namesOf_tag, namesOf_append, namesOf_text, List.append_nil,
      ← namesOf_tag styleName binds children, ← namesOf_cons, ← namesOf_append] at hname
    exact hname

end OutputNode

namespace Scope
open OutputNode (namesOf)
variable {c : Scope}

mutual
/-- a compiled node is named like an element of the body, or is a style -/
theorem names_node (verbatim : Bool) (n : BodyNode) (done : List OutputNode) {name : Text}
    (h : name ∈ namesOf (c.node verbatim n done).1) :
    name ∈ namesOf done ∨ name = styleName ∨ name ∈ n.elements.map Prod.fst := by
  cases n with
  | text run =>
    rw [node, OutputNode.namesOf_append, List.mem_append, OutputNode.mem_namesOf_reverse,
      OutputNode.namesOf_compileText] at h
    exact h.elim (fun h => absurd h List.not_mem_nil) .inl
  | style sheet attributes =>
    rw [node] at h
    have hstyle := compileStyle_styling c.sheets sheet attributes done
    exact (OutputNode.mem_namesOf_styling hstyle h).elim (.inr ∘ .inl) .inl
  | element element attributes children =>
    -- what stands inside, in whichever mode it is compiled
    have hbelow (verbatim : Bool)
        (h : name ∈ element :: namesOf (c.nodes verbatim children []).1.reverse) :
        name = styleName ∨ name ∈ (BodyNode.elements (.element element attributes children)).map
          Prod.fst := by
      rw [BodyNode.elements, List.map_cons]
      rcases List.mem_cons.1 h with rfl | h
      · exact .inr List.mem_cons_self
      · rcases names_nodes verbatim children [] (OutputNode.mem_namesOf_reverse.1 h) with
          h | h | h
        · exact absurd h List.not_mem_nil
        · exact .inl h
        · exact .inr (List.mem_cons_of_mem _ h)
    rw [node] at h
    dsimp only at h
    rw [OutputNode.namesOf_cons, OutputNode.namesOf_wrapped (Wrapped.of_wrap _ _ _),
      List.mem_append] at h
    rcases h with h | h
    · right
      cases ht : c.target? element with
      | some target =>
        rw [ht, OutputNode.namesOf_custom] at h
        exact hbelow _ h
      | none =>
        rw [ht, OutputNode.namesOf_tag] at h
        exact hbelow _ h
    · exact .inl h
theorem names_nodes (verbatim : Bool) (ns : List BodyNode) (done : List OutputNode) {name : Text}
    (h : name ∈ namesOf (c.nodes verbatim ns done).1) :
    name ∈ namesOf done ∨ name = styleName ∨ name ∈ (BodyNode.elementsOf ns).map Prod.fst := by
  cases ns with
  | nil =>
    rw [nodes] at h
    exact .inl h
  | cons n ns =>
    rw [nodes] at h
    rw [BodyNode.elementsOf, List.map_append, List.mem_append]
    rcases names_nodes verbatim ns _ h with h | h | h
    · rcases names_node verbatim n done h with h | h | h
      · exact .inl h
      · exact .inr (.inl h)
      · exact .inr (.inr (.inl h))
    · exact .inr (.inl h)
    · exact .inr (.inr (.inr h))
end

theorem names_compile (body : List BodyNode) {name : Text}
    (h : name ∈ namesOf (c.compile body).1) :
    name = styleName ∨ name ∈ (BodyNode.elementsOf body).map Prod.fst :=
  (names_nodes false body [] (OutputNode.mem_namesOf_reverse.1 h)).resolve_left List.not_mem_nil

end Scope

/-! ## styles -/

namespace OutputNode

/-- some `style` tag, at whatever depth, holds the text -/
def Styled (ns : List OutputNode) (css : Text) : Prop :=
  ∃ binds children, .tag styleName binds children ∈ allOf ns ∧ .text ⟨css, true⟩ ∈ children

variable {css : Text} {ns ms : List OutputNode}

theorem Styled.of_subset (h : Styled ns css) (hsub : allOf ns ⊆ allOf ms) : Styled ms css := by
  obtain ⟨binds, children, htag, htext⟩ := h
  exact ⟨binds, children, hsub htag, htext⟩

theorem Styled.append_left (h : Styled ns css) (ms : List OutputNode) : Styled (ns ++ ms) css :=
  h.of_subset (allOf_append ns ms ▸ List.subset_append_left _ _)

theorem Styled.append_right (h : Styled ms css) (ns : List OutputNode) : Styled (ns ++ ms) css :=
  h.of_subset (allOf_append ns ms ▸ List.subset_append_right _ _)

theorem styled_reverse : Styled ns.reverse css ↔ Styled ns css := by
  simp only [Styled, mem_allOf_reverse]

theorem allOf_tag (name : Text) (binds : Bindings) (children : List OutputNode) :
    allOf [.tag name binds children] = .tag name binds children :: allOf children := by
  rw [allOf, all, allOf, List.append_nil]

theorem Styled.tag (h : Styled ns css) (name : Text) (binds : Bindings) :
    Styled [.tag name binds ns] css :=
  h.of_subset (allOf_tag name binds ns ▸ List.subset_cons_self _ _)

theorem Styled.custom (h : Styled ns css) (target : ComponentId) (name : Text) (binds : Bindings) :
    Styled [.custom target name binds ns] css := by
  refine h.of_subset ?_
  rw [allOf, all]
  exact List.Subset.trans (List.subset_cons_self _ _) (List.subset_append_left _ _)

theorem Styled.wrapped {core o : OutputNode} (hw : Wrapped core o) (h : Styled [core] css) :
    Styled [o] css := by
  have hcond (e : Expression) (n : OutputNode) (h : Styled [n] css) : Styled [.cond e [n]] css :=
    h.of_subset (List.Subset.trans (List.subset_cons_self _ _) (List.subset_append_left _ _))
  have hrepetition (r : Repetition) (n : OutputNode) (h : Styled [n] css) :
      Styled [.repetition r [n]] css :=
    h.of_subset (List.Subset.trans (List.subset_cons_self _ _) (List.subset_append_left _ _))
  cases hw with
  | bare => exact h
  | cond e => exact hcond e core h
  | repetition r => exact hrepetition r core h
  | both r e => exact hrepetition r _ (hcond e core h)

/-- a style that has been merged holds its texts, and what was there before is still there -/
theorem styled_merge {binds : Bindings} {children newer older : List OutputNode} {text : Text} :
    Styled (newer ++ .tag styleName binds (children ++ [.text ⟨text, true⟩]) :: older) text ∧
    ∀ css, Styled (newer ++ .tag styleName binds children :: older) css →
      Styled (newer ++ .tag styleName binds (children ++ [.text ⟨text, true⟩]) :: older) css := by
  have hnew : Styled [.tag styleName binds (children ++ [.text ⟨text, true⟩])] text :=
    ⟨binds, _, List.mem_cons_self, List.mem_append_right _ List.mem_cons_self⟩
  refine ⟨(hnew.append_left older).append_right newer, ?_⟩
  rintro css ⟨binds', children', htag, htext⟩
  rw [allOf_append, allOf] at htag
  rcases List.mem_append.1 htag with htag | htag
  · exact Styled.append_left ⟨binds', children', htag, htext⟩ _
  · rcases List.mem_append.1 htag with htag | htag
    · have hhead : Styled [.tag styleName binds (children ++ [.text ⟨text, true⟩])] css := by
        rcases List.mem_cons.1 htag with he | htag
        · obtain ⟨-, -, rfl⟩ := OutputNode.tag.inj he
          exact ⟨binds, _, List.mem_cons_self, List.mem_append_left _ htext⟩
        · have hbelow : Styled (children ++ [.text ⟨text, true⟩]) css :=
            Styled.append_left ⟨binds', children', htag, htext⟩ _
          exact hbelow.tag styleName binds
      exact (hhead.append_left older).append_right newer
    · have holder : Styled older css := ⟨binds', children', htag, htext⟩
      exact (holder.append_right [_]).append_right newer

/-- a sheet with anything in it is written, behind what is there -/
theorem styled_styling {sheets : List Sheet} {sheet : SheetId} {attributes : Attributes}
    {done done' : List OutputNode} (h : Styling sheets sheet attributes done done') :
    (∀ ast, sheets[sheet]?.bind Sheet.ast = some ast → Text.isBlank ast.render = false →
      Styled done' ast.render) ∧
    ∀ css, Styled done css → Styled done' css := by
  cases h with
  | blank _ hblank =>
    refine ⟨fun ast hast hne => ?_, fun css h => h⟩
    rw [hblank ast hast] at hne
    cases hne
  | fresh _ ast hast =>
    have hnew : Styled [.tag styleName (plainBinds (attributes.without directiveNames)).1
        [.text ⟨ast.render, true⟩]] ast.render :=
      ⟨_, _, List.mem_cons_self, List.mem_cons_self⟩
    refine ⟨fun ast' he _ => ?_, fun css h => h.append_right [_]⟩
    obtain rfl := Option.some.inj (hast.symm.trans he)
    exact (hnew.wrapped (Wrapped.of_wrap styleName attributes _)).append_left done
  | merged newer older children binds ast hast =>
    refine ⟨fun ast' he _ => ?_, styled_merge.2⟩
    obtain rfl := Option.some.inj (hast.symm.trans he)
    exact styled_merge.1

end OutputNode

namespace Scope
open OutputNode (Styled)
variable {c : Scope}

mutual
/-- a style below a node is written, and what is there stays -/
theorem styled_node (verbatim : Bool) (n : BodyNode) (done : List OutputNode) :
    (∀ id ∈ n.styles, ∀ ast, c.sheets[id]?.bind Sheet.ast = some ast →
      Text.isBlank ast.render = false → Styled (c.node verbatim n done).1 ast.render) ∧
    ∀ css, Styled done css → Styled (c.node verbatim n done).1 css := by
  cases n with
  | text run =>
    rw [node]
    exact ⟨fun id hid => absurd hid List.not_mem_nil, fun css h => h.append_right _⟩
  | style sheet attributes =>
    obtain ⟨hnew, hold⟩ :=
      OutputNode.styled_styling (compileStyle_styling c.sheets sheet attributes done)
    rw [node]
    refine ⟨fun id hid => ?_, hold⟩
    rw [List.mem_singleton.1 hid]
    exact hnew
  | element name attributes children =>
    rw [node]
    refine ⟨fun id hid ast hast hblank => ?_, fun css h => h.append_right [_]⟩
    have hbelow (verbatim : Bool) : Styled (c.nodes verbatim children []).1.reverse ast.render :=
      OutputNode.styled_reverse.2 ((styled_nodes verbatim children []).1 id hid ast hast hblank)
    refine Styled.append_left (.wrapped (Wrapped.of_wrap name attributes _) ?_) done
    cases c.target? name with
    | some target => exact (hbelow false).custom _ _ _
    | none => exact (hbelow _).tag _ _
theorem styled_nodes (verbatim : Bool) (ns : List BodyNode) (done : List OutputNode) :
    (∀ id ∈ BodyNode.stylesOf ns, ∀ ast, c.sheets[id]?.bind Sheet.ast = some ast →
      Text.isBlank ast.render = false → Styled (c.nodes verbatim ns done).1 ast.render) ∧
    ∀ css, Styled done css → Styled (c.nodes verbatim ns done).1 css := by
  cases ns with
  | nil =>
    rw [nodes]
    exact ⟨fun id hid => absurd hid List.not_mem_nil, fun css h => h⟩
  | cons n ns =>
    obtain ⟨hfirst, hkept⟩ := styled_node verbatim n done
    obtain ⟨hothers, hkept'⟩ := styled_nodes verbatim ns (c.node verbatim n done).1
    rw [nodes]
    refine ⟨fun id hid ast hast hblank => ?_, fun css h => hkept' css (hkept css h)⟩
    rcases List.mem_append.1 hid with hid | hid
    · exact hkept' _ (hfirst id hid ast hast hblank)
    · exact hothers id hid ast hast hblank
end

/-- a style anywhere in a body is written into some `style` tag -/
theorem styled_compile (body : List BodyNode) {id : SheetId} (hid : id ∈ BodyNode.stylesOf body)
    {ast : Css.Node} (hast : c.sheets[id]?.bind Sheet.ast = some ast)
    (hblank : Text.isBlank ast.render = false) : Styled (c.compile body).1 ast.render :=
  OutputNode.styled_reverse.2 ((styled_nodes false body []).1 id hid ast hast hblank)

end Scope

end PageTemplates
