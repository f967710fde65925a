import PageTemplates.Proofs.BodyStructure
import PageTemplates.Proofs.Fragments

/-!
# Styles among their siblings

A style adds its text to the last style before it, or becomes a node of its own.  Either way the
texts stand in the order of the styles that they come from, under the same wrappers and bindings,
and the other siblings are compiled as if there were no styles.

* `all_isBlank_fragments`        blank text is compiled to blank text only;
* `OutputNode.unwrap`            the wrappers of a compiled element or style;
* `StyleEntry`                   the text of one style, with its wrappers and bindings;
* `foldStyle_isSome_append`      which nodes a style is folded across;
* `Adjoins`                      the styles of a body that a further one is folded into;
* `Scope.siblings_style`         one style behind its siblings;
* `Scope.Placed`                 what one more sibling does to the nodes before it;
* `Scope.siblings_styles`        all styles of a body.
-/

namespace PageTemplates

/-! ## blank text -/

def Fragment.isBlank : Fragment → Bool
  | .text t => Text.isBlank t
  | .expression _ => false

theorem Fragment.all_isBlank_cons (f : Fragment) (fs : List Fragment) :
    (cons f fs).all isBlank = (f.isBlank && fs.all isBlank) := by
  cases f with
  | expression e => rfl
  | text s =>
    cases fs with
    | nil => rfl
    | cons g fs =>
      cases g with
      | expression e => rfl
      | text t =>
        show (Text.isBlank (s ++ t) && _) = (Text.isBlank s && (Text.isBlank t && _))
        rw [Text.isBlank, List.all_append, Bool.and_assoc]
        rfl

theorem Fragment.all_isBlank_join (fs : List Fragment) :
    (join fs).all isBlank = fs.all isBlank := by
  induction fs with
  | nil => rfl
  | cons f fs ih =>
    show (cons f (join fs)).all isBlank = _
    rw [all_isBlank_cons, ih, List.all_cons]

namespace Placeholder

/-- what stands in braces is kept with its braces, or it is an expression -/
theorem isBlank_braced (inner : Text) : (Piece.braced inner).fragment.isBlank = false := by
  rw [Piece.fragment]
  split <;> rfl

theorem isBlank_unclosed (tail : Text) : (Piece.unclosed tail).fragment.isBlank = false := by
  rw [Piece.fragment]
  split <;> rfl

theorem all_isBlank_pieces (source : Text) :
    (pieces source).all (·.fragment.isBlank) = Text.isBlank source := by
  fun_induction pieces source with
  | case1 => rfl
  | case2 s ih => rfl
  | case3 s ih => rfl
  | case4 s _ hnone =>
    rw [List.all_cons, isBlank_unclosed]
    rfl
  | case5 s _ _ rest _ ih =>
    rw [List.all_cons, isBlank_braced]
    rfl
  | case6 c s _ _ _ ih =>
    rw [List.all_cons, ih]
    show (Text.isBlank [c] && Text.isBlank s) = Text.isBlank ([c] ++ s)
    exact List.all_append.symm

theorem all_isBlank_fragments (source : Text) :
    (fragments source).all Fragment.isBlank = Text.isBlank source := by
  rw [fragments, Fragment.all_isBlank_join, List.all_map]
  exact all_isBlank_pieces source

end Placeholder

/-- the nodes of a text are blank if the text is and is not verbatim -/
theorem all_isBlankText_compileText (verbatim : Bool) (run : Run) :
    (compileText verbatim run).1.all OutputNode.isBlankText
      = (!(verbatim || run.verbatim) && run.isBlank) := by
  unfold compileText
  split
  · next h =>
    rw [h]
    rfl
  · next h =>
    have hnode (f : Fragment) : f.node.isBlankText = f.isBlank := by
      cases f <;> rfl
    have hall : OutputNode.isBlankText ∘ Fragment.node = Fragment.isBlank := funext hnode
    rw [Bool.eq_false_iff.2 h, List.all_map, hall, Placeholder.all_isBlank_fragments]
    rfl

/-! ## entries -/

namespace OutputNode

/-- the wrappers around an element or a style, and what they hold -/
def unwrap : OutputNode → Wrapping × OutputNode
  | .repetition r [.cond e [core]] => (⟨some e, some r⟩, core)
  | .repetition r [core] => (⟨none, some r⟩, core)
  | .cond e [core] => (⟨some e, none⟩, core)
  | core => (.none, core)

theorem unwrap_around (w : Wrapping) {core : OutputNode} (h : core.isCore = true) :
    (w.around core).unwrap = (w, core) := by
  cases core with
  | tag name binds children => obtain ⟨_ | e, _ | r⟩ := w <;> rfl
  | custom target name binds captured => obtain ⟨_ | e, _ | r⟩ := w <;> rfl
  | _ => cases h

end OutputNode

/-- a text in a style, with the wrappers and the bindings of the style -/
structure StyleEntry where
  wrapping : Wrapping
  binds : Bindings
  content : OutputNode

namespace OutputNode

/-- the texts in a node that is a style, in order; nothing if the node is no style -/
def styleEntries? (n : OutputNode) : Option (List StyleEntry) :=
  match n.unwrap with
  | (w, .tag name binds children) =>
    if name = styleName then some (children.map (StyleEntry.mk w binds)) else none
  | _ => none

def styleEntries (n : OutputNode) : List StyleEntry := n.styleEntries?.getD []

def isStyle (n : OutputNode) : Bool := n.styleEntries?.isSome

theorem styleEntries?_style (w : Wrapping) (binds : Bindings) (children : List OutputNode) :
    (w.around (.tag styleName binds children)).styleEntries?
      = some (children.map (StyleEntry.mk w binds)) := by
  rw [styleEntries?, unwrap_around w rfl]
  exact if_pos rfl

theorem styleEntries?_of_isLeaf {n : OutputNode} (h : n.isLeaf = true) :
    n.styleEntries? = none := by
  cases n <;> first | rfl | cases h

theorem ne_tag_of_isLeaf {n : OutputNode} (h : n.isLeaf = true) {name : Text} {binds : Bindings} :
    ¬ ∃ children, n = .tag name binds children := by
  rintro ⟨children, rfl⟩
  cases h

theorem isLeaf_of_isBlankText {n : OutputNode} (h : n.isBlankText = true) : n.isLeaf = true := by
  cases n <;> first | rfl | cases h

end OutputNode

namespace BodyNode

def isStyle : BodyNode → Bool
  | .style _ _ => true
  | _ => false

/-- an element that is named like the nodes of styles -/
def isStyleElement : BodyNode → Bool
  | .element name _ _ => name == styleName
  | _ => false

end BodyNode

/-- the bindings of a style -/
def styleBinds (attributes : Attributes) : Bindings :=
  (plainBinds (attributes.without directiveNames)).1

/-- the node of a style that is not folded -/
def styleNode (attributes : Attributes) (css : Text) : OutputNode :=
  (Wrapping.ofAttributes attributes).around
    (.tag styleName (styleBinds attributes) [.text ⟨css, true⟩])

/-! ## one style -/

/-- whether a directive is written, also one that cannot be read -/
def isDirected (attributes : Attributes) : Bool := directiveNames.any attributes.contains

theorem ofAttributes_of_undirected {attributes : Attributes} (h : isDirected attributes = false) :
    Wrapping.ofAttributes attributes = .none := by
  have hnone (d : Text) (hd : d ∈ directiveNames) : attributes.get? d = none := by
    have hcontains := List.any_eq_false.1 h d hd
    cases hget : attributes.get? d with
    | none => rfl
    | some value =>
      exact absurd (NameMap.contains_iff.2 (NameMap.mem_names_iff.2 ⟨value, hget⟩)) hcontains
  have hif : attributes.get? "if".toList = none := hnone _ List.mem_cons_self
  have hrepeat : attributes.get? "repeat".toList = none :=
    hnone _ (List.mem_cons_of_mem _ List.mem_cons_self)
  rw [Wrapping.ofAttributes, hif, hrepeat]
  rfl

/-- a node is passed over if it is blank, and taken if it is a style with these bindings -/
theorem foldStyle_isSome_cons (binds : Bindings) (css n : OutputNode) (done : List OutputNode) :
    (foldStyle binds css (n :: done)).isSome = true ↔
      n.isBlankText = true ∧ (foldStyle binds css done).isSome = true ∨
      ∃ children, n = .tag styleName binds children := by
  by_cases hblank : n.isBlankText = true
  · have hstep : foldStyle binds css (n :: done) = (foldStyle binds css done).map (n :: ·) :=
      if_pos hblank
    have hleaf := OutputNode.isLeaf_of_isBlankText hblank
    rw [hstep, Option.isSome_map, or_iff_left (OutputNode.ne_tag_of_isLeaf hleaf),
      and_iff_right hblank]
  · rw [or_iff_right fun h => hblank h.1]
    constructor
    · intro h
      obtain ⟨done', hfold⟩ := Option.isSome_iff_exists.1 h
      obtain ⟨newer, older, children, hnewer, hdone, -⟩ := foldStyle_eq_some hfold
      cases newer with
      | nil => exact ⟨children, (List.cons.inj hdone).1⟩
      | cons n' newer =>
        obtain ⟨rfl, -⟩ := List.cons.inj hdone
        exact absurd (hnewer n List.mem_cons_self) hblank
    · rintro ⟨children, rfl⟩
      show (if styleName = styleName ∧ binds = binds then some _ else none).isSome = true
      rw [if_pos ⟨rfl, rfl⟩]
      rfl

/-- texts and expressions are passed over if they are all blank -/
theorem foldStyle_isSome_append (binds : Bindings) (css : OutputNode) {newer : List OutputNode}
    (h : ∀ n ∈ newer, n.isLeaf = true) (done : List OutputNode) :
    (foldStyle binds css (newer ++ done)).isSome = true ↔
      newer.all OutputNode.isBlankText = true ∧ (foldStyle binds css done).isSome = true := by
  induction newer with
  | nil => exact ⟨fun h => ⟨rfl, h⟩, And.right⟩
  | cons n newer ih =>
    obtain ⟨hn, hnewer⟩ := List.forall_mem_cons.1 h
    rw [List.cons_append, foldStyle_isSome_cons, or_iff_left (OutputNode.ne_tag_of_isLeaf hn),
      ih hnewer, List.all_cons, Bool.and_eq_true, and_assoc]

/-- a style is never folded into what is not one -/
theorem foldStyle_isSome_around (binds : Bindings) (css : OutputNode) (w : Wrapping)
    {core : OutputNode} (hcore : core.isCore = true) (done : List OutputNode) :
    (foldStyle binds css (w.around core :: done)).isSome = true ↔
      w = .none ∧ ∃ children, core = .tag styleName binds children := by
  have hblank : (w.around core).isBlankText = false := by
    cases core with
    | tag name binds children => obtain ⟨_ | e, _ | r⟩ := w <;> rfl
    | custom target name binds captured => obtain ⟨_ | e, _ | r⟩ := w <;> rfl
    | _ => cases hcore
  rw [foldStyle_isSome_cons, hblank, or_iff_right fun h => Bool.false_ne_true h.1]
  constructor
  · rintro ⟨children, h⟩
    obtain ⟨hw, hcore⟩ := Wrapping.eq_of_around_eq_tag h
    exact ⟨hw, children, hcore⟩
  · rintro ⟨rfl, children, rfl⟩
    exact ⟨children, rfl⟩

theorem foldStyle_isSome_style (binds : Bindings) (css : OutputNode) (w : Wrapping)
    (own : Bindings) (children done : List OutputNode) :
    (foldStyle binds css (w.around (.tag styleName own children) :: done)).isSome = true ↔
      w = .none ∧ own = binds := by
  rw [foldStyle_isSome_around binds css w rfl]
  refine and_congr_right fun _ => ⟨?_, ?_⟩
  · rintro ⟨children', h⟩
    cases h
    rfl
  · rintro rfl
    exact ⟨children, rfl⟩

/-- `nodes'` are `nodes` with a further text in a style that nothing but blank text is behind -/
def Folded (binds : Bindings) (css : OutputNode) (nodes nodes' : List OutputNode) : Prop :=
  ∃ older children blanks, (∀ n ∈ blanks, n.isBlankText = true) ∧
    nodes = older ++ .tag styleName binds children :: blanks ∧
    nodes' = older ++ .tag styleName binds (children ++ [css]) :: blanks

theorem folded_of_foldStyle {binds : Bindings} {css : OutputNode} {done done' : List OutputNode}
    (h : foldStyle binds css done = some done') : Folded binds css done.reverse done'.reverse := by
  obtain ⟨newer, older, children, hnewer, rfl, rfl⟩ := foldStyle_eq_some h
  have hblanks : ∀ n ∈ newer.reverse, n.isBlankText = true := fun n hn =>
    hnewer n (List.mem_reverse.1 hn)
  refine ⟨older.reverse, children, newer.reverse, hblanks, ?_, ?_⟩ <;>
  · rw [List.reverse_append, List.reverse_cons, List.append_assoc]
    rfl

namespace Folded
variable {binds : Bindings} {css : OutputNode} {nodes nodes' : List OutputNode}

theorem styleEntries (h : Folded binds css nodes nodes') :
    nodes'.flatMap OutputNode.styleEntries
      = nodes.flatMap OutputNode.styleEntries ++ [⟨.none, binds, css⟩] := by
  obtain ⟨older, children, blanks, hblanks, rfl, rfl⟩ := h
  have hnone : blanks.flatMap OutputNode.styleEntries = [] := by
    apply List.flatMap_eq_nil_iff.2
    intro n hn
    rw [OutputNode.styleEntries,
      OutputNode.styleEntries?_of_isLeaf (OutputNode.isLeaf_of_isBlankText (hblanks n hn))]
    rfl
  have hstyle (children : List OutputNode) :
      (OutputNode.tag styleName binds children).styleEntries
        = children.map (StyleEntry.mk .none binds) :=
    congrArg (Option.getD · []) (OutputNode.styleEntries?_style .none binds children)
  rw [List.flatMap_append, List.flatMap_append, List.flatMap_cons, List.flatMap_cons, hnone, hstyle,
    hstyle, List.map_append, List.append_nil, List.append_nil, List.append_assoc]
  rfl

theorem filter_not_isStyle (h : Folded binds css nodes nodes') :
    nodes'.filter (fun n => !n.isStyle) = nodes.filter fun n => !n.isStyle := by
  obtain ⟨older, children, blanks, -, rfl, rfl⟩ := h
  rw [List.filter_append, List.filter_append]
  rfl

end Folded

namespace Scope
variable {c : Scope} {verbatim : Bool}

/-- what a sheet says, unless that is nothing -/
def css? (c : Scope) (sheet : SheetId) : Option Text :=
  ((c.sheets[sheet]?.bind Sheet.ast).map Css.Node.render).filter fun css => !Text.isBlank css

/-- the text of a style, if its sheet says anything, as it should stand among its siblings -/
def styleOf? (c : Scope) : BodyNode → Option StyleEntry
  | .style sheet attributes => (c.css? sheet).map fun css =>
    ⟨.ofAttributes attributes, styleBinds attributes, .text ⟨css, true⟩⟩
  | _ => none

theorem compileStyle_of_none {sheet : SheetId} (h : c.css? sheet = none) (attributes : Attributes)
    (done : List OutputNode) : (compileStyle c.sheets sheet attributes done).1 = done := by
  unfold compileStyle
  unfold css? at h
  cases hast : c.sheets[sheet]?.bind Sheet.ast with
  | none => rfl
  | some ast =>
    rw [hast, Option.map_some, Option.filter_some] at h
    have hblank : Text.isBlank ast.render = true := by
      cases hblank : Text.isBlank ast.render with
      | true => rfl
      | false =>
        rw [hblank] at h
        cases h
    dsimp only
    rw [if_pos hblank]

theorem compileStyle_of_some {sheet : SheetId} {css : Text} (h : c.css? sheet = some css)
    (attributes : Attributes) (done : List OutputNode) :
    (compileStyle c.sheets sheet attributes done).1
      = ((if isDirected attributes then none
          else foldStyle (styleBinds attributes) (.text ⟨css, true⟩) done).getD
        (styleNode attributes css :: done)) := by
  obtain ⟨hmap, hblank⟩ := Option.filter_eq_some_iff.1 h
  obtain ⟨ast, hast, rfl⟩ := Option.map_eq_some_iff.1 hmap
  have hblank : ¬ Text.isBlank ast.render = true := by simpa using hblank
  have hwrap := Wrapping.wrap_eq styleName attributes
    (.tag styleName (styleBinds attributes) [.text ⟨ast.render, true⟩])
  unfold compileStyle
  rw [hast]
  dsimp only
  rw [if_neg hblank]
  unfold isDirected
  split
  · exact congrArg (· :: done) hwrap
  · unfold styleBinds
    cases foldStyle (plainBinds (attributes.without directiveNames)).1 (.text ⟨ast.render, true⟩)
        done with
    | some done' => rfl
    | none => exact congrArg (· :: done) hwrap

/-! ## siblings -/

/-- the nodes of siblings, in order: of a body, or of the children of an element -/
def siblings (c : Scope) (verbatim : Bool) (ns : List BodyNode) : List OutputNode :=
  (c.nodes verbatim ns []).1.reverse

theorem nodes_concat (ns : List BodyNode) (n : BodyNode) (done : List OutputNode) :
    (c.nodes verbatim (ns ++ [n]) done).1
      = (c.node verbatim n (c.nodes verbatim ns done).1).1 := by
  induction ns generalizing done with
  | nil =>
    rw [List.nil_append, nodes, nodes, nodes]
  | cons m ns ih =>
    rw [List.cons_append, nodes, nodes]
    exact ih _

theorem siblings_concat (ns : List BodyNode) (n : BodyNode) : c.siblings verbatim (ns ++ [n])
    = (c.node verbatim n (c.siblings verbatim ns).reverse).1.reverse := by
  rw [siblings, nodes_concat, siblings, List.reverse_reverse]

theorem siblings_concat_text (ns : List BodyNode) (run : Run) :
    c.siblings verbatim (ns ++ [.text run])
      = c.siblings verbatim ns ++ (compileText verbatim run).1 := by
  rw [siblings_concat, node, List.reverse_append, List.reverse_reverse, List.reverse_reverse]

theorem siblings_concat_element (c : Scope) (verbatim : Bool) {name : Text}
    (hname : name ≠ styleName) (attributes : Attributes) (children : List BodyNode) :
    ∃ core : OutputNode, core.isCore = true ∧ (¬ ∃ binds below, core = .tag styleName binds below) ∧
      ∀ ns, c.siblings verbatim (ns ++ [.element name attributes children])
        = c.siblings verbatim ns ++ [(Wrapping.ofAttributes attributes).around core] := by
  cases htarget : c.target? name with
  | none =>
    refine ⟨.tag name (plainBinds (attributes.without directiveNames)).1
      (c.nodes (name = scriptName) children []).1.reverse, rfl, ?_, fun ns => ?_⟩
    · rintro ⟨binds, below, h⟩
      cases h
      exact hname rfl
    · rw [siblings_concat, node, htarget, ← Wrapping.wrap_eq name, List.reverse_cons,
        List.reverse_reverse]
  | some target =>
    refine ⟨.custom target.id name
      (componentBinds name target.params (attributes.without directiveNames)).1
      (c.nodes false children []).1.reverse, rfl, ?_, fun ns => ?_⟩
    · rintro ⟨binds, below, h⟩
      cases h
    · rw [siblings_concat, node, htarget, ← Wrapping.wrap_eq name, List.reverse_cons,
        List.reverse_reverse]

/-- what is no style is compiled by itself, and to no style -/
theorem siblings_concat_other (c : Scope) (verbatim : Bool) {n : BodyNode}
    (hn : n.isStyle = false) (helement : n.isStyleElement = false) :
    ∃ made : List OutputNode, (∀ o ∈ made, o.styleEntries? = none) ∧
      ∀ ns, c.siblings verbatim (ns ++ [n]) = c.siblings verbatim ns ++ made := by
  cases n with
  | text run =>
    refine ⟨_, fun o ho => ?_, fun ns => siblings_concat_text ns run⟩
    exact OutputNode.styleEntries?_of_isLeaf (isLeaf_of_mem_compileText ho)
  | style sheet attributes => cases hn
  | element name attributes children =>
    have hname : name ≠ styleName := beq_eq_false_iff_ne.1 helement
    obtain ⟨core, hcore, htag, hsiblings⟩ :=
      c.siblings_concat_element verbatim hname attributes children
    refine ⟨_, List.forall_mem_singleton.2 ?_, hsiblings⟩
    rw [OutputNode.styleEntries?, OutputNode.unwrap_around _ hcore]
    cases core with
    | tag name' binds below =>
      refine if_neg ?_
      rintro rfl
      exact htag ⟨binds, below, rfl⟩
    | custom => rfl
    | _ => cases hcore

theorem siblings_concat_blank (ns : List BodyNode) {sheet : SheetId} (h : c.css? sheet = none)
    (attributes : Attributes) :
    c.siblings verbatim (ns ++ [.style sheet attributes]) = c.siblings verbatim ns := by
  rw [siblings_concat, node, compileStyle_of_none h, List.reverse_reverse]

theorem siblings_concat_style (ns : List BodyNode) {sheet : SheetId} {css : Text}
    (h : c.css? sheet = some css) (attributes : Attributes) :
    c.siblings verbatim (ns ++ [.style sheet attributes])
      = ((if isDirected attributes then none
          else foldStyle (styleBinds attributes) (.text ⟨css, true⟩)
            (c.siblings verbatim ns).reverse).getD
        (styleNode attributes css :: (c.siblings verbatim ns).reverse)).reverse := by
  rw [siblings_concat, node, compileStyle_of_some h]

/-! ## the style before -/

/-- whether blank text is all that a node is compiled to, if anything -/
def isSpacing (c : Scope) (verbatim : Bool) : BodyNode → Bool
  | .text run => !(verbatim || run.verbatim) && run.isBlank
  | .style sheet _ => (c.css? sheet).isNone
  | .element _ _ _ => false

/-- a style that says something, with these bindings and without wrappers -/
def Hosts (c : Scope) (binds : Bindings) (n : BodyNode) : Prop :=
  ∃ sheet attributes, n = .style sheet attributes ∧ (c.css? sheet).isSome = true ∧
    Wrapping.ofAttributes attributes = .none ∧ styleBinds attributes = binds

/-- a style with these bindings and without wrappers comes last, but for spacing -/
def Adjoins (c : Scope) (verbatim : Bool) (before : List BodyNode) (binds : Bindings) : Prop :=
  ∃ front host between, before = front ++ host :: between ∧ c.Hosts binds host ∧
    ∀ n ∈ between, c.isSpacing verbatim n = true

theorem not_adjoins_nil (binds : Bindings) : ¬ c.Adjoins verbatim [] binds := by
  rintro ⟨front, host, between, h, -⟩
  exact absurd h.symm (List.append_ne_nil_of_right_ne_nil _ (List.cons_ne_nil _ _))

theorem adjoins_concat {before : List BodyNode} {n : BodyNode} {binds : Bindings} :
    c.Adjoins verbatim (before ++ [n]) binds ↔
      c.isSpacing verbatim n = true ∧ c.Adjoins verbatim before binds ∨ c.Hosts binds n := by
  constructor
  · rintro ⟨front, host, between, h, hhost, hbetween⟩
    rcases List.eq_nil_or_concat between with rfl | ⟨between, m, rfl⟩
    · obtain ⟨-, hn⟩ := List.append_inj' h rfl
      obtain rfl : n = host := (List.cons.inj hn).1
      exact .inr hhost
    · rw [List.concat_eq_append, ← List.cons_append, ← List.append_assoc] at h
      rw [List.concat_eq_append] at hbetween
      obtain ⟨rfl, hn⟩ := List.append_inj' h rfl
      obtain rfl : n = m := (List.cons.inj hn).1
      obtain ⟨hbetween, hn⟩ := List.forall_mem_append.1 hbetween
      exact .inl ⟨hn n List.mem_cons_self, front, host, between, rfl, hhost, hbetween⟩
  · rintro (⟨hn, front, host, between, rfl, hhost, hbetween⟩ | hhost)
    · refine ⟨front, host, between ++ [n], ?_, hhost, ?_⟩
      · rw [List.append_assoc, List.cons_append]
      · exact List.forall_mem_append.2 ⟨hbetween, List.forall_mem_singleton.2 hn⟩
    · exact ⟨before, n, [], rfl, hhost, List.forall_mem_nil _⟩

theorem hosts_style {sheet : SheetId} {attributes : Attributes} {css : Text}
    (h : c.css? sheet = some css) {binds : Bindings} :
    c.Hosts binds (.style sheet attributes) ↔
      Wrapping.ofAttributes attributes = .none ∧ styleBinds attributes = binds := by
  constructor
  · rintro ⟨_, _, heq, -, hwrapping, hbinds⟩
    cases heq
    exact ⟨hwrapping, hbinds⟩
  · rintro ⟨hwrapping, hbinds⟩
    exact ⟨sheet, attributes, rfl, Option.isSome_iff_exists.2 ⟨css, h⟩, hwrapping, hbinds⟩

/-- a style can be folded into itself alone, wherever its text went -/
theorem foldStyle_isSome_styled (binds : Bindings) (more : OutputNode) (attributes : Attributes)
    (css : Text) (done : List OutputNode) :
    (foldStyle binds more ((if isDirected attributes then none
        else foldStyle (styleBinds attributes) (.text ⟨css, true⟩) done).getD
      (styleNode attributes css :: done))).isSome = true ↔
      Wrapping.ofAttributes attributes = .none ∧ styleBinds attributes = binds := by
  by_cases hdirected : isDirected attributes = true
  · rw [if_pos hdirected]
    exact foldStyle_isSome_style binds more _ _ _ done
  · rw [if_neg hdirected]
    cases hfold : foldStyle (styleBinds attributes) (.text ⟨css, true⟩) done with
    | none => exact foldStyle_isSome_style binds more _ _ _ done
    | some done' =>
      obtain ⟨newer, older, children, hnewer, -, rfl⟩ := foldStyle_eq_some hfold
      have hleaf : ∀ n ∈ newer, n.isLeaf = true := fun n hn =>
        OutputNode.isLeaf_of_isBlankText (hnewer n hn)
      have hnone := ofAttributes_of_undirected (Bool.eq_false_iff.2 hdirected)
      have hstyle := foldStyle_isSome_style binds more .none (styleBinds attributes)
        (children ++ [.text ⟨css, true⟩]) older
      rw [Option.getD_some, foldStyle_isSome_append binds more hleaf, hnone,
        and_iff_right (List.all_eq_true.2 hnewer)]
      exact hstyle

/-- the style that the nodes are searched for is the one that the siblings adjoin -/
theorem foldStyle_isSome_iff (binds : Bindings) (css : OutputNode) {before : List BodyNode}
    (hbefore : ∀ n ∈ before, n.isStyleElement = false) :
    (foldStyle binds css (c.siblings verbatim before).reverse).isSome = true ↔
      c.Adjoins verbatim before binds := by
  induction before using List.reverseRecOn with
  | nil =>
    refine iff_of_false ?_ (not_adjoins_nil binds)
    exact Bool.false_ne_true
  | append_singleton before n ih =>
    obtain ⟨hbefore, hn⟩ := List.forall_mem_append.1 hbefore
    rw [adjoins_concat, ← ih hbefore]
    cases n with
    | text run =>
      have hhost : ¬ c.Hosts binds (.text run) := by
        rintro ⟨_, _, h, -⟩
        cases h
      have hleaf : ∀ o ∈ (compileText verbatim run).1.reverse, o.isLeaf = true := fun o ho =>
        isLeaf_of_mem_compileText (List.mem_reverse.1 ho)
      rw [siblings_concat_text, List.reverse_append, foldStyle_isSome_append binds css hleaf,
        List.all_reverse, all_isBlankText_compileText, or_iff_left hhost]
      rfl
    | style sheet attributes =>
      cases hcss : c.css? sheet with
      | none =>
        have hhost : ¬ c.Hosts binds (.style sheet attributes) := by
          rintro ⟨_, _, h, hsome, -⟩
          cases h
          rw [hcss] at hsome
          cases hsome
        have hspacing : c.isSpacing verbatim (.style sheet attributes) = true :=
          congrArg Option.isNone hcss
        rw [siblings_concat_blank _ hcss, or_iff_left hhost, and_iff_right hspacing]
      | some text =>
        have hspacing : ¬ c.isSpacing verbatim (.style sheet attributes) = true := by
          rw [isSpacing, hcss]
          exact Bool.false_ne_true
        rw [siblings_concat_style _ hcss, List.reverse_reverse, foldStyle_isSome_styled,
          hosts_style hcss, or_iff_right fun h => hspacing h.1]
    | element name attributes children =>
      have hhost : ¬ c.Hosts binds (.element name attributes children) := by
        rintro ⟨_, _, h, -⟩
        cases h
      have hname : name ≠ styleName := beq_eq_false_iff_ne.1 (hn _ List.mem_cons_self)
      obtain ⟨core, hcore, htag, hsiblings⟩ :=
        c.siblings_concat_element verbatim hname attributes children
      rw [hsiblings, List.reverse_append]
      refine iff_of_false ?_ ?_
      · intro h
        obtain ⟨-, below, rfl⟩ := (foldStyle_isSome_around binds css _ hcore _).1 h
        exact htag ⟨binds, below, rfl⟩
      · rintro (⟨h, -⟩ | h)
        · cases h
        · exact hhost h

/-! ## all styles -/

/-- a style without directives whose siblings adjoin one with the same bindings is folded into it,
and any other style that says something becomes a node of its own -/
theorem siblings_style (verbatim : Bool) {before : List BodyNode}
    (hbefore : ∀ n ∈ before, n.isStyleElement = false) {sheet : SheetId} {css : Text}
    (h : c.css? sheet = some css) (attributes : Attributes) :
    (isDirected attributes = false ∧ c.Adjoins verbatim before (styleBinds attributes) ∧
      Folded (styleBinds attributes) (.text ⟨css, true⟩) (c.siblings verbatim before)
        (c.siblings verbatim (before ++ [.style sheet attributes]))) ∨
    (¬ (isDirected attributes = false ∧ c.Adjoins verbatim before (styleBinds attributes)) ∧
      c.siblings verbatim (before ++ [.style sheet attributes])
        = c.siblings verbatim before ++ [styleNode attributes css]) := by
  have hiff : _ ↔ c.Adjoins verbatim before (styleBinds attributes) :=
    foldStyle_isSome_iff (styleBinds attributes) (.text ⟨css, true⟩) hbefore
  have hfresh : (styleNode attributes css :: (c.siblings verbatim before).reverse).reverse
      = c.siblings verbatim before ++ [styleNode attributes css] := by
    rw [List.reverse_cons, List.reverse_reverse]
  rw [siblings_concat_style before h]
  by_cases hdirected : isDirected attributes = true
  · refine .inr ⟨fun hplain => ?_, ?_⟩
    · cases hplain.1.symm.trans hdirected
    · rw [if_pos hdirected, Option.getD_none, hfresh]
  · rw [if_neg hdirected]
    cases hfold : foldStyle (styleBinds attributes) (.text ⟨css, true⟩)
        (c.siblings verbatim before).reverse with
    | none =>
      rw [hfold] at hiff
      exact .inr ⟨fun hplain => Bool.false_ne_true (hiff.2 hplain.2), hfresh⟩
    | some done =>
      rw [hfold] at hiff
      have hfolded := folded_of_foldStyle hfold
      rw [List.reverse_reverse] at hfolded
      exact .inl ⟨Bool.eq_false_iff.2 hdirected, hiff.1 rfl, hfolded⟩

/-- one more sibling: a style that says nothing, one that is folded, one that is not, or no style -/
inductive Placed (c : Scope) (verbatim : Bool) (before : List BodyNode) (n : BodyNode) : Prop where
  | silent (style : n.isStyle = true) (entry : c.styleOf? n = none)
      (placed : c.siblings verbatim (before ++ [n]) = c.siblings verbatim before)
  | folded (style : n.isStyle = true) (binds : Bindings) (css : OutputNode)
      (entry : c.styleOf? n = some ⟨.none, binds, css⟩)
      (placed : Folded binds css (c.siblings verbatim before)
        (c.siblings verbatim (before ++ [n])))
  | fresh (style : n.isStyle = true) (e : StyleEntry) (entry : c.styleOf? n = some e)
      (o : OutputNode) (entries : o.styleEntries? = some [e])
      (placed : c.siblings verbatim (before ++ [n]) = c.siblings verbatim before ++ [o])
  | other (unstyled : n.isStyle = false) (entry : c.styleOf? n = none)
      (made : List OutputNode) (entries : ∀ o ∈ made, o.styleEntries? = none)
      (placed : ∀ ns, c.siblings verbatim (ns ++ [n]) = c.siblings verbatim ns ++ made)

theorem placed (verbatim : Bool) {before : List BodyNode}
    (hbefore : ∀ n ∈ before, n.isStyleElement = false) {n : BodyNode}
    (hn : n.isStyleElement = false) : c.Placed verbatim before n := by
  cases n with
  | text run =>
    obtain ⟨made, hmade, hsiblings⟩ := c.siblings_concat_other verbatim rfl hn
    exact .other rfl rfl made hmade hsiblings
  | element name attributes children =>
    obtain ⟨made, hmade, hsiblings⟩ := c.siblings_concat_other verbatim rfl hn
    exact .other rfl rfl made hmade hsiblings
  | style sheet attributes =>
    cases hcss : c.css? sheet with
    | none =>
      have hentry : c.styleOf? (.style sheet attributes) = none := by
        rw [styleOf?, hcss]
        rfl
      exact .silent rfl hentry (siblings_concat_blank before hcss attributes)
    | some css =>
      have hentry : c.styleOf? (.style sheet attributes)
          = some ⟨.ofAttributes attributes, styleBinds attributes, .text ⟨css, true⟩⟩ := by
        rw [styleOf?, hcss]
        rfl
      rcases siblings_style verbatim hbefore hcss attributes with
        ⟨hplain, -, hfolded⟩ | ⟨-, hfresh⟩
      · rw [ofAttributes_of_undirected hplain] at hentry
        exact .folded rfl _ _ hentry hfolded
      · exact .fresh rfl _ hentry _ (OutputNode.styleEntries?_style _ _ _) hfresh

theorem siblings_entries {body : List BodyNode}
    (hbody : ∀ n ∈ body, n.isStyleElement = false) :
    (c.siblings verbatim body).flatMap OutputNode.styleEntries = body.filterMap c.styleOf? := by
  induction body using List.reverseRecOn with
  | nil =>
    rw [siblings, nodes]
    rfl
  | append_singleton before n ih =>
    obtain ⟨hbefore, hn⟩ := List.forall_mem_append.1 hbody
    rw [List.filterMap_append, ← ih hbefore]
    cases placed (c := c) verbatim hbefore (hn n List.mem_cons_self) with
    | silent _ entry placed =>
      rw [placed, List.filterMap_cons_none entry, List.filterMap_nil, List.append_nil]
    | folded _ binds css entry placed =>
      rw [placed.styleEntries, List.filterMap_cons_some entry, List.filterMap_nil]
    | fresh _ e entry o entries placed =>
      rw [placed, List.flatMap_append, List.flatMap_singleton, OutputNode.styleEntries, entries,
        List.filterMap_cons_some entry, List.filterMap_nil]
      rfl
    | other _ entry made entries placed =>
      have hnone : made.flatMap OutputNode.styleEntries = [] := by
        apply List.flatMap_eq_nil_iff.2
        intro o ho
        rw [OutputNode.styleEntries, entries o ho]
        rfl
      rw [placed, List.flatMap_append, hnone, List.filterMap_cons_none entry, List.filterMap_nil]

theorem siblings_others {body : List BodyNode}
    (hbody : ∀ n ∈ body, n.isStyleElement = false) :
    (c.siblings verbatim body).filter (fun n => !n.isStyle)
      = c.siblings verbatim (body.filter fun n => !n.isStyle) := by
  induction body using List.reverseRecOn with
  | nil =>
    rw [List.filter_nil, siblings, nodes]
    rfl
  | append_singleton before n ih =>
    obtain ⟨hbefore, hn⟩ := List.forall_mem_append.1 hbody
    have hgone (h : n.isStyle = true) :
        (before ++ [n]).filter (fun n => !n.isStyle) = before.filter fun n => !n.isStyle := by
      rw [List.filter_append, List.filter_cons, h]
      exact List.append_nil _
    cases placed (c := c) verbatim hbefore (hn n List.mem_cons_self) with
    | silent style _ placed => rw [placed, hgone style, ih hbefore]
    | folded style _ _ _ placed => rw [placed.filter_not_isStyle, hgone style, ih hbefore]
    | fresh style _ _ o entries placed =>
      have ho : o.isStyle = true := by
        rw [OutputNode.isStyle, entries]
        rfl
      rw [placed, hgone style, ← ih hbefore, List.filter_append, List.filter_cons, ho]
      exact List.append_nil _
    | other unstyled _ made entries placed =>
      have hmade : made.filter (fun n => !n.isStyle) = made := by
        apply List.filter_eq_self.2
        intro o ho
        rw [OutputNode.isStyle, entries o ho]
        rfl
      have hkept : [n].filter (fun n => !n.isStyle) = [n] := by
        rw [List.filter_cons, unstyled]
        rfl
      rw [placed, List.filter_append, hmade, List.filter_append, hkept, placed, ih hbefore]

/-- **Folding keeps the order of the styles.**  The texts in the compiled styles of a list of
siblings are those of its styles that say anything, in order, each once and under the wrappers and
the bindings of its own style.  A style is folded if it has no directive and only blank text stands
between it and one with the same bindings; it becomes a node of its own otherwise.  Without the
styles, the nodes are what the siblings without styles are compiled to. -/
theorem siblings_styles (c : Scope) (verbatim : Bool) (body : List BodyNode)
    (hbody : ∀ n ∈ body, n.isStyleElement = false) :
    (c.siblings verbatim body).flatMap OutputNode.styleEntries = body.filterMap c.styleOf? ∧
    (c.siblings verbatim body).filter (fun n => !n.isStyle)
      = c.siblings verbatim (body.filter fun n => !n.isStyle) ∧
    ∀ before sheet attributes after css, body = before ++ .style sheet attributes :: after →
      c.css? sheet = some css →
      (isDirected attributes = false ∧ c.Adjoins verbatim before (styleBinds attributes) ∧
        Folded (styleBinds attributes) (.text ⟨css, true⟩) (c.siblings verbatim before)
          (c.siblings verbatim (before ++ [.style sheet attributes]))) ∨
      (¬ (isDirected attributes = false ∧ c.Adjoins verbatim before (styleBinds attributes)) ∧
        c.siblings verbatim (before ++ [.style sheet attributes])
          = c.siblings verbatim before ++ [styleNode attributes css]) := by
  refine ⟨siblings_entries hbody, siblings_others hbody, ?_⟩
  rintro before sheet attributes after css rfl hcss
  exact siblings_style verbatim (List.forall_mem_append.1 hbody).1 hcss attributes

/-- two sheets with a rule each, an empty one between them -/
def stylingScope : Scope where
  self := 0
  components := []
  sheets :=
    let sheet (rules : List Css.Node) : Sheet :=
      { Sheet.register 0 (.remote "x/a.css".toList) [] false false with ast := some (.sheet rules) }
    [sheet [.rule "p".toList "top: 0".toList], sheet [], sheet [.rule "a".toList "top: 1".toList]]
  names := ⟨.empty⟩

def printMedia : Attributes := .ofList [("media".toList, "print".toList)]

/-- a style that is folded across blank text and a style without rules, a conditional one, and two
with an element between them -/
def stylingBody : List BodyNode :=
  [.style 0 printMedia, .text ⟨"\n ".toList, false⟩, .style 1 .empty, .style 2 printMedia,
    .style 0 (.ofList [("if".toList, "ok".toList)]), .style 2 .empty, .element "p".toList .empty [],
    .style 0 .empty]

theorem siblings_styles_between :
    let p := OutputNode.text ⟨"p \x7b top: 0 \x7d".toList, true⟩
    let a := OutputNode.text ⟨"a \x7b top: 1 \x7d".toList, true⟩
    (∀ n ∈ stylingBody, n.isStyleElement = false) ∧
    (stylingScope.siblings false stylingBody).flatMap OutputNode.styleEntries
      = [⟨.none, styleBinds printMedia, p⟩, ⟨.none, styleBinds printMedia, a⟩,
        ⟨⟨some ⟨["ok".toList]⟩, none⟩, .empty, p⟩, ⟨.none, .empty, a⟩, ⟨.none, .empty, p⟩] ∧
    (stylingScope.siblings false stylingBody).filter (fun n => !n.isStyle)
      = [.text ⟨"\n ".toList, false⟩, .tag "p".toList .empty []] ∧
    Folded (styleBinds printMedia) a (stylingScope.siblings false (stylingBody.take 3))
      (stylingScope.siblings false (stylingBody.take 4)) := by
  have hbody : ∀ n ∈ stylingBody, n.isStyleElement = false := by decide
  obtain ⟨hentries, hothers, hstyle⟩ := siblings_styles stylingScope false stylingBody hbody
  refine ⟨hbody, hentries.trans rfl, hothers.trans ?_, ?_⟩
  · with_unfolding_all rfl
  · rcases hstyle (stylingBody.take 3) 2 printMedia (stylingBody.drop 4) _ rfl rfl with
      ⟨-, -, hfolded⟩ | ⟨hnot, -⟩
    · exact hfolded
    · refine absurd ⟨rfl, [], _, _, rfl, ⟨0, printMedia, rfl, rfl, rfl, rfl⟩, ?_⟩ hnot
      decide

end Scope

end PageTemplates
