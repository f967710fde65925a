import PageTemplates.Html.Tree
import PageTemplates.Proofs.Tags

/-!
# Reading written markup

A fragment is written without anything that a reader would pass over.  Reading it gives the
fragment back if its nodes are `Printable`.

* `Node.render`, `Fragment.render`   the written form;
* `Node.Printable`                what can be told apart as markup;
* `Node.tokens`                  the tokens of a node;
* `Node.tokens_renderList`       a written list of nodes in front of a tag has their tokens;
* `Node.foldl_tokensList`        the builder makes the nodes of their tokens, whatever is open;
* `Fragment.ofText_render`       written and read again.
-/

namespace PageTemplates.Html

/-! ## written nodes -/

mutual
/-- an element without children has no end tag; a verbatim run is written as it is -/
def Node.render : Node → Text
  | .text run => if run.verbatim then run.text else Reference.escape Reference.textNames run.text
  | .element name attributes children =>
    '<' :: (name ++ (attributesText attributes.entries ++ '>' ::
      if isVoid name then [] else Node.renderList children ++ '<' :: '/' :: (name ++ ['>'])))
  | .fragment children _ => Node.renderList children
def Node.renderList : List Node → Text
  | [] => []
  | n :: ns => n.render ++ Node.renderList ns
end

def Fragment.render (f : Fragment) : Text :=
  (if f.hasDoctype then "<!DOCTYPE html>".toList else []) ++ Node.renderList f.children

def Node.isText : Node → Bool
  | .text _ => true
  | .element .. | .fragment .. => false

/-- at most one run, which does not end the element of that name if it is written as it is -/
def TextContent (name : Text) : List Node → Prop
  | [] => True
  | [.text run] =>
    run.text ≠ [] ∧ run.verbatim = isRaw name ∧
      (isRaw name = true → ¬ '<' :: '/' :: name <:+: Text.lower run.text)
  | _ => False

instance (name : Text) : DecidablePred (TextContent name)
  | [] => inferInstanceAs (Decidable True)
  | [.text _] => inferInstanceAs (Decidable (_ ∧ _ ∧ _))
  | .element .. :: _ | .fragment .. :: _ | .text _ :: _ :: _ => inferInstanceAs (Decidable False)

mutual
/-- a node that can be told apart from its neighbours as markup; a fragment is only a root -/
def Node.Printable : Node → Prop
  | .text run => run.text ≠ [] ∧ run.verbatim = false
  | .element name attributes children =>
    TagName name ∧ (∀ e ∈ attributes.entries, AttributeName e.1) ∧
      if isVoid name then children = []
      else if isRaw name || isPlain name then TextContent name children
      else Node.PrintableList children
  | .fragment _ _ => False
/-- nodes side by side, no two of them runs -/
def Node.PrintableList : List Node → Prop
  | [] => True
  | n :: ns =>
    n.Printable ∧ (n.isText = true → ∀ m ∈ ns.head?, m.isText = false) ∧ Node.PrintableList ns
end

def Fragment.Printable (f : Fragment) : Prop := Node.PrintableList f.children

mutual
def Node.decidePrintable : (n : Node) → Decidable n.Printable
  | .text _ => inferInstanceAs (Decidable (_ ∧ _))
  | .element _ _ children =>
    have := Node.decidePrintableList children
    inferInstanceAs (Decidable (_ ∧ _ ∧ ite _ _ _))
  | .fragment _ _ => inferInstanceAs (Decidable False)
def Node.decidePrintableList : (ns : List Node) → Decidable (Node.PrintableList ns)
  | [] => inferInstanceAs (Decidable True)
  | n :: ns =>
    have := n.decidePrintable
    have := Node.decidePrintableList ns
    inferInstanceAs (Decidable (_ ∧ _ ∧ _))
end

instance (f : Fragment) : Decidable f.Printable := Node.decidePrintableList f.children

/-! ## tokens of written nodes -/

mutual
def Node.tokens : Node → List Token
  | .text run => [.run run]
  | .element name attributes children =>
    if isVoid name then [.leaf name attributes]
    else .start name attributes :: (Node.tokensList children ++ [.stop name])
  | .fragment children _ => Node.tokensList children
def Node.tokensList : List Node → List Token
  | [] => []
  | n :: ns => n.tokens ++ Node.tokensList ns
end

/-- a text at whose front no run of characters goes on -/
def AtTag (s : Text) : Prop := ∀ c ∈ s.head?, c = '<'

theorem isText_elements {name : Text} (h : isVoid name = true) :
    isRaw name = false ∧ isPlain name = false := by
  have hall : ∀ name ∈ voidNames, isRaw name = false ∧ isPlain name = false := by decide
  exact hall name (List.contains_iff_mem.1 h)

theorem less_not_mem_escape (t : Text) : '<' ∉ Reference.escape Reference.textNames t :=
  Reference.not_mem_escape rfl (by decide) t

/-- a run of characters up to a tag -/
theorem tokens_text {t rest : Text} (ht : t ≠ []) (hrest : AtTag rest) :
    tokens (Reference.escape Reference.textNames t ++ rest) = .run ⟨t, false⟩ :: tokens rest := by
  have hless : ∀ c ∈ Reference.escape Reference.textNames t, Token.isLess c = false := by
    intro c hc
    rw [Token.isLess, beq_eq_false_iff_ne]
    rintro rfl
    exact less_not_mem_escape t hc
  have hcut : Text.upTo Token.isLess (Reference.escape Reference.textNames t ++ rest)
        = Reference.escape Reference.textNames t ∧
      Text.since Token.isLess (Reference.escape Reference.textNames t ++ rest) = rest := by
    cases rest with
    | nil =>
      rw [List.append_nil]
      exact ⟨Text.upTo_eq_self hless, Text.since_eq_nil hless⟩
    | cons c rest =>
      obtain rfl := hrest c rfl
      exact ⟨Text.upTo_append_cons hless rfl rest, Text.since_append_cons hless rfl rest⟩
  have hdecode := Reference.decode_escape Reference.textNames_valid t
  have hne : Reference.escape Reference.textNames t ≠ [] := Reference.escape_ne_nil ht
  obtain ⟨c, s, hcs⟩ := List.exists_cons_of_ne_nil hne
  rw [hcs] at hless hcut hdecode ⊢
  rw [List.cons_append] at hcut ⊢
  rw [tokens, Token.next, hless c List.mem_cons_self, if_neg Bool.false_ne_true, hcut.1, hcut.2,
    hdecode]
  rfl

theorem eq_of_toLower_eq_less {c : Char} (h : c.toLower = '<') : c = '<' := by
  revert h
  refine Text.toLower_cases (p := (· = '<' → c = '<')) ?_ fun _ => id
  rintro _ hd rfl
  cases hd

namespace TextContent
variable {name : Text} {children : List Node}

/-- a text element has no content, or one run -/
theorem cases (h : TextContent name children) :
    children = [] ∨ ∃ run : Run, children = [.text run] ∧ run.text ≠ [] ∧
      run.verbatim = isRaw name ∧
      (isRaw name = true → ¬ '<' :: '/' :: name <:+: Text.lower run.text) := by
  unfold TextContent at h
  split at h
  · exact .inl rfl
  · next run => exact .inr ⟨run, rfl, h⟩
  · exact h.elim

theorem contentRun (h : TextContent name children) :
    Token.contentRun name (Node.renderList children) = Node.tokensList children := by
  rcases h.cases with rfl | ⟨run, rfl, hne, hverbatim, -⟩
  · rfl
  · obtain ⟨t, verbatim⟩ := run
    obtain rfl : verbatim = isRaw name := hverbatim
    rw [Node.renderList, Node.renderList, List.append_nil, Node.render, Token.contentRun]
    cases isRaw name with
    | true =>
      simp only [if_true, List.isEmpty_eq_false_iff.2 hne]
      rfl
    | false =>
      simp only [Bool.false_eq_true, if_false,
        List.isEmpty_eq_false_iff.2 (Reference.escape_ne_nil hne),
        Reference.decode_escape Reference.textNames_valid]
      rfl

theorem not_infix (h : TextContent name children) :
    ¬ '<' :: '/' :: name <:+: Text.lower (Node.renderList children) := by
  rcases h.cases with rfl | ⟨run, rfl, -, hverbatim, hclose⟩
  · intro hinside
    cases List.infix_nil.1 hinside
  · rw [Node.renderList, Node.renderList, List.append_nil, Node.render, hverbatim]
    cases hraw : isRaw name with
    | true => exact hclose hraw
    | false =>
      intro hinside
      obtain ⟨c, hc, hless⟩ := List.mem_map.1 (hinside.subset List.mem_cons_self)
      rw [eq_of_toLower_eq_less hless] at hc
      exact less_not_mem_escape run.text hc

end TextContent

namespace Node

theorem atTag_renderList {ns : List Node} (h : PrintableList ns)
    (hfront : ∀ m ∈ ns.head?, m.isText = false) {rest : Text} (hrest : AtTag rest) :
    AtTag (renderList ns ++ rest) := by
  cases ns with
  | nil => exact hrest
  | cons n ns =>
    cases n with
    | text run => cases hfront _ rfl
    | element name attributes children =>
      intro c hc
      exact (Option.some.inj hc).symm
    | fragment children hasDoctype => exact h.1.elim

mutual
theorem tokens_render (n : Node) (h : n.Printable) (rest : Text)
    (hrest : n.isText = true → AtTag rest) :
    Html.tokens (n.render ++ rest) = n.tokens ++ Html.tokens rest := by
  cases n with
  | fragment children hasDoctype => exact h.elim
  | text run =>
    obtain ⟨hne, hverbatim⟩ := h
    obtain ⟨t, verbatim⟩ := run
    obtain rfl : verbatim = false := hverbatim
    exact tokens_text hne (hrest rfl)
  | element name attributes children =>
    obtain ⟨hname, hattributes, hchildren⟩ := h
    have htag := StartTag.opens_attributesText hattributes
    rw [render, tokens]
    cases hvoid : isVoid name with
    | true =>
      obtain ⟨hraw, hplain⟩ := isText_elements hvoid
      have hstart := tokens_start hname htag hraw hplain rest
      rw [hvoid] at hstart
      simpa using hstart
    | false =>
      rw [hvoid, if_neg Bool.false_ne_true] at hchildren
      cases htext : isRaw name || isPlain name with
      | true =>
        rw [htext, if_pos rfl] at hchildren
        have hcontent := tokens_element hname hvoid htext hname.lower htag
          (renderList children ++ '<' :: '/' :: (name ++ '>' :: rest))
        have hpast : Text.past Token.isGreater ('<' :: '/' :: (name ++ '>' :: rest)) = rest :=
          @past_close name name [] hname hname.lower List.not_mem_nil rest
        rw [content_close hname hchildren.not_infix hname.lower, hpast,
          hchildren.contentRun] at hcontent
        simpa using hcontent
      | false =>
        rw [htext, if_neg Bool.false_ne_true] at hchildren
        obtain ⟨hraw, hplain⟩ := Bool.or_eq_false_iff.1 htext
        have hstart := tokens_start hname htag hraw hplain
          (renderList children ++ '<' :: '/' :: (name ++ '>' :: rest))
        have hbelow := tokens_renderList children hchildren
          ('<' :: '/' :: (name ++ '>' :: rest)) (fun c hc => (Option.some.inj hc).symm)
        rw [hbelow, tokens_stop hname, hvoid] at hstart
        simpa using hstart
theorem tokens_renderList (ns : List Node) (h : PrintableList ns) (rest : Text)
    (hrest : AtTag rest) :
    Html.tokens (renderList ns ++ rest) = tokensList ns ++ Html.tokens rest := by
  cases ns with
  | nil => rfl
  | cons n ns =>
    obtain ⟨hn, hnext, hns⟩ := h
    rw [renderList, List.append_assoc, tokens_render n hn, tokens_renderList ns hns rest hrest,
      tokensList, List.append_assoc]
    exact fun htext => atTag_renderList hns (hnext htext) hrest
end

end Node

/-! ## the tree of the tokens -/

theorem addRun_eq_cons {ns : List Node} (h : ∀ m ∈ ns.head?, m.isText = false) (run : Run) :
    addRun run ns = .text run :: ns := by
  unfold addRun
  split
  · cases h _ rfl
  · rfl

namespace Builder

/-- the children of the innermost open element, newest first -/
def siblings (b : Builder) : List Node :=
  match b.frames with
  | [] => b.root
  | top :: _ => top.children

theorem siblings_modify (b : Builder) (f : List Node → List Node) :
    (b.modify f).siblings = f b.siblings := by
  unfold modify siblings
  cases b.frames <;> rfl

theorem modify_modify (b : Builder) (f g : List Node → List Node) :
    (b.modify f).modify g = b.modify (g ∘ f) := by
  unfold modify
  cases b.frames <;> rfl

theorem modify_congr {b : Builder} {f g : List Node → List Node}
    (h : f b.siblings = g b.siblings) : b.modify f = b.modify g := by
  obtain ⟨root, frames, hasDoctype⟩ := b
  cases frames with
  | nil => exact congrArg (Builder.mk · [] hasDoctype) h
  | cons top fs =>
    exact congrArg (fun ns => Builder.mk root (⟨top.name, top.attributes, ns⟩ :: fs) hasDoctype) h

theorem modify_self (b : Builder) : b.modify (fun ns => ns) = b := by
  obtain ⟨root, frames, hasDoctype⟩ := b
  cases frames <;> rfl

/-- a run that meets no other run becomes a node -/
theorem step_run {b : Builder} (h : ∀ m ∈ b.siblings.head?, m.isText = false) (run : Run) :
    b.step (.run run) = b.add (.text run) :=
  modify_congr (addRun_eq_cons h run)

/-- an element around nodes that the builder makes of their tokens -/
theorem foldl_element {b : Builder} (name : Text) (attributes : Attributes) {children : List Node}
    (h : ∀ b' : Builder, b'.siblings = [] →
      (Node.tokensList children).foldl step b' = b'.modify (children.reverse ++ ·)) :
    (.start name attributes :: (Node.tokensList children ++ [.stop name])).foldl step b
      = b.add (.element name attributes children) := by
  rw [List.foldl_cons, List.foldl_append, h _ rfl]
  simp [step, close, modify, popN, pop, Frame.node, List.findIdx?_cons]

end Builder

theorem TextContent.foldl_tokensList {name : Text} {children : List Node}
    (h : TextContent name children) {b : Builder} (hb : b.siblings = []) :
    (Node.tokensList children).foldl Builder.step b = b.modify (children.reverse ++ ·) := by
  rcases h.cases with rfl | ⟨run, rfl, -⟩
  · exact b.modify_self.symm
  · exact Builder.step_run (by simp [hb]) run

namespace Node
open Builder

mutual
theorem foldl_tokens (n : Node) (h : n.Printable) (b : Builder)
    (hb : n.isText = true → ∀ m ∈ b.siblings.head?, m.isText = false) :
    n.tokens.foldl step b = b.add n := by
  cases n with
  | fragment children hasDoctype => exact h.elim
  | text run => exact step_run (hb rfl) run
  | element name attributes children =>
    obtain ⟨-, -, hchildren⟩ := h
    rw [tokens]
    cases hvoid : isVoid name with
    | true =>
      rw [hvoid, if_pos rfl] at hchildren
      rw [if_pos rfl, hchildren]
      rfl
    | false =>
      rw [hvoid, if_neg Bool.false_ne_true] at hchildren
      rw [if_neg Bool.false_ne_true]
      refine foldl_element name attributes fun b' hb' => ?_
      cases htext : isRaw name || isPlain name with
      | true =>
        rw [htext, if_pos rfl] at hchildren
        exact hchildren.foldl_tokensList hb'
      | false =>
        rw [htext, if_neg Bool.false_ne_true] at hchildren
        exact foldl_tokensList children hchildren b' (by simp [hb'])
theorem foldl_tokensList (ns : List Node) (h : PrintableList ns) (b : Builder)
    (hb : ∀ n ∈ ns.head?, n.isText = true → ∀ m ∈ b.siblings.head?, m.isText = false) :
    (tokensList ns).foldl step b = b.modify (ns.reverse ++ ·) := by
  cases ns with
  | nil => exact b.modify_self.symm
  | cons n ns =>
    obtain ⟨hn, hnext, hns⟩ := h
    have hsiblings : (b.add n).siblings = n :: b.siblings := siblings_modify b _
    rw [tokensList, List.foldl_append, foldl_tokens n hn b (hb n rfl),
      foldl_tokensList ns hns (b.add n), add, modify_modify, List.reverse_cons]
    · simp [Function.comp_def]
    · rw [hsiblings]
      intro k hk htext m hm
      obtain rfl := Option.some.inj hm
      cases hfirst : n.isText with
      | false => rfl
      | true => exact htext.symm.trans (hnext hfirst k hk)
end

end Node

/-- a written fragment is read back -/
theorem Fragment.ofText_render (f : Fragment) (h : f.Printable) : Fragment.ofText f.render = f := by
  obtain ⟨children, hasDoctype⟩ := f
  have htokens := Node.tokens_renderList children h [] (fun c hc => by cases hc)
  rw [List.append_nil, tokens, List.append_nil] at htokens
  have hbuild := fun b : Builder => Node.foldl_tokensList children h b
  rw [Fragment.ofText, Fragment.render]
  cases hasDoctype with
  | true =>
    rw [if_pos rfl, tokens_doctype, htokens, List.foldl_cons,
      hbuild _ (fun _ _ _ m hm => by cases hm)]
    simp [Builder.step, Builder.empty, Builder.modify, Builder.finish, Builder.popN]
  | false =>
    rw [if_neg Bool.false_ne_true, List.nil_append, htokens,
      hbuild _ (fun _ _ _ m hm => by cases hm)]
    simp [Builder.empty, Builder.modify, Builder.finish, Builder.popN]

/-- a page with attributes that need quotes, text elements and nested elements of one name -/
def samplePage : Fragment where
  hasDoctype := true
  children :=
    [.element "div".toList
      (.ofList [("title".toList, "\"a\" > 'b' & <i>".toList), ("@x".toList, [])])
      [.element "div".toList .empty
          [.text ⟨"1 < 2 &amp; ".toList, false⟩, .element "br".toList .empty []],
        .element "script".toList .empty [.text ⟨"a < '</s' && b".toList, true⟩],
        .element "title".toList .empty [.text ⟨"</title>".toList, false⟩],
        .element "style".toList .empty []]]

theorem Fragment.ofText_render_sample :
    samplePage.Printable ∧ Fragment.ofText samplePage.render = samplePage :=
  ⟨by decide +kernel, Fragment.ofText_render samplePage (by decide +kernel)⟩

end PageTemplates.Html
