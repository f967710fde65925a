import PageTemplates.Proofs.ReadMarkup

/-!
# Text elements and what follows them

The content of a text element is one run, up to the first `</` with the name of the element.  What
stands behind its end tag is read as if it stood alone: the builder has an element behind it that
nothing joins (`Builder.behind`), and no step looks at such nodes.

* `Builder.foldl_step_behind`    tokens in front of finished nodes;
* `Fragment.ofText_cons`         a source that starts with a whole element;
* `Fragment.ofText_content`      a source that starts with a text element;
* `Token.contentNodes_ne`        contents that are told apart in the tree;
* `Fragment.ofText_textElement`  what the content of a text element may be.
-/

namespace PageTemplates.Html

/-! ## building in front of finished nodes -/

theorem addRun_append {done : List Node} (h : ∀ n ∈ done.head?, n.isText = false) (run : Run)
    (ns : List Node) : addRun run (ns ++ done) = addRun run ns ++ done := by
  cases ns with
  | nil => exact addRun_eq_cons h run
  | cons n ns =>
    cases n with
    | text last =>
      rw [List.cons_append, addRun, addRun]
      split <;> rfl
    | element name attributes children => rfl
    | fragment children hasDoctype => rfl

namespace Builder

/-- a builder with older nodes outside of every open element -/
def behind (b : Builder) (done : List Node) : Builder := { b with root := b.root ++ done }

section
variable {done : List Node}

theorem modify_behind (b : Builder) {f : List Node → List Node}
    (hf : ∀ ns, f (ns ++ done) = f ns ++ done) :
    (b.behind done).modify f = (b.modify f).behind done := by
  obtain ⟨root, frames, hasDoctype⟩ := b
  cases frames with
  | nil => exact congrArg (Builder.mk · [] hasDoctype) (hf root)
  | cons top fs => rfl

theorem pop_behind (b : Builder) : (b.behind done).pop = b.pop.behind done := by
  obtain ⟨root, frames, hasDoctype⟩ := b
  cases frames with
  | nil => rfl
  | cons top fs => exact modify_behind ⟨root, fs, hasDoctype⟩ fun _ => rfl

theorem popN_behind (b : Builder) (n : Nat) : (b.behind done).popN n = (b.popN n).behind done := by
  induction n generalizing b with
  | zero => rfl
  | succ n ih =>
    rw [popN, pop_behind, ih]
    rfl

theorem close_behind (b : Builder) (name : Text) :
    (b.behind done).close name = (b.close name).behind done := by
  have hframes : (b.behind done).frames = b.frames := rfl
  unfold close
  rw [hframes]
  split
  · rfl
  · exact b.popN_behind _

theorem finish_behind (b : Builder) :
    (b.behind done).finish = ⟨done.reverse ++ b.finish.children, b.finish.hasDoctype⟩ := by
  have hframes : (b.behind done).frames = b.frames := rfl
  have hclosed : (b.behind done).popN b.frames.length = (b.popN b.frames.length).behind done :=
    b.popN_behind _
  unfold finish
  rw [hframes, hclosed]
  simp [behind]

variable (h : ∀ n ∈ done.head?, n.isText = false)
include h

theorem step_behind (b : Builder) (t : Token) :
    (b.behind done).step t = (b.step t).behind done := by
  cases t with
  | run run => exact b.modify_behind (addRun_append h run)
  | start name attributes => rfl
  | leaf name attributes => exact b.modify_behind fun _ => rfl
  | stop name => exact b.close_behind name
  | doctype => rfl

theorem foldl_step_behind (b : Builder) (ts : List Token) :
    ts.foldl step (b.behind done) = (ts.foldl step b).behind done := by
  induction ts generalizing b with
  | nil => rfl
  | cons t ts ih => rw [List.foldl_cons, List.foldl_cons, step_behind h, ih]

end

end Builder

/-- what follows an element is read as if it stood alone -/
theorem Fragment.ofText_cons {source rest : Text} {ts : List Token} {n : Node}
    (htokens : tokens source = ts ++ tokens rest)
    (hbuild : ts.foldl Builder.step .empty = .add .empty n) (hn : n.isText = false) :
    Fragment.ofText source
      = ⟨n :: (Fragment.ofText rest).children, (Fragment.ofText rest).hasDoctype⟩ := by
  have hdone : ∀ m ∈ [n].head?, m.isText = false := by
    intro m hm
    obtain rfl := Option.some.inj hm
    exact hn
  have hbehind : Builder.add .empty n = Builder.empty.behind [n] := rfl
  rw [Fragment.ofText, htokens, List.foldl_append, hbuild, hbehind,
    Builder.foldl_step_behind hdone, Builder.finish_behind]
  rfl

/-! ## text elements -/

theorem textElement_name {name : Text} (h : (isRaw name || isPlain name) = true) :
    TagName name ∧ isVoid name = false := by
  have hall : ∀ name ∈ rawNames ++ plainNames, TagName name ∧ isVoid name = false := by decide
  refine hall name (List.mem_append.2 ?_)
  rcases Bool.or_eq_true_iff.1 h with hraw | hplain
  · exact .inl (List.contains_iff_mem.1 hraw)
  · exact .inr (List.contains_iff_mem.1 hplain)

/-- a text element, whatever follows its start tag -/
theorem Fragment.ofText_content {name start tag : Text} {m : Attributes}
    (htext : (isRaw name || isPlain name) = true) (hstart : Text.lower start = name)
    (htag : StartTag.Opens tag m) (s : Text) :
    Fragment.ofText ('<' :: (start ++ (tag ++ s)))
      = ⟨.element name m (Token.contentNodes name (Token.content name s).1)
          :: (Fragment.ofText (Text.past Token.isGreater (Token.content name s).2)).children,
          (Fragment.ofText (Text.past Token.isGreater (Token.content name s).2)).hasDoctype⟩ := by
  obtain ⟨hname, hvoid⟩ := textElement_name htext
  have htokens := tokens_element hname hvoid htext hstart htag s
  rw [Token.contentRun_eq, List.append_cons _ (Token.stop name)] at htokens
  refine Fragment.ofText_cons htokens ?_ rfl
  exact Builder.foldl_element name m fun b hb =>
    (Token.textContent_contentNodes (Token.not_infix_content name s)).foldl_tokensList hb

/-- the first end tag of the name cuts the content -/
theorem Token.exists_content {name t : Text} (h : '<' :: '/' :: name <:+: Text.lower t)
    (r : Text) : ∃ front back, t = front ++ '<' :: back ∧ (content name (t ++ r)).1 = front := by
  obtain ⟨i, hi⟩ := Option.ne_none_iff_exists'.1 fun hnone => Text.not_infix_of_find? hnone h
  have hfind : Text.find? ('<' :: '/' :: name) (Text.lower (t ++ r)) = some i := by
    rw [Text.lower, List.map_append]
    exact Text.find?_append hi _
  obtain ⟨hlength, rest, hdrop⟩ := Text.find?_spec hi
  rw [Text.length_lower] at hlength
  have hmap : (t.drop i).map Char.toLower = '<' :: ('/' :: name ++ rest) :=
    List.map_drop.trans hdrop.symm
  obtain ⟨c, back, hback, hc, -⟩ := List.map_eq_cons_iff.1 hmap
  rw [eq_of_toLower_eq_less hc] at hback
  refine ⟨t.take i, back, ?_, ?_⟩
  · rw [← hback, List.take_append_drop]
  · simp only [content, hfind, Option.getD_some]
    exact List.take_append_of_le_length hlength

/-- no two contents make the same nodes if one goes on with a `<` behind the other -/
theorem Token.contentNodes_ne (name front back : Text) :
    contentNodes name front ≠ contentNodes name (front ++ '<' :: back) := by
  have hlong : (front ++ '<' :: back).isEmpty = false := by simp
  have hdecode : Reference.decode front ≠ Reference.decode (front ++ '<' :: back) := by
    rw [Reference.decode_append_less]
    simpa using decode_ne_nil (List.cons_ne_nil '<' back)
  unfold contentNodes
  rw [hlong]
  cases front.isEmpty <;> cases isRaw name <;> simp [hdecode]

/-- **A text element and what follows it.**  In front of its end tag, which may go on behind the
name of the element up to the next `>`, a text is the content of a `script`, `style`, `textarea` or
`title` element if and only if it has no `</` with that name in it, in whatever case and whatever
follows the name.  The element then has the content as its only child, verbatim or with its
references decoded, and no child if it is empty; all behind the end tag is read as if it stood
alone. -/
theorem Fragment.ofText_textElement {name start tag stop tail : Text} {m : Attributes}
    (htext : (isRaw name || isPlain name) = true) (hstart : Text.lower start = name)
    (htag : StartTag.Opens tag m) (hstop : Text.lower stop = name) (htail : '>' ∉ tail)
    (content rest : Text) :
    Fragment.ofText
        ('<' :: (start ++ (tag ++ (content ++ '<' :: '/' :: (stop ++ (tail ++ '>' :: rest))))))
      = ⟨.element name m (Token.contentNodes name content) :: (Fragment.ofText rest).children,
          (Fragment.ofText rest).hasDoctype⟩ ↔
      ¬ '<' :: '/' :: name <:+: Text.lower content := by
  have hname := (textElement_name htext).1
  rw [Fragment.ofText_content htext hstart htag]
  constructor
  · intro hread hinfix
    obtain ⟨front, back, hsplit, hfront⟩ :=
      Token.exists_content hinfix ('<' :: '/' :: (stop ++ (tail ++ '>' :: rest)))
    have hnodes := (Node.element.inj (List.cons.inj (Fragment.mk.inj hread).1).1).2.2
    rw [hfront, hsplit] at hnodes
    exact Token.contentNodes_ne name front back hnodes
  · intro hcontent
    rw [content_close hname hcontent hstop, past_close hname hstop htail]

/-- the attributes of `<STYLE Media='&lt;'` -/
def mediaSpelling : List Spelling := [⟨[' '], "Media".toList, .quoted [] [] '\'' "&lt;".toList⟩]

/-- names in mixed case, other markup in the content, and an end tag that goes on behind its name -/
def mediaSource : Text :=
  "<STYLE Media='&lt;'\n>a > b </styl> <!-- </b> &lt; é</Styled x>c&gt;<b>d</style>".toList

theorem Fragment.ofText_textElement_mixed :
    Fragment.ofText mediaSource
      = ⟨.element "style".toList (.ofList [("media".toList, "<".toList)])
            [.text ⟨"a > b </styl> <!-- </b> &lt; é".toList, true⟩]
          :: (Fragment.ofText "c&gt;<b>d</style>".toList).children,
          (Fragment.ofText "c&gt;<b>d</style>".toList).hasDoctype⟩ := by
  have hstart : Text.lower "STYLE".toList = "style".toList := by decide
  have htag : StartTag.Opens (StartTag.tagText mediaSpelling ['\n'] false)
      (.ofList (mediaSpelling.map Spelling.entry)) :=
    StartTag.opens_tagText (by decide) ⟨rfl, nofun⟩
  have hcontent : ¬ '<' :: '/' :: "style".toList
      <:+: Text.lower "a > b </styl> <!-- </b> &lt; é".toList := by decide
  have hstop : Text.lower "Style".toList = "style".toList := by decide
  have htail : '>' ∉ "d x".toList := by decide
  have hmedia : mediaSpelling.map Spelling.entry = [("media".toList, "<".toList)] := by
    decide +kernel
  have hsource : mediaSource = '<' :: ("STYLE".toList
      ++ (StartTag.tagText mediaSpelling ['\n'] false
        ++ ("a > b </styl> <!-- </b> &lt; é".toList ++ '<' :: '/' :: ("Style".toList
          ++ ("d x".toList ++ '>' :: "c&gt;<b>d</style>".toList))))) := by decide
  rw [hmedia] at htag
  rw [hsource, (Fragment.ofText_textElement rfl hstart htag hstop htail _ _).2 hcontent]
  rfl

/-- whether an end tag may have ended its name in front of a text -/
def nameEnds : Text → Bool
  | [] => true
  | c :: _ => asciiBlank c || c == '/' || c == '>'

/-- whether an end tag of exactly that name stands in a text, in whatever case -/
def closes (name content : Text) : Bool :=
  (Text.lower content).tails.any fun s =>
    ('<' :: '/' :: name).isPrefixOf s && nameEnds (s.drop (name.length + 2))

/-- an end tag of a longer name ends the content as well -/
theorem Fragment.ofText_textElement_longer :
    ¬ ∀ name content rest : Text, (isRaw name || isPlain name) = true →
      closes name content = false →
        Fragment.ofText ('<' :: (name ++ '>' :: (content ++ '<' :: '/' :: (name ++ '>' :: rest))))
          = ⟨.element name .empty (Token.contentNodes name content)
              :: (Fragment.ofText rest).children, (Fragment.ofText rest).hasDoctype⟩ := by
  intro hexact
  have hcloses : closes "style".toList "</styled>".toList = false := by decide
  have hread := congrArg Fragment.render
    (hexact "style".toList "</styled>".toList [] (by decide) hcloses)
  revert hread
  decide +kernel

end PageTemplates.Html
