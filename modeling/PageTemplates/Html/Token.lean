import PageTemplates.Html.Names
import PageTemplates.Html.StartTag

/-!
# Tokens of a markup source

`tokens` cuts a source into start tags, end tags and runs of text.  Comments and declarations are
dropped, apart from the fact that a declaration is a doctype.  The content of `script`, `style`,
`textarea` and `title` is one run of text; their end tag follows it at once, also where the
source has none.
-/

namespace PageTemplates.Html

inductive Token where
  | run (run : Run)
  /-- a start tag of an element that may have children -/
  | start (name : Text) (attributes : Attributes)
  /-- a start tag of an element without children -/
  | leaf (name : Text) (attributes : Attributes)
  | stop (name : Text)
  | doctype

namespace Token

/-- a character of an element name -/
def nameChar (c : Char) : Bool := c.isAlphanum || c == '-' || c == '_' || c == ':' || c == '.'

def isLess (c : Char) : Bool := c == '<'
def isGreater (c : Char) : Bool := c == '>'

/-- the element name in front of a text, in lower case -/
def nameOf (s : Text) : Text := Text.lower (s.takeWhile nameChar)

def plain (t : Text) : Token := .run ⟨t, false⟩
def verbatim (t : Text) : Token := .run ⟨t, true⟩

/-- what follows the comment whose `<!--` stands before `s` -/
def pastComment (s : Text) : Text :=
  match Text.find? "-->".toList s with
  | none => []
  | some i => s.drop (i + 3)

/-- whether the declaration in front of a text is a doctype -/
def isDoctype (s : Text) : Bool :=
  "doctype".toList.isPrefixOf (Text.lower (Text.trimStart (Text.upTo isGreater s)))

/-- the content of a text element up to its end tag, and the end tag with what follows it -/
def content (name s : Text) : Text × Text :=
  let i := (Text.find? ('<' :: '/' :: name) (Text.lower s)).getD s.length
  (s.take i, s.drop i)

/-- the run that the content of a text element makes -/
def contentRun (name t : Text) : List Token :=
  if t.isEmpty then [] else [if isRaw name then verbatim t else plain (Reference.decode t)]

/-- the tokens that a start tag brings, and what follows them; its `<` stands before `s` -/
def element (s : Text) : List Token × Text :=
  let name := nameOf s
  let tag := StartTag.ofText (s.dropWhile nameChar)
  if tag.selfClosing || isVoid name then ([.leaf name tag.attributes], tag.rest)
  else if isRaw name || isPlain name then
    let c := content name tag.rest
    (.start name tag.attributes :: contentRun name c.1 ++ [.stop name], Text.past isGreater c.2)
  else ([.start name tag.attributes], tag.rest)

/-- the tokens that a `<` with `s` after it brings, and what follows them -/
def markup : Text → List Token × Text
  | '!' :: '-' :: '-' :: s => ([], pastComment s)
  | '!' :: s => (if isDoctype s then [.doctype] else [], Text.past isGreater s)
  | '?' :: s => (if isDoctype s then [.doctype] else [], Text.past isGreater s)
  | '/' :: s => (if (nameOf s).isEmpty then [] else [.stop (nameOf s)], Text.past isGreater s)
  | [] => ([plain ['<']], [])
  | c :: s => if c.isAlpha then element (c :: s) else ([plain ['<']], c :: s)

/-- the tokens at the front of a text that starts with `c`, and what follows them -/
def next (c : Char) (s : Text) : List Token × Text :=
  if isLess c then markup s
  else ([plain (Reference.decode (Text.upTo isLess (c :: s)))], Text.since isLess (c :: s))

theorem length_pastComment_le (s : Text) : (pastComment s).length ≤ s.length := by
  unfold pastComment
  split
  · simp
  · rw [List.length_drop]; omega

theorem length_element_le (s : Text) : (element s).2.length ≤ s.length := by
  have h1 : (StartTag.ofText (s.dropWhile nameChar)).rest.length ≤ s.length :=
    Nat.le_trans (StartTag.length_scan_le _ _ _) (List.dropWhile_sublist _).length_le
  unfold element
  simp only
  split
  · exact h1
  · split
    · have h2 := Text.length_past_le isGreater
        (content (nameOf s) (StartTag.ofText (s.dropWhile nameChar)).rest).2
      have h3 : (content (nameOf s) (StartTag.ofText (s.dropWhile nameChar)).rest).2.length
          ≤ (StartTag.ofText (s.dropWhile nameChar)).rest.length := by
        rw [content, List.length_drop]
        omega
      exact Nat.le_trans h2 (Nat.le_trans h3 h1)
    · exact h1

theorem length_markup_le (s : Text) : (markup s).2.length ≤ s.length := by
  unfold markup
  split
  · next s =>
    have := length_pastComment_le s
    simp only [List.length_cons]
    omega
  · next s _ =>
    have := Text.length_past_le isGreater s
    simp only [List.length_cons]
    omega
  · next s =>
    have := Text.length_past_le isGreater s
    simp only [List.length_cons]
    omega
  · next s =>
    have := Text.length_past_le isGreater s
    simp only [List.length_cons]
    omega
  · simp
  · split
    · exact length_element_le _
    · simp

theorem length_next_le (c : Char) (s : Text) : (next c s).2.length ≤ s.length := by
  unfold next
  split
  · exact length_markup_le s
  · next hc =>
    have hc' : isLess c = false := by simpa using hc
    simpa [Text.since, List.dropWhile_cons, hc'] using Text.length_since_le isLess s

end Token

def tokens : Text → List Token
  | [] => []
  | c :: s => (Token.next c s).1 ++ tokens (Token.next c s).2
termination_by s => s.length
decreasing_by
  have := Token.length_next_le c s
  simp only [List.length_cons]
  omega

end PageTemplates.Html
