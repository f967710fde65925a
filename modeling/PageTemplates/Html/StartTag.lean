import PageTemplates.Html.Node
import PageTemplates.Html.Reference

/-!
# Start tags

What stands between the name of a start tag and its end.  Attributes are written as a bare name,
as `name=value` with a value up to the next blank or `>`, or with a value in quotes of either
kind.  Anything else between attributes is passed over; a quote there that is never closed takes
the rest of the source with it, and the tag then never ends.
-/

namespace PageTemplates.Html

structure StartTag where
  attributes : Attributes
  selfClosing : Bool
  /-- what follows the tag -/
  rest : Text

namespace StartTag

/-- a character of an attribute name -/
def nameChar (c : Char) : Bool :=
  !(asciiBlank c || c == '"' || c == '\'' || c == '=' || c == '<' || c == '>' || c == '/'
    || c == '\x60')

def isQuote (q c : Char) : Bool := c == q

/-- where a value without quotes ends -/
def valueEnd (c : Char) : Bool := asciiBlank c || c == '>'

/-- an attribute value in front of a text, and what follows it -/
def value : Text → Text × Text
  | '"' :: s => (Text.upTo (isQuote '"') s, Text.past (isQuote '"') s)
  | '\'' :: s => (Text.upTo (isQuote '\'') s, Text.past (isQuote '\'') s)
  | s => (Text.upTo valueEnd s, Text.since valueEnd s)

theorem length_value_le (s : Text) : (value s).2.length ≤ s.length := by
  unfold value
  split
  · exact Nat.le_succ_of_le (Text.length_past_le _ _)
  · exact Nat.le_succ_of_le (Text.length_past_le _ _)
  · exact Text.length_since_le _ _

/-- a name without a value is an attribute with an empty value -/
def settle (attributes : Attributes) : Option Text → Attributes
  | none => attributes
  | some name => attributes.insert name []

/-- `pending` is a name that has been read and may still get a value -/
def scan (attributes : Attributes) (pending : Option Text) : Text → StartTag
  | [] => ⟨settle attributes pending, false, []⟩
  | '>' :: s => ⟨settle attributes pending, false, s⟩
  | '/' :: '>' :: s => ⟨settle attributes pending, true, s⟩
  | '=' :: s =>
    match pending with
    | none => scan attributes none s
    | some name =>
      let v := value (s.dropWhile asciiBlank)
      scan (attributes.insert name (Reference.decode v.1)) none v.2
  | '"' :: s => scan attributes pending (Text.past (isQuote '"') s)
  | '\'' :: s => scan attributes pending (Text.past (isQuote '\'') s)
  | c :: s =>
    if nameChar c then
      scan (settle attributes pending) (some (Text.lower (c :: s.takeWhile nameChar)))
        (s.dropWhile nameChar)
    else scan attributes pending s
termination_by s => s.length
decreasing_by
  all_goals simp only [List.length_cons]
  · omega
  · have h1 := length_value_le (s.dropWhile asciiBlank)
    have h2 := (List.dropWhile_sublist (l := s) asciiBlank).length_le
    omega
  · have := Text.length_past_le (isQuote '"') s
    omega
  · have := Text.length_past_le (isQuote '\'') s
    omega
  · have := (List.dropWhile_sublist (l := s) nameChar).length_le
    omega
  · omega

/-- the start tag whose name stands directly before `s` -/
def ofText (s : Text) : StartTag := scan .empty none s

theorem length_scan_le (attributes : Attributes) (pending : Option Text) (s : Text) :
    (scan attributes pending s).rest.length ≤ s.length := by
  fun_induction scan attributes pending s with
  | case1 => simp
  | case2 => simp
  | case3 => simp only [List.length_cons]; omega
  | case4 => simp only [List.length_cons]; omega
  | case5 _ s _ v ih =>
    have h1 : v.2.length ≤ _ := length_value_le (s.dropWhile asciiBlank)
    have h2 := (List.dropWhile_sublist (l := s) asciiBlank).length_le
    simp only [List.length_cons]
    omega
  | case6 _ _ s ih =>
    have := Text.length_past_le (isQuote '"') s
    simp only [List.length_cons]
    omega
  | case7 _ _ s ih =>
    have := Text.length_past_le (isQuote '\'') s
    simp only [List.length_cons]
    omega
  | case8 _ _ c s _ _ _ _ _ _ ih =>
    have := (List.dropWhile_sublist (l := s) nameChar).length_le
    simp only [List.length_cons]
    omega
  | case9 => simp only [List.length_cons]; omega

end StartTag

end PageTemplates.Html
