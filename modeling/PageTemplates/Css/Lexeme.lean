import PageTemplates.Text.Basic

/-!
# Lexemes of CSS text

A text is cut into strings, comments, escaped characters and single characters.  A string ends
at its quote, at the end of the line or at the end of the text; a comment that is never closed
runs to the end.  Nothing is lost: the texts of the lexemes in order are the text
(`text_lexemes`).
-/

namespace PageTemplates.Css

inductive Lexeme where
  | char (c : Char)
  /-- a backslash and the character after it; no character at the end of the text -/
  | escape (c : Option Char)
  /-- a string with its quotes -/
  | string (t : Text)
  /-- a comment with its marks -/
  | comment (t : Text)
deriving DecidableEq

namespace Lexeme

def text : Lexeme → Text
  | .char c => [c]
  | .escape c => '\\' :: c.toList
  | .string t => t
  | .comment t => t

/-- a string after its opening quote, and what follows it -/
def stringBody (quote : Char) : Text → Text × Text
  | [] => ([], [])
  | '\\' :: c :: s => ('\\' :: c :: (stringBody quote s).1, (stringBody quote s).2)
  | c :: s =>
    if c = quote ∨ c = '\n' then ([c], s)
    else (c :: (stringBody quote s).1, (stringBody quote s).2)

/-- a comment after its opening mark, and what follows it -/
def commentBody (s : Text) : Text × Text :=
  match Text.find? "*/".toList s with
  | none => (s, [])
  | some i => (s.take (i + 2), s.drop (i + 2))

/-- the lexeme at the front of a text that starts with `c`, and what follows it -/
def next (c : Char) (s : Text) : Lexeme × Text :=
  if c = '"' ∨ c = '\'' then (.string (c :: (stringBody c s).1), (stringBody c s).2)
  else if c = '\\' then (.escape s.head?, s.drop 1)
  else
    match c, s with
    | '/', '*' :: r => (.comment ('/' :: '*' :: (commentBody r).1), (commentBody r).2)
    | c, s => (.char c, s)

theorem stringBody_append (quote : Char) (s : Text) :
    (stringBody quote s).1 ++ (stringBody quote s).2 = s := by
  fun_induction stringBody quote s with
  | case1 => rfl
  | case2 c s ih => simp [ih]
  | case3 c s _ h => simp
  | case4 c s _ h ih => simp [ih]

theorem commentBody_append (s : Text) : (commentBody s).1 ++ (commentBody s).2 = s := by
  unfold commentBody
  split <;> simp

theorem next_append (c : Char) (s : Text) : (next c s).1.text ++ (next c s).2 = c :: s := by
  unfold next
  split
  · simp [text, stringBody_append]
  · split
    · next h => cases s <;> simp [text, h]
    · split
      · simp [text, commentBody_append]
      · simp [text]

theorem length_next_le (c : Char) (s : Text) : (next c s).2.length ≤ s.length := by
  have h1 : 1 ≤ (next c s).1.text.length := by
    unfold next
    split
    · simp [text]
    · split
      · simp [text]
      · split <;> simp [text]
  have h2 := congrArg List.length (next_append c s)
  rw [List.length_append, List.length_cons] at h2
  omega

/-- the texts of lexemes, one after another -/
def texts (ls : List Lexeme) : Text := ls.flatMap text

/-- the bytes of lexemes -/
def bytesOf (ls : List Lexeme) : Nat := Text.bytes (texts ls)

end Lexeme

def lexemes : Text → List Lexeme
  | [] => []
  | c :: s => (Lexeme.next c s).1 :: lexemes (Lexeme.next c s).2
termination_by s => s.length
decreasing_by
  have := Lexeme.length_next_le c s
  simp only [List.length_cons]
  omega

theorem text_lexemes (s : Text) : Lexeme.texts (lexemes s) = s := by
  fun_induction lexemes s with
  | case1 => rfl
  | case2 c s ih =>
    rw [Lexeme.texts, List.flatMap_cons]
    rw [Lexeme.texts] at ih
    rw [ih, Lexeme.next_append]

end PageTemplates.Css
