import PageTemplates.Text.Alphanumeric
import PageTemplates.Css.Node
import PageTemplates.Css.Scan

/-!
# Reading stylesheets

`statement` reads one rule, at-rule or stray character off the front of the lexemes, and `rules`
all of them.  The block of an at-rule holds rules when an opening brace stands in it, and
declarations otherwise; the rules in it are read by the same functions from the lexemes of the
block alone.

A fault is first counted from the end of the source (`left` bytes lie behind it), which stays the
same however deep the block is in which it was found; `tail` is the number of bytes of the source
behind the lexemes in hand.  `parse` turns the counts into offsets.
-/

namespace PageTemplates.Css

/-- what can be wrong with a stylesheet; `other` is for parsers of another make -/
inductive Cause where
  | strayBrace
  | missingName
  | unclosedAtBlock (name : Text)
  | unterminatedAt (name : Text)
  | unclosedBlock (selector : Text)
  | missingBlock (selector : Text)
  | unexpectedEnd (selector : Text)
  | other (message : Text)
deriving DecidableEq

def Cause.message : Cause → String
  | .strayBrace => "unexpected `\x7d`"
  | .missingName => "expected an at-rule name after `@`"
  | .unclosedAtBlock name => s!"unclosed block in `@{str name}`"
  | .unterminatedAt name => s!"unterminated `@{str name}` rule"
  | .unclosedBlock selector => s!"unclosed block for `{str selector}`"
  | .missingBlock selector => s!"expected `\x7b` after `{str selector}`"
  | .unexpectedEnd selector => s!"unexpected end of input after `{str selector}`"
  | .other message => str message

structure Fault where
  cause : Cause
  /-- the byte offset in the source -/
  offset : Nat
deriving DecidableEq

def Fault.message (f : Fault) : String := s!"{f.cause.message} (at byte {f.offset})"

/-- a cause and the number of bytes of the source that lie behind it -/
structure Finding where
  cause : Cause
  left : Nat

/-- what one statement comes to -/
inductive Item where
  | nothing
  | node (n : Node)
  /-- an at-rule whose block holds rules; `behind` bytes of the source follow the block -/
  | group (name prelude : Text) (inner : List Lexeme) (behind : Nat)

structure Statement where
  item : Item
  findings : List Finding
  rest : List Lexeme

/-- the text without what stands between `/*` and the next `*/`, wherever it stands -/
def stripComments (s : Text) : Text :=
  match Text.find? "/*".toList s with
  | none => s
  | some i =>
    let inside := s.drop (i + 2)
    match _h : Text.find? "*/".toList inside with
    | none => s.take i
    | some j => s.take i ++ stripComments (inside.drop (j + 2))
termination_by s.length
decreasing_by
  have h1 : j + 2 ≤ (s.drop (i + 2)).length := Text.find?_add_length_le _h
  simp only [inside, List.length_drop] at *
  omega

/-- the text of lexemes without comments and without blanks around it -/
def tidy (ls : List Lexeme) : Text := Text.trim (stripComments (Lexeme.texts ls))

/-- a character of the name of an at-rule -/
def atNameChar (c : Char) : Bool := alphanumeric c || c == '-' || c == '_'

def atNameLexeme : Lexeme → Bool
  | .char c => atNameChar c
  | _ => false

def opening (c : Char) : Bool := c == '\x7b'
def ending (c : Char) : Bool := c == ';' || c == '\x7b' || c == '\x7d'

/-- whether an opening brace stands in a block outside parentheses -/
def holdsBlock (ls : List Lexeme) : Bool := !(scan opening 0 ls).2.isEmpty

/-- an at-rule after its `@` -/
def atStatement (tail : Nat) (ls : List Lexeme) : Statement :=
  let name := Text.lower (Lexeme.texts (ls.takeWhile atNameLexeme))
  let r := ls.dropWhile atNameLexeme
  let named := if name.isEmpty then [⟨.missingName, Lexeme.bytesOf r + tail⟩] else []
  let prelude := tidy (scan ending 0 r).1
  match (scan ending 0 r).2 with
  | .char ';' :: s => ⟨.node (.statement name prelude), named, s⟩
  | .char '\x7b' :: s =>
    match scanBlock 0 0 s with
    | none => ⟨.nothing, named ++ [⟨.unclosedAtBlock name, tail⟩], []⟩
    | some (inner, rest) =>
      if holdsBlock inner then
        ⟨.group name prelude inner (1 + Lexeme.bytesOf rest + tail), named, rest⟩
      else ⟨.node (.block name prelude (Text.trim (Lexeme.texts inner))), named, rest⟩
  | s =>
    if s.isEmpty && !prelude.isEmpty then ⟨.node (.statement name prelude), named, []⟩
    else ⟨.nothing, named ++ [⟨.unterminatedAt name, Lexeme.bytesOf s + tail⟩], s⟩

/-- a rule from its first lexeme on; inside a block a closing brace is left to the caller -/
def ruleStatement (nested : Bool) (tail : Nat) (ls : List Lexeme) : Statement :=
  let selector := tidy (scan ending 0 ls).1
  match (scan ending 0 ls).2 with
  | .char '\x7b' :: s =>
    match scanBlock 0 0 s with
    | none => ⟨.nothing, [⟨.unclosedBlock selector, tail⟩], []⟩
    | some (inner, rest) => ⟨.node (.rule selector (Text.trim (Lexeme.texts inner))), [], rest⟩
  | [] => ⟨.nothing, [⟨.unexpectedEnd selector, tail⟩], []⟩
  | l :: s =>
    ⟨.nothing, [⟨.missingBlock selector, Lexeme.bytesOf (l :: s) + tail⟩],
      if nested && l == .char '\x7d' then l :: s else s⟩

/-- the statement that starts with the lexeme `l` -/
def statement (nested : Bool) (tail : Nat) (l : Lexeme) (ls : List Lexeme) : Statement :=
  match l with
  | .char '\x7d' => ⟨.nothing, [⟨.strayBrace, Lexeme.bytesOf (l :: ls) + tail⟩], ls⟩
  | .char ';' => ⟨.nothing, [], ls⟩
  | .char '@' => atStatement tail ls
  | _ => ruleStatement nested tail (l :: ls)

/-- the lexemes that a statement leaves to a nested list of rules -/
def Item.inner : Item → List Lexeme
  | .group _ _ inner _ => inner
  | .nothing | .node _ => []

theorem atStatement_length_le (tail : Nat) (ls : List Lexeme) :
    (atStatement tail ls).rest.length ≤ ls.length ∧
      (atStatement tail ls).item.inner.length ≤ ls.length := by
  have h1 : (scan ending 0 (ls.dropWhile atNameLexeme)).2.length ≤ ls.length :=
    Nat.le_trans (length_scan_le _ _ _) (List.dropWhile_sublist _).length_le
  unfold atStatement
  simp only
  split
  · next s hs =>
    rw [hs, List.length_cons] at h1
    exact ⟨by simp only; omega, Nat.zero_le _⟩
  · next s hs =>
    rw [hs, List.length_cons] at h1
    split
    · exact ⟨Nat.zero_le _, Nat.zero_le _⟩
    · next inner rest hb =>
      have h2 := length_scanBlock_lt hb
      split
      · exact ⟨by simp only; omega, by simp only [Item.inner]; omega⟩
      · exact ⟨by simp only; omega, Nat.zero_le _⟩
  · split
    · exact ⟨Nat.zero_le _, Nat.zero_le _⟩
    · exact ⟨h1, Nat.zero_le _⟩

theorem ruleStatement_item_inner (nested : Bool) (tail : Nat) (ls : List Lexeme) :
    (ruleStatement nested tail ls).item.inner = [] := by
  unfold ruleStatement
  simp only
  split
  · split <;> rfl
  · rfl
  · rfl

theorem ruleStatement_rest_length_le {nested : Bool} {l : Lexeme} (tail : Nat)
    (ls : List Lexeme) (h1 : l ≠ .char '\x7d') :
    (ruleStatement nested tail (l :: ls)).rest.length ≤ ls.length := by
  have h0 : (scan ending 0 (l :: ls)).2.length ≤ (l :: ls).length := length_scan_le _ _ _
  rw [List.length_cons] at h0
  unfold ruleStatement
  simp only
  split
  · next s hs =>
    rw [hs, List.length_cons] at h0
    split
    · exact Nat.zero_le _
    · next inner rest hb =>
      have := length_scanBlock_lt hb
      simp only
      omega
  · exact Nat.zero_le _
  · next m s _ hs =>
    rw [hs, List.length_cons] at h0
    simp only
    split
    · next hm =>
      simp only [Bool.and_eq_true, beq_iff_eq] at hm
      have hl : ∀ c, l = .char c → ¬ ending c := by
        intro c hc he
        rw [hc, scan, if_pos ⟨rfl, he⟩] at hs
        have := (List.cons.inj hs).1
        exact h1 (hc.trans (this.trans hm.2))
      have h2 := length_scan_cons_le hl ls
      rw [hs] at h2
      exact h2
    · omega

theorem statement_length_le (nested : Bool) (tail : Nat) (l : Lexeme) (ls : List Lexeme) :
    (statement nested tail l ls).rest.length ≤ ls.length ∧
      (statement nested tail l ls).item.inner.length ≤ ls.length := by
  unfold statement
  split
  · exact ⟨Nat.le_refl _, Nat.zero_le _⟩
  · exact ⟨Nat.le_refl _, Nat.zero_le _⟩
  · exact atStatement_length_le tail ls
  · next h1 _ _ =>
    refine ⟨ruleStatement_rest_length_le tail ls h1, ?_⟩
    rw [ruleStatement_item_inner]
    exact Nat.zero_le _

/-- the rules in lexemes, and what was found on the way -/
def rules (nested : Bool) (tail : Nat) (ls : List Lexeme) : List Node × List Finding :=
  match _h : skipTrivia ls with
  | [] => ([], [])
  | l :: r =>
    let st := statement nested tail l r
    let more := rules nested tail st.rest
    match _hi : st.item with
    | .nothing => (more.1, st.findings ++ more.2)
    | .node n => (n :: more.1, st.findings ++ more.2)
    | .group name prelude inner behind =>
      let below := rules true behind inner
      (.group name prelude below.1 :: more.1, st.findings ++ below.2 ++ more.2)
termination_by ls.length
decreasing_by
  · have h1 := length_skipTrivia_le ls
    have h2 := (statement_length_le nested tail l r).1
    rw [_h, List.length_cons] at h1
    show (statement nested tail l r).rest.length < ls.length
    omega
  · have h1 := length_skipTrivia_le ls
    have h2 := (statement_length_le nested tail l r).2
    rw [_h, List.length_cons] at h1
    rw [show (statement nested tail l r).item = _ from _hi] at h2
    simp only [Item.inner] at h2
    omega

/-- what a parser reports on the way, and its result -/
structure Outcome where
  problems : List Fault
  result : Except Fault Node

/-- a tolerant parser reports every problem and goes on; a strict one fails with the first -/
abbrev Parser := (tolerant : Bool) → Text → Outcome

def Finding.fault (source : Text) (f : Finding) : Fault :=
  ⟨f.cause, Text.bytes source - f.left⟩

def parse : Parser := fun tolerant source =>
  let r := rules false 0 (lexemes source)
  let faults := r.2.map (Finding.fault source)
  if tolerant then ⟨faults, .ok (.sheet r.1)⟩
  else
    match faults with
    | [] => ⟨[], .ok (.sheet r.1)⟩
    | f :: _ => ⟨[], .error f⟩

end PageTemplates.Css
