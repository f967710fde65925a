import PageTemplates.Toml.Scalar

/-!
# Reading TOML

The reader of version 1.1 of the format.  Each function takes what it reads off the front of a
text and gives `none` where the text is not well formed, or goes deeper than `maxDepth`: so many
arrays and inline tables stand inside one another at most, and so many parts make up a key.  The
counter of a reader is bounded by the length of the text.
-/

namespace PageTemplates.Toml

def maxDepth : Nat := 80

/-! ## blanks and comments -/

def isBlank (c : Char) : Bool := c == ' ' || c == '\t'

def skipBlank (s : Text) : Text := s.dropWhile isBlank

/-- control characters have no place in a document, apart from tabs and the ends of lines -/
def isControl (c : Char) : Bool := (c.toNat < 0x20 && c != '\t') || c.toNat = 0x7f

/-- what follows the end of a line -/
def newline? : Text → Option Text
  | '\n' :: s => some s
  | '\r' :: '\n' :: s => some s
  | _ => none

/-- a comment up to the end of its line -/
def comment? : Text → Option Text
  | '#' :: s =>
    let line := s.takeWhile fun c => c != '\n' && c != '\r'
    if line.any isControl then none else some (s.drop line.length)
  | s => some s

/-- what follows the line when nothing but a comment is left on it -/
def lineEnd? (s : Text) : Option Text := do
  match ← comment? (skipBlank s) with
  | [] => some []
  | s => newline? s

/-- blanks, comments and ends of lines -/
def filler? : (fuel : Nat) → Text → Option Text
  | 0, _ => none
  | fuel + 1, s => do
    let s ← comment? (skipBlank s)
    match newline? s with
    | some s => filler? fuel s
    | none => some s

/-! ## strings -/

/-- the character with the code point that `n` hexadecimal digits give -/
def codePoint? (n : Nat) (s : Text) : Option (Char × Text) :=
  if (s.take n).length = n then
    match Text.natOf? 16 (s.take n) with
    | some v => if v.isValidChar then some (Char.ofNat v, s.drop n) else none
    | none => none
  else none

def escape? : Text → Option (Char × Text)
  | 'x' :: s => codePoint? 2 s
  | 'u' :: s => codePoint? 4 s
  | 'U' :: s => codePoint? 8 s
  | c :: s =>
    ([('b', '\x08'), ('t', '\t'), ('n', '\n'), ('f', '\x0c'), ('r', '\r'), ('e', '\x1b'),
      ('"', '"'), ('\\', '\\')].lookup c).map (·, s)
  | [] => none

/-- a string of one line after its opening quote; only double quotes allow escapes -/
def lineString? (quote : Char) : (fuel : Nat) → Text → Option (Text × Text)
  | 0, _ => none
  | _ + 1, [] => none
  | fuel + 1, c :: s =>
    if c = quote then some ([], s)
    else if c = '\\' ∧ quote = '"' then do
      let (d, s) ← escape? s
      let (t, s) ← lineString? quote fuel s
      some (d :: t, s)
    else if isControl c then none
    else do
      let (t, s) ← lineString? quote fuel s
      some (c :: t, s)

/-- what follows blanks and ends of lines after a backslash at the end of a line -/
def skipBreak : Text → Text
  | '\r' :: '\n' :: s => skipBreak s
  | c :: s => if isBlank c || c == '\n' then skipBreak s else c :: s
  | [] => []

/-- a string of several lines after its opening quotes -/
def linesString? (quote : Char) : (fuel : Nat) → Text → Option (Text × Text)
  | 0, _ => none
  | _ + 1, [] => none
  | fuel + 1, c :: s =>
    if c = quote then
      let more := s.takeWhile (· == quote)
      let closing := 1 + more.length
      if 5 < closing then none
      else if 3 ≤ closing then some (List.replicate (closing - 3) quote, s.drop more.length)
      else do
        let (t, s) ← linesString? quote fuel (s.drop more.length)
        some (List.replicate closing quote ++ t, s)
    else if c = '\\' ∧ quote = '"' then
      match newline? (skipBlank s) with
      | some rest => linesString? quote fuel (skipBreak rest)
      | none => do
        let (d, s) ← escape? s
        let (t, s) ← linesString? quote fuel s
        some (d :: t, s)
    else if c = '\r' then
      match s with
      | '\n' :: s => do
        let (t, s) ← linesString? quote fuel s
        some ('\r' :: '\n' :: t, s)
      | _ => none
    else if c ≠ '\n' ∧ isControl c then none
    else do
      let (t, s) ← linesString? quote fuel s
      some (c :: t, s)

/-- a string of either form after its first quote -/
def string? (quote : Char) (fuel : Nat) (s : Text) : Option (Text × Text) :=
  match s with
  | a :: b :: rest =>
    if a = quote ∧ b = quote then linesString? quote fuel ((newline? rest).getD rest)
    else lineString? quote fuel s
  | s => lineString? quote fuel s

/-! ## keys -/

def isBare (c : Char) : Bool := c.isAlphanum || c == '_' || c == '-'

def simpleKey? (fuel : Nat) : Text → Option (Text × Text)
  | '"' :: s => lineString? '"' fuel s
  | '\'' :: s => lineString? '\'' fuel s
  | s =>
    let word := s.takeWhile isBare
    if word.isEmpty then none else some (word, s.drop word.length)

/-- keys with dots between them, and what follows the blanks after them -/
def keys? : (fuel : Nat) → Text → Option (List Text × Text)
  | 0, _ => none
  | fuel + 1, s => do
    let (key, s) ← simpleKey? fuel s
    match skipBlank s with
    | '.' :: s =>
      let (others, s) ← keys? fuel (skipBlank s)
      some (key :: others, s)
    | s => some ([key], s)

/-- a key of not too many parts -/
def dottedKey? (fuel : Nat) (s : Text) : Option (List Text × Text) :=
  (keys? fuel s).filter fun r => r.1.length ≤ maxDepth

/-! ## values -/

def isWordChar (c : Char) : Bool :=
  c.isAlphanum || c == '+' || c == '-' || c == '_' || c == '.' || c == ':'

/-- the word in front of a text; a date takes a time behind one blank with it -/
def word (s : Text) : Text × Text :=
  let w := s.takeWhile isWordChar
  let rest := s.drop w.length
  match rest with
  | ' ' :: c :: _ =>
    if date? w = some [] ∧ c.isDigit then
      let time := (rest.drop 1).takeWhile isWordChar
      (w ++ ' ' :: time, rest.drop (1 + time.length))
    else (w, rest)
  | _ => (w, rest)

mutual
/-- a value; `depth` more arrays and inline tables may be opened -/
def value? : (fuel depth : Nat) → Text → Option (Value × Text)
  | 0, _, _ => none
  | fuel + 1, depth, s =>
    match s with
    | '"' :: s => do
      let (t, s) ← string? '"' fuel s
      some (.string t, s)
    | '\'' :: s => do
      let (t, s) ← string? '\'' fuel s
      some (.string t, s)
    | '[' :: s =>
      match depth with
      | 0 => none
      | depth + 1 => do
        let (vs, s) ← items? fuel depth s
        some (.array vs, s)
    | '\x7b' :: s =>
      match depth with
      | 0 => none
      | depth + 1 => do
        let (es, s) ← inline? fuel depth [] s
        some (.table (fieldValues es), s)
    | s => do
      let (w, s) := word s
      some (← Value.ofWord? w, s)
/-- the items of an array up to its closing bracket -/
def items? : (fuel depth : Nat) → Text → Option (List Value × Text)
  | 0, _, _ => none
  | fuel + 1, depth, s => do
    match ← filler? fuel s with
    | ']' :: s => some ([], s)
    | s =>
      let (v, s) ← value? fuel depth s
      match ← filler? fuel s with
      | ']' :: s => some ([v], s)
      | ',' :: s =>
        let (vs, s) ← items? fuel depth s
        some (v :: vs, s)
      | _ => none
/-- the entries of an inline table up to its closing brace; lines may end around its signs -/
def inline? : (fuel depth : Nat) → Entries → Text → Option (Entries × Text)
  | 0, _, _, _ => none
  | fuel + 1, depth, es, s => do
    match ← filler? fuel s with
    | '\x7d' :: s => some (es, s)
    | s =>
      let (path, s) ← dottedKey? fuel s
      match ← filler? fuel s with
      | '=' :: s =>
        let (v, s) ← value? fuel depth (← filler? fuel s)
        let es ← Entries.addValue? path v es
        match ← filler? fuel s with
        | '\x7d' :: s => some (es, s)
        | ',' :: s => inline? fuel depth es s
        | _ => none
      | _ => none
end

/-- a key with its value on one line -/
def keyValue? (fuel : Nat) (s : Text) : Option (List Text × Value × Text) := do
  let (path, s) ← dottedKey? fuel s
  match s with
  | '=' :: s =>
    let (v, s) ← value? fuel maxDepth (skipBlank s)
    some (path, v, s)
  | _ => none

/-! ## documents -/

/-- the dotted key of a header with its brackets -/
def header? (fuel : Nat) (closing s : Text) : Option (List Text × Text) := do
  let (path, s) ← dottedKey? fuel (skipBlank s)
  if closing.isPrefixOf s then some (path, s.drop closing.length) else none

/-- the lines of a document; `header` is the header in force -/
def lines? : (fuel : Nat) → (header : List Text) → Entries → Text → Option Entries
  | 0, _, _, _ => none
  | fuel + 1, header, es, s => do
    match ← filler? (s.length + 1) s with
    | [] => some es
    | '[' :: '[' :: s =>
      let (path, s) ← header? fuel [']', ']'] s
      lines? fuel path (← Entries.openItem? path es) (← lineEnd? s)
    | '[' :: s =>
      let (path, s) ← header? fuel [']'] s
      lines? fuel path (← Entries.openTable? path es) (← lineEnd? s)
    | s =>
      let (path, v, s) ← keyValue? fuel s
      lines? fuel header (← Entries.addValueIn? header path v es) (← lineEnd? s)

/-- the fields of a document; a byte order mark in front of it is passed over -/
def read? (source : Text) : Option (List (Text × Value)) :=
  let s := match source with
    | '\ufeff' :: s => s
    | s => s
  (lines? (4 * s.length + 8) [] [] s).map fieldValues

end PageTemplates.Toml
