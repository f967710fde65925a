import PageTemplates.Json.Number

/-!
# Reading JSON

A strict reader: one value with blanks around it and nothing else, at most `maxDepth` arrays and
objects inside one another, no control characters in strings, and escapes only for characters.
The fields of an object are put in the order of their keys, and the last of equal keys wins.

Each function takes what it reads off the front of a text.  A reader of nested values has a
counter that every value and every separator lowers; the length of the text is enough for it.
-/

namespace PageTemplates.Json

def maxDepth : Nat := 127

def blank (c : Char) : Bool := c == ' ' || c == '\t' || c == '\n' || c == '\r'

def skipBlank (s : Text) : Text := s.dropWhile blank

/-! ## strings -/

def plainEscape? (c : Char) : Option Char :=
  [('"', '"'), ('\\', '\\'), ('/', '/'), ('b', '\x08'), ('f', '\x0c'), ('n', '\n'), ('r', '\r'),
    ('t', '\t')].lookup c

def isHighSurrogate (n : Nat) : Bool := 0xd800 ≤ n && n ≤ 0xdbff
def isLowSurrogate (n : Nat) : Bool := 0xdc00 ≤ n && n ≤ 0xdfff

/-- the number that four hexadecimal digits make; four bytes are taken before any is looked at -/
def unit (s : Text) : Except Fault (Nat × Text) :=
  if Text.bytes (s.take 4) < 4 then .error Cause.unfinishedString.atEnd
  else
    match Text.natOf? 16 (s.take 4) with
    | some n => .ok (n, s.drop 4)
    | none => .error ⟨.badEscape, Text.bytes s - 4⟩

/-- the text behind a character; a first half of a pair has to be followed by it -/
def expectEscape (c : Char) (s : Text) : Except Fault Text :=
  match s with
  | [] => .error Cause.unfinishedString.atEnd
  | d :: rest => if d = c then .ok rest else .error (Cause.halfPair.after s)

/-- the character of a `u` escape -/
def codePoint (s : Text) : Except Fault (Char × Text) := do
  let (n, s) ← unit s
  if isLowSurrogate n then throw (Cause.loneSurrogate.before s)
  else if isHighSurrogate n then
    let (m, s) ← unit (← expectEscape 'u' (← expectEscape '\\' s))
    if isLowSurrogate m then
      return (Char.ofNat (0x10000 + (n - 0xd800) * 0x400 + (m - 0xdc00)), s)
    else throw (Cause.loneSurrogate.before s)
  else return (Char.ofNat n, s)

/-- the character of an escape, after its backslash -/
def escaped (s : Text) : Except Fault (Char × Text) :=
  match s with
  | [] => .error Cause.unfinishedString.atEnd
  | 'u' :: rest => codePoint rest
  | c :: rest =>
    match plainEscape? c with
    | some d => .ok (d, rest)
    | none => .error (Cause.badEscape.after s)

/-- a string after its opening quote -/
def stringBody : (fuel : Nat) → Text → Except Fault (Text × Text)
  | 0, _ => .error Cause.unfinishedString.atEnd
  | _ + 1, [] => .error Cause.unfinishedString.atEnd
  | fuel + 1, c :: s =>
    if c = '"' then .ok ([], s)
    else if c = '\\' then do
      let (d, s) ← escaped s
      let (t, s) ← stringBody fuel s
      return (d :: t, s)
    else if c.toNat < 0x20 then .error (Cause.controlCharacter.before s)
    else do
      let (t, s) ← stringBody fuel s
      return (c :: t, s)

/-! ## values -/

/-- a field among fields in the order of their keys; it replaces a field of the same key -/
def insertField (key : Text) (value : Json) : List (Text × Json) → List (Text × Json)
  | [] => [(key, value)]
  | (k, v) :: fields =>
    if k = key then (key, value) :: fields
    else if key < k then (key, value) :: (k, v) :: fields
    else (k, v) :: insertField key value fields

/-- what follows a word -/
def literal : (word : Text) → Text → Except Fault Text
  | [], s => .ok s
  | _ :: _, [] => .error Cause.unfinishedValue.atEnd
  | w :: word, c :: s => if c = w then literal word s else .error (Cause.noWord.after (c :: s))

/-- an object key with its colon -/
def key (fuel : Nat) (s : Text) : Except Fault (Text × Text) :=
  match s with
  | '"' :: s => do
    let (k, s) ← stringBody fuel s
    match skipBlank s with
    | ':' :: s => return (k, skipBlank s)
    | [] => throw Cause.unfinishedObject.atEnd
    | s => throw (Cause.noColon.after s)
  | s => .error (Cause.noKey.after s)

/-- what follows a comma, where `closing` must not be next -/
def afterComma (closing : Char) (s : Text) : Except Fault Text :=
  match skipBlank s with
  | [] => .error Cause.unfinishedValue.atEnd
  | c :: s => if c = closing then .error (Cause.trailingComma.after (c :: s)) else .ok (c :: s)

mutual
/-- a value; `depth` more levels may be opened -/
def value : (fuel depth : Nat) → Text → Except Fault (Json × Text)
  | 0, _, _ => .error Cause.unfinishedValue.atEnd
  | fuel + 1, depth, s =>
    match s with
    | [] => .error Cause.unfinishedValue.atEnd
    | '"' :: s => do
      let (t, s) ← stringBody fuel s
      return (.string t, s)
    | '[' :: rest =>
      match depth with
      | 0 => .error (Cause.tooDeep.after s)
      | depth + 1 =>
        match skipBlank rest with
        | [] => .error Cause.unfinishedList.atEnd
        | ']' :: s => .ok (.array [], s)
        | s => do
          let (items, s) ← items fuel depth s
          return (.array items, s)
    | '\x7b' :: rest =>
      match depth with
      | 0 => .error (Cause.tooDeep.after s)
      | depth + 1 =>
        match skipBlank rest with
        | [] => .error Cause.unfinishedObject.atEnd
        | '\x7d' :: s => .ok (.object [], s)
        | s => do
          let (fields, s) ← fields fuel depth [] s
          return (.object fields, s)
    | '-' :: s => number true s
    | 't' :: s => do return (.bool true, ← literal "rue".toList s)
    | 'f' :: s => do return (.bool false, ← literal "alse".toList s)
    | 'n' :: s => do return (.null, ← literal "ull".toList s)
    | c :: _ => if c.isDigit then number false s else .error (Cause.noValue.after s)
def items : (fuel depth : Nat) → Text → Except Fault (List Json × Text)
  | 0, _, _ => .error Cause.unfinishedList.atEnd
  | fuel + 1, depth, s => do
    let (first, s) ← value fuel depth s
    match skipBlank s with
    | ']' :: s => return ([first], s)
    | ',' :: s =>
      let (others, s) ← items fuel depth (← afterComma ']' s)
      return (first :: others, s)
    | [] => throw Cause.unfinishedList.atEnd
    | s => throw (Cause.brokenList.after s)
def fields : (fuel depth : Nat) → List (Text × Json) → Text →
    Except Fault (List (Text × Json) × Text)
  | 0, _, _, _ => .error Cause.unfinishedObject.atEnd
  | fuel + 1, depth, done, s => do
    let (k, s) ← key fuel s
    let (v, s) ← value fuel depth s
    let done := insertField k v done
    match skipBlank s with
    | '\x7d' :: s => return (done, s)
    | ',' :: s => fields fuel depth done (← afterComma '\x7d' s)
    | [] => throw Cause.unfinishedObject.atEnd
    | s => throw (Cause.brokenObject.after s)
end

/-- the one value in a document -/
def document (source : Text) : Except Fault Json := do
  let (v, rest) ← value (2 * source.length + 2) maxDepth (skipBlank source)
  match skipBlank rest with
  | [] => return v
  | s => throw (Cause.trailing.after s)

/-- the value that a document holds -/
def read (source : Text) : Except ReadError Json :=
  (document source).mapError fun fault => fault.inSource source

/-- the value that a document holds, or the message of what is wrong with it -/
def parse (source : Text) : Except Text Json :=
  (read source).mapError fun e => e.message.toList

end PageTemplates.Json
