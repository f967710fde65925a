import PageTemplates.Text.Basic

/-!
# What is wrong with a JSON document

A reader works on what is left of a document.  It tells a place by the number of bytes behind it,
which the rest in hand gives without the document.

* `Fault`       a cause and its place, counted from the end of the document;
* `ReadError`   a cause and its place, as a line and a column.
-/

namespace PageTemplates.Json

inductive Cause where
  | unfinishedValue
  | unfinishedString
  | unfinishedList
  | unfinishedObject
  | noValue
  | noWord
  | noColon
  | brokenList
  | brokenObject
  | noKey
  | trailingComma
  | trailing
  | tooDeep
  | badNumber
  | outOfRange
  | badEscape
  | controlCharacter
  /-- the second half of a pair of surrogates without the first, or the first with no second -/
  | loneSurrogate
  /-- the first half of a pair of surrogates with no escape after it -/
  | halfPair
deriving DecidableEq

def Cause.message : Cause → String
  | .unfinishedValue => "EOF while parsing a value"
  | .unfinishedString => "EOF while parsing a string"
  | .unfinishedList => "EOF while parsing a list"
  | .unfinishedObject => "EOF while parsing an object"
  | .noValue => "expected value"
  | .noWord => "expected ident"
  | .noColon => "expected `:`"
  | .brokenList => "expected `,` or `]`"
  | .brokenObject => "expected `,` or `\x7d`"
  | .noKey => "key must be a string"
  | .trailingComma => "trailing comma"
  | .trailing => "trailing characters"
  | .tooDeep => "recursion limit exceeded"
  | .badNumber => "invalid number"
  | .outOfRange => "number out of range"
  | .badEscape => "invalid escape"
  | .controlCharacter => "control character (\\u0000-\\u001F) found while parsing a string"
  | .loneSurrogate => "lone leading surrogate in hex escape"
  | .halfPair => "unexpected end of hex escape"

structure Fault where
  cause : Cause
  /-- the number of bytes behind the place -/
  left : Nat
deriving DecidableEq

namespace Cause

/-- in front of a rest -/
def before (c : Cause) (rest : Text) : Fault := ⟨c, Text.bytes rest⟩

/-- behind the first byte of a rest, if there is one -/
def after (c : Cause) (rest : Text) : Fault := ⟨c, Text.bytes rest - 1⟩

def atEnd (c : Cause) : Fault := ⟨c, 0⟩

end Cause

structure ReadError where
  cause : Cause
  line : Nat
  /-- the number of bytes in front of the place on its line -/
  column : Nat
deriving DecidableEq

def ReadError.message (e : ReadError) : String :=
  s!"{e.cause.message} at line {e.line} column {e.column}"

/-- the line and the column behind the first `n` bytes of a text that starts at these -/
def placeAfter (n line column : Nat) : Text → Nat × Nat
  | [] => (line, column)
  | c :: s =>
    if n < c.utf8Size then (line, column + n)
    else if c = '\n' then placeAfter (n - 1) (line + 1) 0 s
    else placeAfter (n - c.utf8Size) line (column + c.utf8Size) s

def Fault.inSource (f : Fault) (source : Text) : ReadError :=
  let (line, column) := placeAfter (Text.bytes source - f.left) 1 0 source
  ⟨f.cause, line, column⟩

end PageTemplates.Json
