import PageTemplates.Text.Basic

/-!
# Bytes as text

UTF-8 read byte by byte.  What is no character is replaced by U+FFFD: bytes that start one as a
whole, every other byte alone.

* `Utf8.Opened`   a character that needs more bytes;
* `Utf8.step`     what one byte adds to the text;
* `Utf8.lossy`    the text of any bytes.
-/

namespace PageTemplates.Utf8

def replacement : Char := '\uFFFD'

/-- the start of a character: its bits so far, the range of the next byte, and those of the bytes
behind it -/
structure Opened where
  value : Nat
  next : Nat × Nat
  later : List (Nat × Nat)

/-- the range of a byte that continues a character -/
def continuing : Nat × Nat := (0x80, 0xBF)

/-- the character of several bytes that a byte starts; the ranges leave out what would be a longer
form than needed, a surrogate, or no code point -/
def opened? (b : Nat) : Option Opened :=
  if 0xC2 ≤ b ∧ b ≤ 0xDF then some ⟨b % 32, continuing, []⟩
  else if b = 0xE0 then some ⟨b % 16, (0xA0, 0xBF), [continuing]⟩
  else if b = 0xED then some ⟨b % 16, (0x80, 0x9F), [continuing]⟩
  else if 0xE1 ≤ b ∧ b ≤ 0xEF then some ⟨b % 16, continuing, [continuing]⟩
  else if b = 0xF0 then some ⟨b % 8, (0x90, 0xBF), [continuing, continuing]⟩
  else if b = 0xF4 then some ⟨b % 8, (0x80, 0x8F), [continuing, continuing]⟩
  else if 0xF1 ≤ b ∧ b ≤ 0xF3 then some ⟨b % 8, continuing, [continuing, continuing]⟩
  else none

/-- what a byte adds behind a whole character, and what it starts -/
def start (b : Nat) : Text × Option Opened :=
  if b < 0x80 then ([Char.ofNat b], none)
  else
    match opened? b with
    | some o => ([], some o)
    | none => ([replacement], none)

def step : Option Opened → Nat → Text × Option Opened
  | none, b => start b
  | some o, b =>
    if o.next.1 ≤ b ∧ b ≤ o.next.2 then
      let value := o.value * 64 + b % 64
      match o.later with
      | [] => ([Char.ofNat value], none)
      | next :: later => ([], some ⟨value, next, later⟩)
    else (replacement :: (start b).1, (start b).2)

def run (o : Option Opened) : List UInt8 → Text
  | [] => if o.isSome then [replacement] else []
  | b :: bytes => (step o b.toNat).1 ++ run (step o b.toNat).2 bytes

/-- the text of bytes, with replacements for what is no character -/
def lossy (bytes : List UInt8) : Text := run none bytes

end PageTemplates.Utf8
