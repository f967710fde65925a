import PageTemplates.Json.Basic
import PageTemplates.Json.Fault
import PageTemplates.Text.Digits

/-!
# Reading JSON numbers

Integers of 64 bits, and doubles for all other numbers.

* `Json.gather`   the digits of a number that 64 bits hold;
* `Json.number`   a number after its sign, and what follows it.
-/

namespace PageTemplates.Json

def natOf (digits : Text) : Nat := (Text.natOf? 10 digits).getD 0

/-! ## the parts of a number -/

/-- at least one digit -/
def digits (s : Text) : Except Fault (Text × Text) :=
  match s with
  | [] => .error Cause.unfinishedValue.atEnd
  | c :: _ =>
    if c.isDigit then .ok (s.takeWhile Char.isDigit, s.dropWhile Char.isDigit)
    else .error (Cause.badNumber.after s)

/-- the digits before the point; a zero stands alone -/
def wholePart (s : Text) : Except Fault (Text × Text) :=
  match s with
  | '0' :: s =>
    match s with
    | c :: _ => if c.isDigit then .error (Cause.badNumber.after s) else .ok (['0'], s)
    | [] => .ok (['0'], s)
  | s => digits s

/-- the digits behind the point, if there is one -/
def fraction (s : Text) : Except Fault (Text × Text) :=
  match s with
  | '.' :: s => digits s
  | s => .ok ([], s)

structure Exponent where
  negative : Bool
  digits : Text

def Exponent.value (e : Exponent) : Int := if e.negative then -(natOf e.digits) else natOf e.digits

def exponent? (s : Text) : Except Fault (Option Exponent × Text) :=
  match s with
  | c :: rest =>
    if c = 'e' ∨ c = 'E' then
      match rest with
      | '-' :: s => do
        let (ds, s) ← digits s
        return (some ⟨true, ds⟩, s)
      | '+' :: s => do
        let (ds, s) ← digits s
        return (some ⟨false, ds⟩, s)
      | s => do
        let (ds, s) ← digits s
        return (some ⟨false, ds⟩, s)
    else .ok (none, s)
  | [] => .ok (none, [])

/-! ## its value -/

/-- whether 64 bits hold the integer; a negative zero is none -/
def inIntegerRange (negative : Bool) (n : Nat) : Bool :=
  if negative then 0 < n && n ≤ Nat.pow 2 63 else n < Nat.pow 2 64

/-- the number that digits make behind those of `n`, as long as it is below `limit`, and how many
digits are left over -/
def gather (limit n : Nat) : Text → Nat × Nat
  | [] => (n, 0)
  | c :: cs =>
    let next := 10 * n + (digit? 10 c).getD 0
    if next < limit then gather limit next cs else (n, cs.length + 1)

/-- the double of a number without its sign; digits beyond 64 bits only count as places -/
def double? (whole part : Text) (exponent : Int) : Option Float :=
  let (n, skipped) := gather (Nat.pow 2 64) 0 whole
  let (n, dropped) := gather (Nat.pow 2 64) n part
  Double.scaled? n (exponent + skipped + dropped - part.length)

/-- a number that no double holds, in front of `rest`; of an exponent that takes more than 31 bits
nothing is read behind the digit that shows it -/
def tooLarge (exponent : Option Exponent) (rest : Text) : Fault :=
  let digits := (exponent.map Exponent.digits).getD []
  ⟨.outOfRange, Text.bytes rest + ((gather (Nat.pow 2 31) 0 digits).2 - 1)⟩

/-- a number after its sign; integers that 64 bits cannot hold become doubles -/
def number (negative : Bool) (s : Text) : Except Fault (Json × Text) := do
  let (whole, s) ← wholePart s
  let (part, s) ← fraction s
  let (exponent, s) ← exponent? s
  let n := natOf whole
  if part.isEmpty && exponent.isNone && inIntegerRange negative n then
    return (.integer (if negative then -(n : Int) else n), s)
  else
    match double? whole part ((exponent.map Exponent.value).getD 0) with
    | some x => return (.double (if negative then -x else x), s)
    | none => throw (tooLarge exponent s)

end PageTemplates.Json
