import PageTemplates.Text.Digits
import PageTemplates.Toml.Document

/-!
# Words of TOML

Booleans, numbers and dates are words without blanks (a date may have one blank before its time).
`Value.ofWord?` tells which of them a word is, if any.
-/

namespace PageTemplates.Toml

/-! ## numbers -/

/-- digits in groups, with single underscores between them -/
def grouped (base : Nat) (s : Text) : Bool :=
  (s.splitOn '_').all fun group => !group.isEmpty && group.all fun c => (digit? base c).isSome

/-- the number that grouped digits make -/
def amount (base : Nat) (s : Text) : Nat := (Text.natOf? base (s.filter (· != '_'))).getD 0

/-- digits without a zero in front -/
def isNatural (s : Text) : Bool := grouped 10 s && (s.length = 1 || s.head? != some '0')

def isNegative (s : Text) : Bool := s.head? == some '-'

def unsigned : Text → Text
  | '+' :: s => s
  | '-' :: s => s
  | s => s

def groupChar (c : Char) : Bool := c.isDigit || c == '_'

/-- an exponent with its mark, or nothing -/
def exponent? : Text → Option Int
  | [] => some 0
  | c :: s =>
    if (c = 'e' ∨ c = 'E') ∧ grouped 10 (unsigned s) then
      let n : Int := amount 10 (unsigned s)
      some (if isNegative s then -n else n)
    else none

/-- what follows the whole part: the digits behind the point, and the exponent -/
def scale? : Text → Option (Text × Int)
  | '.' :: s =>
    let digits := s.takeWhile groupChar
    if grouped 10 digits then (exponent? (s.drop digits.length)).map (digits, ·) else none
  | s => (exponent? s).map ([], ·)

/-- a number in tens, with or without a fraction -/
def decimal? (s : Text) : Option Number :=
  let whole := (unsigned s).takeWhile groupChar
  let behind := (unsigned s).drop whole.length
  if !isNatural whole then none
  else if behind.isEmpty then
    let n : Int := amount 10 whole
    some (.integer (if isNegative s then -n else n))
  else
    (scale? behind).map fun r =>
      let fraction := r.1.filter (· != '_')
      .decimal ⟨isNegative s, amount 10 (whole ++ fraction), r.2 - fraction.length⟩

def natural? (base : Nat) (s : Text) : Option Number :=
  if grouped base s then some (.integer (amount base s)) else none

def Number.ofText? (s : Text) : Option Number :=
  match s with
  | '0' :: 'x' :: digits => natural? 16 digits
  | '0' :: 'o' :: digits => natural? 8 digits
  | '0' :: 'b' :: digits => natural? 2 digits
  | _ =>
    if unsigned s = "inf".toList ∨ unsigned s = "nan".toList then some .special else decimal? s

/-! ## dates -/

/-- the number that exactly `n` digits make, and what follows them -/
def fixed? (n : Nat) (s : Text) : Option (Nat × Text) :=
  if (s.take n).length = n then (Text.natOf? 10 (s.take n)).map (·, s.drop n) else none

def expect? (c : Char) : Text → Option Text
  | d :: s => if d = c then some s else none
  | [] => none

def daysIn (year month : Nat) : Nat :=
  if month = 2 then
    if year % 4 = 0 ∧ (year % 100 ≠ 0 ∨ year % 400 = 0) then 29 else 28
  else if month = 4 ∨ month = 6 ∨ month = 9 ∨ month = 11 then 30
  else 31

/-- what follows a date -/
def date? (s : Text) : Option Text := do
  let (year, s) ← fixed? 4 s
  let (month, s) ← fixed? 2 (← expect? '-' s)
  let (day, s) ← fixed? 2 (← expect? '-' s)
  if 1 ≤ month ∧ month ≤ 12 ∧ 1 ≤ day ∧ day ≤ daysIn year month then some s else none

/-- what follows a time; the seconds may be missing -/
def time? (s : Text) : Option Text := do
  let (hour, s) ← fixed? 2 s
  let (minute, s) ← fixed? 2 (← expect? ':' s)
  if 24 ≤ hour ∨ 60 ≤ minute then none
  else
    match s with
    | ':' :: s =>
      let (second, s) ← fixed? 2 s
      if 61 ≤ second then none
      else
        match s with
        | '.' :: s =>
          if (s.takeWhile Char.isDigit).isEmpty then none else some (s.dropWhile Char.isDigit)
        | s => some s
    | s => some s

/-- the offset of a time, and nothing after it -/
def isOffset (s : Text) : Bool :=
  match s with
  | [] => true
  | [c] => c == 'Z' || c == 'z'
  | sign :: s =>
    (sign == '+' || sign == '-') &&
      match (do
        let (hour, s) ← fixed? 2 s
        let (minute, s) ← fixed? 2 (← expect? ':' s)
        if 24 ≤ hour ∨ 60 ≤ minute then none else some s) with
      | some [] => true
      | _ => false

def isDate (s : Text) : Bool :=
  match date? s with
  | some [] => true
  | some (c :: rest) =>
    (c == 'T' || c == 't' || c == ' ') &&
      match time? rest with
      | some rest => isOffset rest
      | none => false
  | none => time? s == some []

def Value.ofWord? (s : Text) : Option Value :=
  if s = "true".toList then some (.boolean true)
  else if s = "false".toList then some (.boolean false)
  else
    match Number.ofText? s with
    | some n => some (.number n)
    | none => if isDate s then some (.date s) else none

end PageTemplates.Toml
