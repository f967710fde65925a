import PageTemplates.Text.Basic

/-!
# Decimal numbers

A number with a fraction or an exponent, as it is written: nothing is rounded.

* `Decimal.toText`          its text;
* `Decimal.inDoubleRange`   whether a double of finite value is nearest to it.
-/

namespace PageTemplates

/-- `digits · 10 ^ exponent` with a sign -/
structure Decimal where
  negative : Bool
  digits : Nat
  exponent : Int
deriving DecidableEq

namespace Decimal

/-- the digits without trailing zeros, and the exponent that makes up for them -/
def strip : (fuel : Nat) → Nat → Int → Nat × Int
  | 0, n, e => (n, e)
  | fuel + 1, n, e => if n % 10 = 0 then strip fuel (n / 10) (e + 1) else (n, e)

/-- positional when the point falls between the fifth place after it and the sixteenth before it,
with one digit before the point and an exponent with its sign otherwise -/
def toText (d : Decimal) : Text :=
  let sign : Text := if d.negative then ['-'] else []
  if d.digits = 0 then sign ++ "0.0".toList
  else
    let (n, e) := strip (Nat.toDigits 10 d.digits).length d.digits d.exponent
    let digits := Nat.toDigits 10 n
    let point := (digits.length : Int) + e
    sign ++
      if 0 ≤ e ∧ point ≤ 16 then digits ++ List.replicate e.toNat '0' ++ ".0".toList
      else if 0 < point ∧ point ≤ 16 then
        digits.take point.toNat ++ '.' :: digits.drop point.toNat
      else if -5 < point ∧ point ≤ 0 then
        "0.".toList ++ List.replicate (-point).toNat '0' ++ digits
      else
        let fraction := if digits.length = 1 then [] else '.' :: digits.drop 1
        let mark : Text := if 0 < point then ['e', '+'] else ['e']
        digits.take 1 ++ fraction ++ mark ++ (toString (point - 1)).toList

/-- below the middle between the largest double and the next power of two; the place of the first
digit decides unless it is close -/
def inDoubleRange (d : Decimal) : Bool :=
  if d.digits = 0 then true
  else
    let place := ((Nat.toDigits 10 d.digits).length : Int) + d.exponent
    if place < 300 then true
    else if 400 < place then false
    else
      let limit := Nat.pow 2 1024 - Nat.pow 2 970
      if 0 ≤ d.exponent then d.digits * Nat.pow 10 d.exponent.toNat < limit
      else d.digits < limit * Nat.pow 10 (-d.exponent).toNat

end Decimal

end PageTemplates
