import PageTemplates.Decimal

/-!
# Doubles

Numbers in floating point, from their digits and back to digits.

* `Double.scaled?`    a natural number times a power of ten, rounded at every step;
* `Double.shortest`   the decimal of fewest digits that rounds to a double.
-/

namespace PageTemplates.Double

/-! ## from digits -/

/-- the exponent of the largest power of ten that is finite -/
def maxPower : Nat := 308

def tenTo (k : Nat) : Float := Float.ofScientific 1 false k

/-- `x · 10 ^ k` if it is finite -/
def raised? (x : Float) (k : Nat) : Option Float :=
  if k ≤ maxPower then
    let y := x * tenTo k
    if y.isInf then none else some y
  else if x == 0 then some x
  else none

/-- `x / 10 ^ k`, by the largest power of ten while the exponent is beyond it -/
def lowered (x : Float) (k : Nat) : Float :=
  if k ≤ maxPower then x / tenTo k
  else if x == 0 then x
  else lowered (x / tenTo maxPower) (k - maxPower)
termination_by k
decreasing_by simp_all [maxPower]; omega

/-- `n · 10 ^ exponent` if it is finite -/
def scaled? (n : Nat) : (exponent : Int) → Option Float
  | .ofNat k => raised? n.toFloat k
  | .negSucc k => some (lowered n.toFloat (k + 1))

/-! ## back to digits -/

/-- the number of bits behind the first one of a mantissa -/
def fractionBits : Nat := 52

def minExponent : Int := -1074

def isNegative (x : Float) : Bool := Nat.pow 2 63 ≤ x.toBits.toNat

/-- the mantissa `m` and the exponent `e` of the magnitude `m · 2 ^ e` of a finite double -/
def parts (x : Float) : Nat × Int :=
  let unit := Nat.pow 2 fractionBits
  let fraction := x.toBits.toNat % unit
  match x.toBits.toNat / unit % Nat.pow 2 11 with
  | 0 => (fraction, minExponent)
  | e + 1 => (fraction + unit, minExponent + e)

/-- a power of ten above `m · 2 ^ e`, by its exponent -/
def place (m : Nat) (e : Int) : Int :=
  let above := m * Nat.pow 2 e.toNat
  let below := Nat.pow 2 (-e).toNat
  if below ≤ above then (Nat.toDigits 10 (above / below)).length
  else 2 - ((Nat.toDigits 10 (below / above)).length : Int)

/-- the multiple of `10 ^ p` next to `m · 2 ^ e` that rounds to it; of two the nearer one, or the
even one if they are equally near.  What rounds to a mantissa reaches halfway to the mantissas
beside it, the ends included if it is even; the gap below a power of two is half as wide. -/
def onGrid? (m : Nat) (e p : Int) : Option Nat :=
  let step := Nat.pow 10 p.toNat * Nat.pow 2 (2 - e).toNat
  let quarter := Nat.pow 10 (-p).toNat * Nat.pow 2 (e - 2).toNat
  let gap := if m = Nat.pow 2 fractionBits ∧ minExponent < e then 1 else 2
  let value := 4 * m * quarter
  let low := (4 * m - gap) * quarter
  let high := (4 * m + 2) * quarter
  let rounds (c : Nat) : Bool :=
    if m % 2 = 0 then low ≤ c * step && c * step ≤ high else low < c * step && c * step < high
  let c := value / step
  let rest := 2 * (value % step)
  match rounds c, rounds (c + 1) with
  | true, true => some (if rest < step ∨ rest = step ∧ c % 2 = 0 then c else c + 1)
  | true, false => some c
  | false, true => some (c + 1)
  | false, false => none

/-- the coarsest grid of decimals decides; no double needs more than seventeen digits -/
def shortest (x : Float) : Decimal :=
  let (m, e) := parts x
  let grids := (List.range 20).map fun (i : Nat) => place m e - i
  let found := grids.findSome? fun p => (onGrid? m e p).map fun c => (c, p)
  let (digits, exponent) := found.getD (0, 0)
  ⟨isNegative x, digits, exponent⟩

end PageTemplates.Double
