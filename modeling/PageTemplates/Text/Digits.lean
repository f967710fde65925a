import PageTemplates.Text.Basic

/-!
# Digits

* `digit?`        the value of a character as a digit of a base;
* `Text.natOf?`   the number that a text of digits makes.
-/

namespace PageTemplates

/-- the value of a digit in a base up to 36, letters in either case -/
def digit? (base : Nat) (c : Char) : Option Nat :=
  let n := c.toNat
  let d :=
    if 48 ≤ n ∧ n ≤ 57 then n - 48
    else if 97 ≤ n ∧ n ≤ 122 then n - 87
    else if 65 ≤ n ∧ n ≤ 90 then n - 55
    else base
  if d < base then some d else none

namespace Text

/-- the number that digits make, zero if there are none; every character has to be a digit -/
def natOf? (base : Nat) (digits : Text) : Option Nat :=
  digits.foldlM (fun n c => (digit? base c).map (n * base + ·)) 0

@[simp] theorem natOf?_nil (base : Nat) : natOf? base [] = some 0 := rfl

/-- a further digit at the end -/
theorem natOf?_concat {base n d : Nat} {digits : Text} {c : Char}
    (h1 : natOf? base digits = some n) (h2 : digit? base c = some d) :
    natOf? base (digits ++ [c]) = some (n * base + d) := by
  rw [natOf?] at h1
  rw [natOf?, List.foldlM_append, h1]
  simp [h2]

end Text

end PageTemplates
