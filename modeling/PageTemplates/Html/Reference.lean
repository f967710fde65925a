import PageTemplates.Text.Digits

/-!
# Character references

`decode` replaces the references `&amp;`, `&lt;`, `&gt;`, `&quot;`, `&apos;`, `&nbsp;` and the
numeric ones by their characters.  A reference it does not know, or whose name is longer than
nine bytes, stays as it is written.
-/

namespace PageTemplates.Html.Reference

/-- digits, at least one, possibly after a plus sign -/
def number? (base : Nat) : Text → Option Nat
  | [] => none
  | '+' :: s => if s.isEmpty then none else Text.natOf? base s
  | s => Text.natOf? base s

/-- the character with that code point -/
def scalar? (n : Nat) : Option Char := if n.isValidChar then some (Char.ofNat n) else none

def namedCharacters : List (Text × Char) :=
  [("amp", '&'), ("lt", '<'), ("gt", '>'), ("quot", '"'), ("apos", '\''),
    ("nbsp", '\u00a0')].map fun e => (e.1.toList, e.2)

/-- what stands between `&` and `;` for a character -/
def meaning? : Text → Option Char
  | '#' :: 'x' :: s => number? 16 s >>= scalar?
  | '#' :: 'X' :: s => number? 16 s >>= scalar?
  | '#' :: s => number? 10 s >>= scalar?
  | name => namedCharacters.lookup name

def ending (c : Char) : Bool := c == ';'

/-- the character of the reference whose `&` stands before `s`, and what follows its `;` -/
def next? (s : Text) : Option (Char × Text) :=
  if Text.bytes (Text.upTo ending s) ≤ 9 then
    match Text.since ending s with
    | [] => none
    | _ :: rest => (meaning? (Text.upTo ending s)).map (·, rest)
  else none

theorem length_lt_of_next? {s rest : Text} {c : Char} (h : next? s = some (c, rest)) :
    rest.length < s.length := by
  unfold next? at h
  split at h
  · split at h
    · simp at h
    · next hs =>
      obtain ⟨d, -, hd⟩ := Option.map_eq_some_iff.1 h
      obtain ⟨-, rfl⟩ := Prod.mk.inj hd
      exact Text.length_lt_of_since hs
  · simp at h

def decode : Text → Text
  | [] => []
  | c :: s =>
    if c = '&' then
      match _h : next? s with
      | some (d, rest) => d :: decode rest
      | none => '&' :: decode s
    else c :: decode s
termination_by s => s.length
decreasing_by
  all_goals simp only [List.length_cons]
  · have := length_lt_of_next? _h
    omega
  · omega
  · omega

end PageTemplates.Html.Reference
