import PageTemplates.Text.Basic

/-!
# Blank characters

The characters with the Unicode property `White_Space`, and trimming by them.  A text is blank
when nothing is left of it after trimming (`isBlank_iff_trim_eq_nil`).
-/

namespace PageTemplates

/-- the property `White_Space` -/
def blankChar (c : Char) : Bool :=
  let n := c.toNat
  (0x09 ≤ n && n ≤ 0x0d) || n == 0x20 || n == 0x85 || n == 0xa0 || n == 0x1680
    || (0x2000 ≤ n && n ≤ 0x200a) || n == 0x2028 || n == 0x2029 || n == 0x202f || n == 0x205f
    || n == 0x3000

/-- space, tab, line feed, carriage return and form feed -/
def asciiBlank (c : Char) : Bool :=
  c == ' ' || c == '\t' || c == '\n' || c == '\r' || c == '\x0c'

namespace Text

def trimStart (s : Text) : Text := s.dropWhile blankChar
def trimEnd (s : Text) : Text := (s.reverse.dropWhile blankChar).reverse
def trim (s : Text) : Text := trimEnd (trimStart s)

/-- nothing but blank characters -/
def isBlank (s : Text) : Bool := s.all blankChar

theorem trimStart_cons_of_blank {c : Char} (h : blankChar c) (s : Text) :
    trimStart (c :: s) = trimStart s := List.dropWhile_cons_of_pos h

theorem trimStart_cons_of_not_blank {c : Char} (h : ¬ blankChar c) (s : Text) :
    trimStart (c :: s) = c :: s := List.dropWhile_cons_of_neg h

theorem trimStart_eq_nil_iff {s : Text} : trimStart s = [] ↔ s.isBlank := by
  induction s with
  | nil => exact ⟨fun _ => rfl, fun _ => rfl⟩
  | cons c s ih =>
    by_cases hc : blankChar c
    · rw [trimStart_cons_of_blank hc, ih, isBlank, isBlank, List.all_cons, hc, Bool.true_and]
    · rw [trimStart_cons_of_not_blank hc, isBlank, List.all_cons, Bool.and_eq_true]
      exact ⟨fun h => absurd h (List.cons_ne_nil _ _), fun h => absurd h.1 hc⟩

theorem trimEnd_eq_nil_iff {s : Text} : trimEnd s = [] ↔ s.isBlank := by
  have h : trimStart s.reverse = [] ↔ isBlank s.reverse := trimStart_eq_nil_iff
  rw [isBlank, List.all_reverse] at h
  rw [trimEnd, List.reverse_eq_nil_iff]
  exact h

/-- trimming leaves nothing of a blank text, and something of any other -/
theorem isBlank_iff_trim_eq_nil {s : Text} : s.isBlank ↔ trim s = [] := by
  rw [trim, trimEnd_eq_nil_iff]
  induction s with
  | nil => exact ⟨fun _ => rfl, fun _ => rfl⟩
  | cons c s ih =>
    by_cases hc : blankChar c
    · rw [trimStart_cons_of_blank hc, isBlank, List.all_cons, hc, Bool.true_and]
      exact ih
    · rw [trimStart_cons_of_not_blank hc]

end Text

end PageTemplates
