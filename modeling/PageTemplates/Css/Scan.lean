import PageTemplates.Text.Blank
import PageTemplates.Css.Lexeme

/-!
# Scanning lexemes

Blanks, comments and the markers `<!--` and `-->` may stand between rules (`skipTrivia`).  A
prelude or selector ends at a stop character outside parentheses (`scan`), and a block at the
brace that closes it (`scanBlock`); strings, comments and escapes hide what they contain, because
they are single lexemes.
-/

namespace PageTemplates.Css

open Lexeme

def skipTrivia : List Lexeme → List Lexeme
  | .char '<' :: .char '!' :: .char '-' :: .char '-' :: ls => skipTrivia ls
  | .char '-' :: .char '-' :: .char '>' :: ls => skipTrivia ls
  | .comment _ :: ls => skipTrivia ls
  | .char c :: ls => if blankChar c then skipTrivia ls else .char c :: ls
  | ls => ls

theorem length_skipTrivia_le (ls : List Lexeme) : (skipTrivia ls).length ≤ ls.length := by
  fun_induction skipTrivia ls with
  | case1 => simp only [List.length_cons]; omega
  | case2 => simp only [List.length_cons]; omega
  | case3 => simp only [List.length_cons]; omega
  | case4 => simp only [List.length_cons]; omega
  | case5 => simp
  | case6 => simp

/-- what stands before the first stop outside parentheses, and the rest from the stop on -/
def scan (stop : Char → Bool) (parens : Nat) : List Lexeme → List Lexeme × List Lexeme
  | [] => ([], [])
  | .char c :: ls =>
    if parens = 0 ∧ stop c then ([], .char c :: ls)
    else
      let parens' := if c = '(' then parens + 1 else if c = ')' then parens - 1 else parens
      (.char c :: (scan stop parens' ls).1, (scan stop parens' ls).2)
  | l :: ls => (l :: (scan stop parens ls).1, (scan stop parens ls).2)

/-- the content of a block whose opening brace stands before the lexemes, and what follows its
closing brace; `braces` counts the blocks that are open inside it -/
def scanBlock (braces parens : Nat) : List Lexeme → Option (List Lexeme × List Lexeme)
  | [] => none
  | .char c :: ls =>
    let keep (braces' parens' : Nat) :=
      (scanBlock braces' parens' ls).map fun r => (.char c :: r.1, r.2)
    if c = '(' then keep braces (parens + 1)
    else if c = ')' then keep braces (parens - 1)
    else if parens = 0 ∧ c = '\x7b' then keep (braces + 1) 0
    else if parens = 0 ∧ c = '\x7d' then
      match braces with
      | 0 => some ([], ls)
      | n + 1 => keep n 0
    else keep braces parens
  | l :: ls => (scanBlock braces parens ls).map fun r => (l :: r.1, r.2)

theorem scan_append (stop : Char → Bool) (parens : Nat) (ls : List Lexeme) :
    (scan stop parens ls).1 ++ (scan stop parens ls).2 = ls := by
  fun_induction scan stop parens ls with
  | case1 => rfl
  | case2 => rfl
  | case3 _ _ _ _ _ ih => simpa using ih
  | case4 _ _ _ _ ih => simpa using ih

theorem length_scan_le (stop : Char → Bool) (parens : Nat) (ls : List Lexeme) :
    (scan stop parens ls).2.length ≤ ls.length := by
  have h := congrArg List.length (scan_append stop parens ls)
  rw [List.length_append] at h
  omega

/-- a scan that does not stop at once passes its first lexeme -/
theorem length_scan_cons_le {stop : Char → Bool} {l : Lexeme} (h : ∀ c, l = .char c → ¬ stop c)
    (ls : List Lexeme) : (scan stop 0 (l :: ls)).2.length ≤ ls.length := by
  cases l with
  | char c =>
    rw [scan, if_neg (fun hc => h c rfl hc.2)]
    exact length_scan_le _ _ _
  | escape | string | comment =>
    rw [scan]
    · exact length_scan_le _ _ _
    · intro c hc; cases hc

theorem length_scanBlock_lt {braces parens : Nat} {ls inner rest : List Lexeme}
    (h : scanBlock braces parens ls = some (inner, rest)) :
    inner.length + rest.length < ls.length := by
  induction ls generalizing braces parens inner rest with
  | nil => simp [scanBlock] at h
  | cons l ls ih =>
    have keep : ∀ b p, (scanBlock b p ls).map (fun r => (l :: r.1, r.2)) = some (inner, rest) →
        inner.length + rest.length < (l :: ls).length := by
      intro b p hb
      obtain ⟨⟨i, r⟩, h1, h2⟩ := Option.map_eq_some_iff.1 hb
      obtain ⟨rfl, rfl⟩ := Prod.mk.inj h2
      have := ih h1
      simp only [List.length_cons]
      omega
    cases l with
    | char c =>
      simp only [scanBlock] at h
      split at h
      · exact keep _ _ h
      · split at h
        · exact keep _ _ h
        · split at h
          · exact keep _ _ h
          · split at h
            · split at h
              · obtain ⟨rfl, rfl⟩ := Prod.mk.inj (Option.some.inj h)
                simp
              · exact keep _ _ h
            · exact keep _ _ h
    | escape => exact keep _ _ h
    | string => exact keep _ _ h
    | comment => exact keep _ _ h

end PageTemplates.Css
