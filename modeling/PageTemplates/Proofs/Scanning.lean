import PageTemplates.Css.Parser
import PageTemplates.Proofs.Lexemes

/-!
# Scans over texts in a row

A scan over a text that leaves nothing open goes on behind it as if it started there.

* `scan_cons`, `scanBlock_cons`   both scanners by what one lexeme does (`level`, `turn`);
* `Flat`          lexemes without a stop; `Flat.scan_append` passes them;
* `balance`       the blocks and parentheses that are open behind lexemes;
* `scanBlock_of_balance`   a block ends at the brace behind lexemes that leave nothing open;
* `Unstopped`, `Balanced`  the same for texts: what can stand before a block and in it.
-/

namespace PageTemplates.Css

open Lexeme

/-! ## scanning lexemes in a row -/

namespace Lexeme

/-- whether the lexeme is a stop character -/
def meets (stop : Char → Bool) : Lexeme → Bool
  | .char c => stop c
  | _ => false

/-- the parentheses that are open behind the lexeme -/
def level (parens : Nat) : Lexeme → Nat
  | .char c => if c = '(' then parens + 1 else if c = ')' then parens - 1 else parens
  | _ => parens

/-- the blocks and the parentheses that are open behind the lexeme; nothing if it closes a block
that was open before all of them -/
def turn (opened : Nat × Nat) (l : Lexeme) : Option (Nat × Nat) :=
  if opened.2 = 0 ∧ l = .char '\x7b' then some (opened.1 + 1, 0)
  else if opened.2 = 0 ∧ l = .char '\x7d' then
    if opened.1 = 0 then none else some (opened.1 - 1, 0)
  else some (opened.1, l.level opened.2)

end Lexeme

/-- the parentheses that are open behind lexemes -/
def depth (parens : Nat) (ls : List Lexeme) : Nat := ls.foldl level parens

/-- the blocks and the parentheses that are open behind lexemes -/
def balance (opened : Nat × Nat) (ls : List Lexeme) : Option (Nat × Nat) := ls.foldlM turn opened

theorem scan_cons (stop : Char → Bool) (parens : Nat) (l : Lexeme) (ls : List Lexeme) :
    scan stop parens (l :: ls) =
      if parens = 0 ∧ l.meets stop then ([], l :: ls)
      else (l :: (scan stop (l.level parens) ls).1, (scan stop (l.level parens) ls).2) := by
  cases l with
  | char c => rw [scan]; rfl
  | escape | string | comment =>
    rw [scan, if_neg (by simp [meets])]
    · rfl
    · intro c hc; cases hc

theorem scanBlock_cons (braces parens : Nat) (l : Lexeme) (ls : List Lexeme) :
    scanBlock braces parens (l :: ls) =
      match l.turn (braces, parens) with
      | none => some ([], ls)
      | some (b, p) => (scanBlock b p ls).map fun r => (l :: r.1, r.2) := by
  cases l with
  | char c =>
    simp only [turn, Lexeme.char.injEq]
    by_cases hbegin : parens = 0 ∧ c = '\x7b'
    · obtain ⟨rfl, rfl⟩ := hbegin
      rfl
    · by_cases hend : parens = 0 ∧ c = '\x7d'
      · obtain ⟨rfl, rfl⟩ := hend
        cases braces <;> rfl
      · simp only [scanBlock, level, if_neg hbegin, if_neg hend]
        split
        · rfl
        · split <;> rfl
  | escape | string | comment => simp [scanBlock, turn, level]

theorem eq_of_ending {c : Char} (h : ending c = true) : c = ';' ∨ c = '\x7b' ∨ c = '\x7d' := by
  simpa only [ending, Bool.or_eq_true, beq_iff_eq, or_assoc] using h

theorem eq_of_meets_ending {l : Lexeme} (h : l.meets ending = true) :
    l = .char ';' ∨ l = .char '\x7b' ∨ l = .char '\x7d' := by
  cases l with
  | char c => exact (eq_of_ending h).imp (congrArg _) (Or.imp (congrArg _) (congrArg _))
  | escape | string | comment => cases h

theorem turn_of_not_meets {l : Lexeme} {parens : Nat} (h : ¬ (parens = 0 ∧ l.meets ending))
    (braces : Nat) : l.turn (braces, parens) = some (braces, l.level parens) := by
  rw [turn, if_neg, if_neg]
  · rintro ⟨hp, rfl⟩
    exact h ⟨hp, rfl⟩
  · rintro ⟨hp, rfl⟩
    exact h ⟨hp, rfl⟩

/-- a block that is open around the others stays open -/
theorem turn_succ {l : Lexeme} {b p b' p' : Nat} (h : l.turn (b, p) = some (b', p')) :
    l.turn (b + 1, p) = some (b' + 1, p') := by
  simp only [turn] at h ⊢
  split
  · next hbegin =>
    rw [if_pos hbegin] at h
    cases h
    rfl
  · next hbegin =>
    rw [if_neg hbegin] at h
    split
    · next hend =>
      rw [if_pos hend] at h
      split at h
      · cases h
      · cases h
        rw [if_neg (Nat.succ_ne_zero b)]
        congr 2
        omega
    · next hend =>
      rw [if_neg hend] at h
      cases h
      rfl

/-- only a closing brace outside all blocks and parentheses closes a block around all of them -/
theorem turn_eq_none {l : Lexeme} {b p : Nat} (h : l.turn (b, p) = none) :
    b = 0 ∧ p = 0 ∧ l = .char '\x7d' := by
  rw [turn] at h
  split at h
  · cases h
  · split at h
    · next hend =>
      split at h
      · next hbraces => exact ⟨hbraces, hend.1, hend.2⟩
      · cases h
    · cases h

/-! ## past lexemes without a stop -/

section
variable {stop : Char → Bool} {parens : Nat} {xs : List Lexeme}

theorem scan_append_of_passed (h : (scan stop parens xs).2 = []) (ys : List Lexeme) :
    scan stop parens (xs ++ ys) =
      (xs ++ (scan stop (depth parens xs) ys).1, (scan stop (depth parens xs) ys).2) := by
  induction xs generalizing parens with
  | nil => rfl
  | cons l xs ih =>
    rw [scan_cons] at h
    rw [List.cons_append, scan_cons]
    split at h
    · cases h
    · next hstop =>
      rw [if_neg hstop, ih h]
      rfl

/-- with fewer stop characters there are fewer stops -/
theorem scan_passed_mono {stop' : Char → Bool} (hle : ∀ c, stop' c → stop c)
    (h : (scan stop parens xs).2 = []) : (scan stop' parens xs).2 = [] := by
  induction xs generalizing parens with
  | nil => rfl
  | cons l xs ih =>
    rw [scan_cons] at h ⊢
    split at h
    · cases h
    · next hstop =>
      have hstop' : ¬ (parens = 0 ∧ l.meets stop') := by
        rintro ⟨hp, hmeets⟩
        refine hstop ⟨hp, ?_⟩
        cases l with
        | char c => exact hle c hmeets
        | escape | string | comment => exact hmeets
      rw [if_neg hstop']
      exact ih h

/-- without a stop no block is opened or closed -/
theorem balance_of_passed (h : (scan ending parens xs).2 = []) (braces : Nat) :
    balance (braces, parens) xs = some (braces, depth parens xs) := by
  induction xs generalizing parens with
  | nil => rfl
  | cons l xs ih =>
    rw [scan_cons] at h
    split at h
    · cases h
    · next hstop =>
      rw [balance, List.foldlM_cons, turn_of_not_meets hstop]
      exact ih h

end

/-- lexemes with no stop outside parentheses that close every parenthesis they open -/
structure Flat (stop : Char → Bool) (ls : List Lexeme) : Prop where
  passed : (scan stop 0 ls).2 = []
  depth : depth 0 ls = 0

instance (stop : Char → Bool) (ls : List Lexeme) : Decidable (Flat stop ls) :=
  decidable_of_iff ((scan stop 0 ls).2 = [] ∧ depth 0 ls = 0)
    ⟨fun h => ⟨h.1, h.2⟩, fun h => ⟨h.passed, h.depth⟩⟩

namespace Flat
variable {stop : Char → Bool} {xs ys : List Lexeme}

theorem nil : Flat stop [] := ⟨rfl, rfl⟩

theorem scan_append (h : Flat stop xs) (ys : List Lexeme) :
    scan stop 0 (xs ++ ys) = (xs ++ (scan stop 0 ys).1, (scan stop 0 ys).2) := by
  rw [scan_append_of_passed h.passed, h.depth]

theorem cons {l : Lexeme} (hl : l.meets stop = false) (hlevel : l.level 0 = 0)
    (h : Flat stop xs) : Flat stop (l :: xs) := by
  constructor
  · rw [scan_cons, if_neg (by rw [hl]; simp), hlevel]
    exact h.passed
  · rw [Css.depth, List.foldl_cons, hlevel]
    exact h.depth

theorem chars {s : Text} (h : ∀ c ∈ s, stop c = false ∧ c ≠ '(' ∧ c ≠ ')') :
    Flat stop (s.map .char) := by
  induction s with
  | nil => exact nil
  | cons c s ih =>
    rw [List.forall_mem_cons] at h
    obtain ⟨⟨hstop, hopen, hclose⟩, hrest⟩ := h
    exact (ih hrest).cons hstop (by rw [level, if_neg hopen, if_neg hclose])

theorem append (hx : Flat stop xs) (hy : Flat stop ys) : Flat stop (xs ++ ys) := by
  constructor
  · rw [hx.scan_append]
    exact hy.passed
  · rw [Css.depth, List.foldl_append, show xs.foldl level 0 = 0 from hx.depth]
    exact hy.depth

/-- lexemes up to the first stop -/
theorem scan_stop (h : Flat stop xs) {c : Char} (hc : stop c) (ys : List Lexeme) :
    scan stop 0 (xs ++ .char c :: ys) = (xs, .char c :: ys) := by
  rw [h.scan_append, scan_cons, if_pos ⟨rfl, hc⟩, List.append_nil]

theorem mono {stop' : Char → Bool} (hle : ∀ c, stop' c → stop c) (h : Flat stop xs) :
    Flat stop' xs :=
  ⟨scan_passed_mono hle h.passed, h.depth⟩

theorem balance (h : Flat ending xs) (braces : Nat) :
    balance (braces, 0) xs = some (braces, 0) := by
  rw [balance_of_passed h.passed, h.depth]

end Flat

/-! ## past a block -/

theorem balance_append {opened opened' : Nat × Nat} {xs : List Lexeme}
    (h : balance opened xs = some opened') (ys : List Lexeme) :
    balance opened (xs ++ ys) = balance opened' ys := by
  rw [balance, List.foldlM_append, show xs.foldlM turn opened = some opened' from h]
  rfl

theorem balance_succ {ls : List Lexeme} {b p b' p' : Nat}
    (h : balance (b, p) ls = some (b', p')) : balance (b + 1, p) ls = some (b' + 1, p') := by
  induction ls generalizing b p with
  | nil =>
    cases h
    rfl
  | cons l ls ih =>
    rw [balance, List.foldlM_cons] at h ⊢
    obtain ⟨⟨b1, p1⟩, hturn, hrest⟩ := Option.bind_eq_some_iff.1 h
    rw [turn_succ hturn]
    exact ih hrest

theorem scanBlock_append {ls : List Lexeme} {b p b' p' : Nat}
    (h : balance (b, p) ls = some (b', p')) (rest : List Lexeme) :
    scanBlock b p (ls ++ rest) = (scanBlock b' p' rest).map fun r => (ls ++ r.1, r.2) := by
  induction ls generalizing b p with
  | nil =>
    cases h
    exact Option.map_id'.symm
  | cons l ls ih =>
    rw [balance, List.foldlM_cons] at h
    obtain ⟨⟨b1, p1⟩, hturn, hrest⟩ := Option.bind_eq_some_iff.1 h
    rw [List.cons_append, scanBlock_cons, hturn]
    simp only
    rw [ih hrest, Option.map_map]
    rfl

/-- a block ends at the brace behind lexemes that leave nothing open -/
theorem scanBlock_of_balance {ls : List Lexeme} (h : balance (0, 0) ls = some (0, 0))
    (rest : List Lexeme) : scanBlock 0 0 (ls ++ .char '\x7d' :: rest) = some (ls, rest) := by
  rw [scanBlock_append h, scanBlock_cons]
  simp [turn]

/-! ## texts -/

/-- a text that leaves nothing open and has no stop outside strings, escapes, comments and
parentheses -/
structure Unstopped (s : Text) : Prop where
  complete : Complete s
  flat : Flat ending (lexemes s)

/-- a text that can stand in a block: its braces match, and nothing else stays open -/
structure Balanced (s : Text) : Prop where
  complete : Complete s
  closed : balance (0, 0) (lexemes s) = some (0, 0)

instance (s : Text) : Decidable (Unstopped s) :=
  decidable_of_iff (Complete s ∧ Flat ending (lexemes s))
    ⟨fun h => ⟨h.1, h.2⟩, fun h => ⟨h.complete, h.flat⟩⟩

instance (s : Text) : Decidable (Balanced s) :=
  decidable_of_iff (Complete s ∧ balance (0, 0) (lexemes s) = some (0, 0))
    ⟨fun h => ⟨h.1, h.2⟩, fun h => ⟨h.complete, h.closed⟩⟩

namespace Unstopped
variable {s : Text}

theorem nil : Unstopped [] where
  complete := .nil
  flat := by rw [lexemes]; exact .nil

theorem space_cons (h : Unstopped s) : Unstopped (' ' :: s) where
  complete := Complete.nil.append_cons (by decide) h.complete
  flat := by
    rw [lexemes_cons (by decide)]
    exact h.flat.cons rfl rfl

theorem space_concat (h : Unstopped s) : Unstopped (s ++ [' ']) where
  complete := h.complete.append_cons (by decide) .nil
  flat := by
    rw [lexemes_append_cons h.complete (by decide)]
    refine h.flat.append ?_
    rw [lexemes]
    exact .cons rfl rfl .nil

theorem balanced (h : Unstopped s) : Balanced s := ⟨h.complete, h.flat.balance 0⟩

end Unstopped

namespace Balanced
variable {s t : Text}

theorem nil : Balanced [] := Unstopped.nil.balanced

theorem append_cons (hs : Balanced s) {c : Char} (hplain : Plain c)
    (hc : turn (0, 0) (.char c) = some (0, 0)) (ht : Balanced t) : Balanced (s ++ c :: t) where
  complete := hs.complete.append_cons hplain ht.complete
  closed := by
    rw [lexemes_append_cons hs.complete hplain, balance_append hs.closed, balance,
      List.foldlM_cons, hc]
    exact ht.closed

theorem cons {c : Char} (hplain : Plain c) (hc : turn (0, 0) (.char c) = some (0, 0))
    (ht : Balanced t) : Balanced (c :: t) :=
  nil.append_cons hplain hc ht

theorem concat (hs : Balanced s) {c : Char} (hplain : Plain c)
    (hc : turn (0, 0) (.char c) = some (0, 0)) : Balanced (s ++ [c]) :=
  hs.append_cons hplain hc nil

theorem block (hs : Balanced s) (ht : Balanced t) :
    Balanced (s ++ '\x7b' :: (t ++ ['\x7d'])) where
  complete := hs.complete.append_cons (by decide) (ht.complete.append_cons (by decide) .nil)
  closed := by
    have hinner : balance (1, 0) (lexemes t) = some (1, 0) := balance_succ ht.closed
    rw [lexemes_append_cons hs.complete (by decide), lexemes_append_cons ht.complete (by decide),
      balance_append hs.closed, balance, List.foldlM_cons]
    refine (balance_append hinner _).trans ?_
    rw [lexemes]
    rfl

end Balanced

/-- the lexemes of a text with a block behind it -/
theorem lexemes_block {s t : Text} (hs : Complete s) (ht : Complete t) (rest : Text) :
    lexemes (s ++ '\x7b' :: (t ++ ['\x7d']) ++ rest) =
      lexemes s ++ .char '\x7b' :: (lexemes t ++ .char '\x7d' :: lexemes rest) := by
  have happ : s ++ '\x7b' :: (t ++ ['\x7d']) ++ rest
      = s ++ '\x7b' :: (t ++ '\x7d' :: rest) := by simp
  rw [happ, lexemes_append_cons hs (by decide), lexemes_append_cons ht (by decide)]

/-! ## blocks in lexemes -/

theorem opening_le_ending (c : Char) (h : opening c) : ending c := by
  rw [ending, show (c == '\x7b') = true from h, Bool.or_true, Bool.true_or]

theorem holdsBlock_append {xs : List Lexeme} (h : Flat ending xs) (ys : List Lexeme) :
    holdsBlock (xs ++ ys) = holdsBlock ys := by
  have hopening : Flat opening xs := h.mono opening_le_ending
  rw [holdsBlock, hopening.scan_append, holdsBlock]

theorem holdsBlock_eq_false_iff {ls : List Lexeme} :
    holdsBlock ls = false ↔ (scan opening 0 ls).2 = [] := by
  rw [holdsBlock, Bool.not_eq_false', List.isEmpty_iff]

end PageTemplates.Css
