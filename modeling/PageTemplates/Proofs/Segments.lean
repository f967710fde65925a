import PageTemplates.Proofs.Scanning
import PageTemplates.Proofs.Trimmed

/-!
# Segments of lexemes

What the scanners cut out of the lexemes of a text are lexemes of a text again, and stay so when
the text of a segment is trimmed.

* `Lexeme.next_cut`    a lexeme that ends before the text does is cut off the same way when the text
                       ends earlier;
* `Lexed`              lexemes that their texts give back, as what follows in them does
                       (`Lexed.of_append`) and what stands before something (`Lexed.cut`);
* `flat_of_scan`, `scanBlock_inv`   where the scanners stop;
* `skipTrivia_inv`, `skipTrivia_front`   what is skipped between rules, and what is not;
* `Idle`               lexemes that neither open nor close anything;
* `exists_core`        the lexemes of a text with blanks behind it, up to idle ones at the end.
-/

namespace PageTemplates.Css

open Lexeme

/-! ## lexemes of shorter texts -/

namespace Lexeme

/-- what is cut off, without what follows it, is cut off the same way when the text ends earlier -/
theorem cut_of_append {f : Text → Text × Text} (happ : ∀ s, (f s).1 ++ (f s).2 = s)
    {s t u r : Text} (hu : ∀ x, f (u ++ x) = ((f u).1, (f u).2 ++ x))
    (h : f (s ++ t) = (u, r ++ t)) : f s = (u, r) := by
  have hs : s = u ++ r := by
    have hst := happ (s ++ t)
    rw [h, ← List.append_assoc] at hst
    exact (List.append_cancel_right hst).symm
  rw [hs, List.append_assoc, hu] at h
  obtain ⟨hbody, -⟩ := Prod.mk.inj h
  have hnil : (f u).2 = [] := by
    have hself := happ u
    rw [hbody] at hself
    exact List.append_right_eq_self.1 hself
  rw [hs, hu, hbody, hnil, List.nil_append]

/-- a string that ends before the text does -/
theorem stringBody_cut {quote : Char} (hquote : quote ≠ '\\') {s t u r : Text}
    (h : stringBody quote (s ++ t) = (u, r ++ t)) (hne : r ++ t ≠ []) :
    stringBody quote s = (u, r) := by
  have hended : isEnded quote u = true := by
    have hu : u = (stringBody quote (s ++ t)).1 := by rw [h]
    rw [hu, isEnded_stringBody hquote]
    cases hopen : isEnded quote (s ++ t) with
    | true => rfl
    | false =>
      rw [stringBody_of_not_isEnded hopen] at h
      exact absurd (Prod.mk.inj h).2.symm hne
  exact cut_of_append (stringBody_append quote) (stringBody_append_of_isEnded hquote hended) h

/-- a comment that ends before the text does -/
theorem commentBody_cut {s t u r : Text} (h : commentBody (s ++ t) = (u, r ++ t))
    (hne : r ++ t ≠ []) : commentBody s = (u, r) := by
  have hended : (Text.find? "*/".toList u).isSome = true := by
    have hsplit := h
    unfold commentBody at hsplit
    split at hsplit
    · exact absurd (Prod.mk.inj hsplit).2.symm hne
    · next i hi =>
      rw [← (Prod.mk.inj hsplit).1]
      exact Option.isSome_iff_exists.2 ⟨i, Text.find?_take hi⟩
  exact cut_of_append commentBody_append (commentBody_append_of_isSome hended) h

/-- a lexeme that ends before the text does -/
theorem next_cut {c : Char} {s t r : Text} {l : Lexeme} (h : next c (s ++ t) = (l, r ++ t))
    (hne : r ++ t ≠ []) : next c s = (l, r) := by
  by_cases hquote : c = '"' ∨ c = '\''
  · have hc : c ≠ '\\' := by rcases hquote with rfl | rfl <;> decide
    rw [next_quote hquote] at h ⊢
    obtain ⟨rfl, hrest⟩ := Prod.mk.inj h
    rw [stringBody_cut hc (Prod.ext rfl hrest) hne]
  by_cases hslash : c = '\\'
  · subst hslash
    rw [next_backslash] at h ⊢
    obtain ⟨rfl, hrest⟩ := Prod.mk.inj h
    cases s with
    | nil =>
      have hlength := congrArg List.length hrest
      rw [List.nil_append, List.length_drop, List.length_append] at hlength
      have hpos := List.length_pos_iff.2 hne
      rw [List.length_append] at hpos
      omega
    | cons d s => exact Prod.ext rfl (List.append_cancel_right hrest)
  by_cases hmark : c = '/' ∧ (s ++ t).head? = some '*'
  · obtain ⟨rfl, hstar⟩ := hmark
    cases s with
    | nil =>
      -- a comment would begin in the part that is left over
      obtain ⟨u, rfl⟩ := List.head?_eq_some_iff.1 hstar
      rw [List.nil_append, next_mark] at h
      have hlength := congrArg List.length (Prod.mk.inj h).2
      have hbody := congrArg List.length (commentBody_append u)
      rw [List.length_append] at hlength hbody
      rw [List.length_cons] at hlength
      omega
    | cons d s =>
      obtain rfl := Option.some.inj hstar
      rw [List.cons_append, next_mark] at h
      rw [next_mark]
      obtain ⟨rfl, hrest⟩ := Prod.mk.inj h
      rw [commentBody_cut (Prod.ext rfl hrest) hne]
  · rw [next_char hquote hslash hmark] at h
    obtain ⟨rfl, hrest⟩ := Prod.mk.inj h
    have hmark' : ¬ (c = '/' ∧ s.head? = some '*') := by
      rintro ⟨hc, hstar⟩
      exact hmark ⟨hc, by rw [List.head?_append, hstar]; rfl⟩
    rw [next_char hquote hslash hmark', List.append_cancel_right hrest]

end Lexeme

/-! ## lexemes of a text -/

/-- the lexemes are those of their text -/
def Lexed (ls : List Lexeme) : Prop := lexemes (Lexeme.texts ls) = ls

theorem lexed_lexemes (s : Text) : Lexed (lexemes s) := by rw [Lexed, text_lexemes]

theorem texts_append (xs ys : List Lexeme) :
    Lexeme.texts (xs ++ ys) = Lexeme.texts xs ++ Lexeme.texts ys := List.flatMap_append

theorem texts_cons {l : Lexeme} {c : Char} {s : Text} (h : l.text = c :: s) (ls : List Lexeme) :
    Lexeme.texts (l :: ls) = c :: (s ++ Lexeme.texts ls) := by
  rw [Lexeme.texts, List.flatMap_cons, h]
  rfl

namespace Lexed
variable {l : Lexeme} {ls xs ys : List Lexeme}

theorem nil : Lexed [] := lexemes_eq_nil_iff.2 rfl

/-- the first lexeme is what is cut off the text -/
theorem next_inv (h : Lexed (l :: ls)) :
    ∃ c u, l.text = c :: u ∧ Lexeme.next c (u ++ Lexeme.texts ls) = (l, Lexeme.texts ls) := by
  have hne : Lexeme.texts (l :: ls) ≠ [] := by
    intro hnil
    rw [Lexed, hnil, lexemes] at h
    cases h
  obtain ⟨c, s, hcs⟩ := List.exists_cons_of_ne_nil hne
  rw [Lexed, hcs, lexemes] at h
  obtain ⟨hl, hls⟩ := List.cons.inj h
  have hrest : (Lexeme.next c s).2 = Lexeme.texts ls := by rw [← hls, text_lexemes]
  have happ : l.text ++ Lexeme.texts ls = c :: s := hcs
  have hlength := length_next_le c s
  rw [hrest] at hlength
  cases htext : l.text with
  | nil =>
    rw [htext, List.nil_append] at happ
    rw [happ, List.length_cons] at hlength
    omega
  | cons d u =>
    rw [htext, List.cons_append] at happ
    obtain ⟨rfl, rfl⟩ := List.cons.inj happ
    exact ⟨d, u, rfl, Prod.ext hl hrest⟩

theorem tail (h : Lexed (l :: ls)) : Lexed ls := by
  obtain ⟨c, u, hcu, hnext⟩ := h.next_inv
  rw [Lexed, texts_cons hcu, lexemes, hnext] at h
  exact (List.cons.inj h).2

/-- what follows in the lexemes of a text -/
theorem of_append (h : Lexed (xs ++ ys)) : Lexed ys := by
  induction xs with
  | nil => exact h
  | cons x xs ih => exact ih h.tail

theorem texts_ne_nil (h : Lexed (l :: ls)) : Lexeme.texts (l :: ls) ≠ [] := by
  obtain ⟨c, u, hcu, -⟩ := h.next_inv
  rw [texts_cons hcu]
  exact List.cons_ne_nil _ _

/-- what stands before something in the lexemes of a text -/
theorem cut (h : Lexed (xs ++ l :: ys)) : Lexed xs := by
  induction xs with
  | nil => exact nil
  | cons x xs ih =>
    rw [List.cons_append] at h
    obtain ⟨c, u, hcu, hnext⟩ := h.next_inv
    rw [texts_append, ← List.append_assoc] at hnext
    have hne : Lexeme.texts xs ++ Lexeme.texts (l :: ys) ≠ [] :=
      List.append_ne_nil_of_right_ne_nil _ h.tail.of_append.texts_ne_nil
    rw [Lexed, texts_cons hcu, lexemes, next_cut hnext hne, ih h.tail]

end Lexed

/-! ## where scanners stop -/

section
variable {stop : Char → Bool} {parens : Nat} {ls xs ys : List Lexeme} {l : Lexeme}

/-- a scan stops outside all parentheses -/
theorem scan_inv (h : scan stop parens ls = (xs, l :: ys)) :
    l.meets stop = true ∧ (scan stop parens xs).2 = [] ∧ depth parens xs = 0 := by
  induction ls generalizing parens xs with
  | nil => cases h
  | cons m ls ih =>
    rw [scan_cons] at h
    split at h
    · next hstop =>
      obtain ⟨rfl, heq⟩ := Prod.mk.inj h
      obtain ⟨rfl, rfl⟩ := List.cons.inj heq
      exact ⟨hstop.2, rfl, hstop.1⟩
    · next hstop =>
      obtain ⟨rfl, hrest⟩ := Prod.mk.inj h
      obtain ⟨hmeets, hpassed, hdepth⟩ := ih (Prod.ext rfl hrest)
      refine ⟨hmeets, ?_, hdepth⟩
      rw [scan_cons, if_neg hstop]
      exact hpassed

/-- lexemes up to a stop -/
theorem flat_of_scan (h : (scan stop 0 ls).2 = l :: ys) :
    ls = (scan stop 0 ls).1 ++ l :: ys ∧ l.meets stop = true ∧ Flat stop (scan stop 0 ls).1 := by
  obtain ⟨hmeets, hpassed, hdepth⟩ := scan_inv (Prod.ext rfl h)
  refine ⟨?_, hmeets, hpassed, hdepth⟩
  rw [← h, scan_append]

end

/-- a block ends at the brace that closes it -/
theorem scanBlock_inv {braces parens : Nat} {ls inner rest : List Lexeme}
    (h : scanBlock braces parens ls = some (inner, rest)) :
    ls = inner ++ .char '\x7d' :: rest ∧ balance (braces, parens) inner = some (0, 0) := by
  induction ls generalizing braces parens inner with
  | nil => cases h
  | cons l ls ih =>
    rw [scanBlock_cons] at h
    split at h
    · next hturn =>
      obtain ⟨rfl, rfl⟩ := Prod.mk.inj (Option.some.inj h)
      obtain ⟨rfl, rfl, rfl⟩ := turn_eq_none hturn
      exact ⟨rfl, rfl⟩
    · next b p hturn =>
      obtain ⟨⟨i, r⟩, hblock, hpair⟩ := Option.map_eq_some_iff.1 h
      obtain ⟨rfl, rfl⟩ := Prod.mk.inj hpair
      obtain ⟨rfl, hbalance⟩ := ih hblock
      refine ⟨rfl, ?_⟩
      rw [balance, List.foldlM_cons, hturn]
      exact hbalance

/-! ## lexemes that neither open nor close anything -/

namespace Lexeme

/-- a blank or a lexeme of several characters -/
def isIdle : Lexeme → Bool
  | .char c => blankChar c
  | _ => true

variable {l : Lexeme}

theorem ne_char_of_isIdle (h : l.isIdle = true) {c : Char} (hc : blankChar c = false) :
    l ≠ .char c := by
  rintro rfl
  rw [isIdle, hc] at h
  cases h

theorem level_of_isIdle (h : l.isIdle = true) (parens : Nat) : l.level parens = parens := by
  cases l with
  | char c =>
    rw [level, if_neg, if_neg]
    · rintro rfl
      exact ne_char_of_isIdle h (c := ')') (by decide) rfl
    · rintro rfl
      exact ne_char_of_isIdle h (c := '(') (by decide) rfl
  | escape | string | comment => rfl

theorem turn_of_isIdle (h : l.isIdle = true) (opened : Nat × Nat) :
    l.turn opened = some opened := by
  have hopen : l ≠ .char '\x7b' := ne_char_of_isIdle h (by decide)
  have hclose : l ≠ .char '\x7d' := ne_char_of_isIdle h (by decide)
  rw [turn, if_neg (fun hl => hopen hl.2), if_neg (fun hl => hclose hl.2), level_of_isIdle h]

theorem meets_of_isIdle (h : l.isIdle = true) : l.meets ending = false := by
  rw [Bool.eq_false_iff]
  intro hmeets
  rcases eq_of_meets_ending hmeets with rfl | rfl | rfl <;> revert h <;> decide

end Lexeme

/-- lexemes that neither open nor close anything -/
def Idle (ls : List Lexeme) : Prop := ∀ l ∈ ls, l.isIdle = true

section
variable {xs core ys : List Lexeme}

namespace Idle

theorem nil : Idle [] := List.forall_mem_nil _

theorem cons {l : Lexeme} (hl : l.isIdle = true) (h : Idle xs) : Idle (l :: xs) :=
  List.forall_mem_cons.2 ⟨hl, h⟩

theorem balance (h : Idle xs) (opened : Nat × Nat) : balance opened xs = some opened := by
  induction xs with
  | nil => rfl
  | cons l xs ih =>
    obtain ⟨hl, hxs⟩ := List.forall_mem_cons.1 h
    rw [Css.balance, List.foldlM_cons, turn_of_isIdle hl]
    exact ih hxs

theorem passed (h : Idle xs) (parens : Nat) : (scan ending parens xs).2 = [] := by
  induction xs generalizing parens with
  | nil => rfl
  | cons l xs ih =>
    obtain ⟨hl, hxs⟩ := List.forall_mem_cons.1 h
    rw [scan_cons, if_neg, level_of_isIdle hl]
    · exact ih hxs parens
    · rw [meets_of_isIdle hl]
      simp

theorem flat (h : Idle xs) : Flat ending xs where
  passed := h.passed 0
  depth := by
    have hbalance := balance_of_passed (h.passed 0) 0
    rw [h.balance] at hbalance
    exact (Prod.mk.inj (Option.some.inj hbalance)).2.symm

end Idle

/-- what is open does not depend on idle lexemes at the ends -/
theorem balance_between_idle (hxs : Idle xs) (hys : Idle ys) (opened : Nat × Nat) :
    balance opened (xs ++ (core ++ ys)) = balance opened core := by
  rw [balance_append (hxs.balance opened), balance, List.foldlM_append]
  have hbehind : (fun o => balance o ys) = some := funext hys.balance
  exact (congrArg (Option.bind _) hbehind).trans (Option.bind_fun_some _)

theorem scan_passed_left {stop : Char → Bool} {parens : Nat}
    (h : (scan stop parens (xs ++ ys)).2 = []) : (scan stop parens xs).2 = [] := by
  induction xs generalizing parens with
  | nil => rfl
  | cons l xs ih =>
    rw [List.cons_append, scan_cons] at h
    rw [scan_cons]
    split at h
    · cases h
    · next hstop =>
      rw [if_neg hstop]
      exact ih h

/-- whether a brace is opened does not depend on idle lexemes at the ends -/
theorem holdsBlock_between_idle (hxs : Idle xs) (hys : Idle ys) :
    holdsBlock (xs ++ (core ++ ys)) = holdsBlock core := by
  rw [holdsBlock_append hxs.flat]
  cases hcore : holdsBlock core with
  | false =>
    rw [holdsBlock_eq_false_iff] at hcore ⊢
    rw [scan_append_of_passed hcore]
    exact scan_passed_mono opening_le_ending (hys.passed _)
  | true =>
    cases hall : holdsBlock (core ++ ys) with
    | true => rfl
    | false =>
      rw [holdsBlock_eq_false_iff] at hall
      rw [holdsBlock_eq_false_iff.2 (scan_passed_left hall)] at hcore
      cases hcore

end

/-! ## between rules -/

/-- what is skipped between rules has no stop in it -/
theorem skipTrivia_inv (ls : List Lexeme) :
    ∃ xs, Flat ending xs ∧ ls = xs ++ skipTrivia ls := by
  fun_induction skipTrivia ls with
  | case1 ls ih =>
    obtain ⟨xs, hxs, heq⟩ := ih
    refine ⟨.char '<' :: .char '!' :: .char '-' :: .char '-' :: xs, ?_, ?_⟩
    · exact (((hxs.cons rfl rfl).cons rfl rfl).cons rfl rfl).cons rfl rfl
    · exact congrArg (.char '<' :: .char '!' :: .char '-' :: .char '-' :: ·) heq
  | case2 ls ih =>
    obtain ⟨xs, hxs, heq⟩ := ih
    refine ⟨.char '-' :: .char '-' :: .char '>' :: xs, ?_, ?_⟩
    · exact ((hxs.cons rfl rfl).cons rfl rfl).cons rfl rfl
    · exact congrArg (.char '-' :: .char '-' :: .char '>' :: ·) heq
  | case3 t ls ih =>
    obtain ⟨xs, hxs, heq⟩ := ih
    exact ⟨.comment t :: xs, hxs.cons rfl rfl, congrArg _ heq⟩
  | case4 c ls _ _ hblank ih =>
    obtain ⟨xs, hxs, heq⟩ := ih
    have hidle : isIdle (.char c) = true := hblank
    exact ⟨.char c :: xs, hxs.cons (meets_of_isIdle hidle) (level_of_isIdle hidle 0),
      congrArg _ heq⟩
  | case5 => exact ⟨[], .nil, rfl⟩
  | case6 => exact ⟨[], .nil, rfl⟩

/-- what is left begins with neither a comment nor a blank -/
theorem skipTrivia_front {ls r : List Lexeme} {l : Lexeme} (h : skipTrivia ls = l :: r) :
    (∀ t, l ≠ .comment t) ∧ ∀ c, l = .char c → blankChar c = false := by
  fun_induction skipTrivia ls with
  | case1 ls ih => exact ih h
  | case2 ls ih => exact ih h
  | case3 t ls ih => exact ih h
  | case4 c ls _ _ hblank ih => exact ih h
  | case5 c ls _ _ hblank =>
    obtain ⟨rfl, rfl⟩ := List.cons.inj h
    constructor
    · intro t ht
      cases ht
    · intro d hd
      cases hd
      rwa [Bool.not_eq_true] at hblank
  | case6 ls hopen hclose hcomment hchar =>
    obtain rfl := h
    refine ⟨fun t ht => hcomment t r (by rw [ht]), fun c hc => ?_⟩
    exact absurd (by rw [hc]) (hchar c r)

/-! ## trimmed texts -/

theorem blankChar_plain {c : Char} (h : blankChar c = true) : Plain c := by
  rintro hc
  simp only [List.mem_cons, List.not_mem_nil, or_false] at hc
  rcases hc with rfl | rfl | rfl | rfl | rfl <;> revert h <;> decide

section
variable {b : Text}

theorem plain_blanks (h : b.isBlank = true) : ∀ c ∈ b, Plain c :=
  fun c hc => blankChar_plain (List.all_eq_true.1 h c hc)

theorem lexemes_blanks_append (h : b.isBlank = true) (s : Text) :
    lexemes (b ++ s) = lexemes b ++ lexemes s := by
  rw [lexemes_plain_append (plain_blanks h), lexemes_of_plain (plain_blanks h)]

theorem idle_blanks (h : b.isBlank = true) : Idle (lexemes b) := by
  rw [Idle, lexemes_of_plain (plain_blanks h), List.forall_mem_map]
  exact fun c hc => List.all_eq_true.1 h c hc

theorem head_blanks (h : b.isBlank = true) : b.head? ≠ some '*' := by
  intro hstar
  have hmem : '*' ∈ b := List.mem_of_mem_head? hstar
  exact absurd (List.all_eq_true.1 h _ hmem) (by decide)

end

namespace Lexeme

theorem isEnded_space {quote : Char} (hquote : quote ≠ ' ') {s : Text}
    (h : isEnded quote s = false) : isEnded quote (s ++ [' ']) = false := by
  fun_induction isEnded quote s with
  | case1 => simp [isEnded, hquote.symm]
  | case2 c s ih =>
    rw [List.cons_append, List.cons_append, isEnded]
    exact ih h
  | case3 c s hpair ih =>
    rw [Bool.or_eq_false_iff] at h
    by_cases hc : c = '\\'
    · subst hc
      cases s with
      | nil => rfl
      | cons d s => exact absurd rfl (hpair d s rfl)
    · rw [List.cons_append, isEnded_cons hc, h.1, ih h.2]
      rfl

/-- a space closes nothing but an escape -/
theorem next_space {c : Char} {s : Text} (h : (next c s).1.isClosed = false)
    (hspace : (next c (s ++ [' '])).1.isClosed = true) : c = '\\' ∧ s = [] := by
  by_cases hquote : c = '"' ∨ c = '\''
  · have hne : c ≠ '\\' ∧ c ≠ ' ' := by rcases hquote with rfl | rfl <;> decide
    rw [next_quote hquote, isClosed, isEnded_stringBody hne.1] at h hspace
    rw [isEnded_space hne.2 h] at hspace
    cases hspace
  by_cases hslash : c = '\\'
  · subst hslash
    cases s with
    | nil => exact ⟨rfl, rfl⟩
    | cons d s => cases h
  by_cases hmark : c = '/' ∧ s.head? = some '*'
  · obtain ⟨rfl, hstar⟩ := hmark
    obtain ⟨r, rfl⟩ := List.head?_eq_some_iff.1 hstar
    rw [List.cons_append, next_mark, isClosed_comment] at hspace
    rw [next_mark, isClosed_comment, Option.isSome_eq_false_iff, Option.isNone_iff_eq_none] at h
    have hinside : ¬ "*/".toList <:+: r ++ [' '] := fun hin =>
      Text.not_infix_of_find? h (Text.infix_of_infix_concat (by decide) (by decide) hin)
    rw [Text.find?_eq_none hinside] at hspace
    cases hspace
  · rw [next_char hquote hslash hmark] at h
    cases h

end Lexeme

/-- whatever blanks stand behind the text, its lexemes are those of the core and then idle ones -/
def Core (s : Text) (core : List Lexeme) : Prop :=
  ∀ b, Text.isBlank b = true → ∃ ys, Idle ys ∧ lexemes (s ++ b) = core ++ ys

/-- a text has a core if a space behind it ends everything in it -/
theorem exists_core {s : Text} (h : Complete (s ++ [' '])) : ∃ core, Core s core := by
  fun_induction lexemes s with
  | case1 => exact ⟨[], fun b hb => ⟨lexemes b, idle_blanks hb, rfl⟩⟩
  | case2 c s ih =>
    rw [Complete, List.cons_append, lexemes, List.forall_mem_cons] at h
    obtain ⟨hfirst, hrest⟩ := h
    cases hclosed : (Lexeme.next c s).1.isClosed with
    | true =>
      have hnext := fun b hb => next_append_of_isClosed hclosed (head_blanks (b := b) hb)
      rw [hnext [' '] rfl] at hrest
      obtain ⟨core, hcore⟩ := ih hrest
      refine ⟨(Lexeme.next c s).1 :: core, fun b hb => ?_⟩
      obtain ⟨ys, hidle, heq⟩ := hcore b hb
      exact ⟨ys, hidle, by rw [List.cons_append, lexemes, hnext b hb, heq]; rfl⟩
    | false =>
      obtain ⟨rfl, rfl⟩ := next_space hclosed hfirst
      refine ⟨[], fun b hb => ⟨lexemes ('\\' :: b), ?_, rfl⟩⟩
      have hdrop : Text.isBlank (b.drop 1) = true :=
        List.all_eq_true.2 fun c hc => List.all_eq_true.1 hb c (List.mem_of_mem_drop hc)
      rw [lexemes, next_backslash]
      exact (idle_blanks hdrop).cons rfl

end PageTemplates.Css
