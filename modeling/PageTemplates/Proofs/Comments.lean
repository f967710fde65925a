import PageTemplates.Proofs.Segments

/-!
# Comments in preludes and selectors

The scanner takes comments for lexemes of their own; what is stored of a prelude or a selector is
its text without what stands between `/*` and `*/`, which is looked for in the text.  Both agree on
a text in which `/*` stands at the beginnings of comments only.  In a string, or between an escaped
slash and a star, the text from such a mark on is lost up to the next `*/`.

* `uncommented`             the text of lexemes without the comments;
* `Unmasked`                no mark stands where no comment begins;
* `Lexed.shape`             how the first lexeme is cut off;
* `stripComments_lexeme`    what is stripped behind the first lexeme of a text;
* `stripComments_unmasked`  the same behind several lexemes;
* `stripComments_scanned`   what is stored of a prelude or a selector.
-/

namespace PageTemplates.Css

open Lexeme

/-- the mark that opens a comment -/
def commentMark : Text := "/*".toList

def Lexeme.isComment : Lexeme → Bool
  | .comment _ => true
  | _ => false

def Lexeme.isString : Lexeme → Bool
  | .string _ => true
  | _ => false

/-- the text of lexemes without the comments -/
def uncommented (ls : List Lexeme) : Text := Lexeme.texts (ls.filter fun l => !l.isComment)

/-- the mark of a comment stands in no string, and no escaped slash stands before a star -/
structure Unmasked (ls : List Lexeme) : Prop where
  strings : ∀ l ∈ ls, l.isString = true → ¬ commentMark <:+: l.text
  escapes : ¬ [.escape (some '/'), .char '*'] <:+: ls

instance (ls : List Lexeme) : Decidable (Unmasked ls) :=
  decidable_of_iff ((∀ l ∈ ls, l.isString = true → ¬ commentMark <:+: l.text) ∧
      ¬ [.escape (some '/'), .char '*'] <:+: ls)
    ⟨fun h => ⟨h.1, h.2⟩, fun h => ⟨h.strings, h.escapes⟩⟩

/-! ## the text up to a mark -/

/-- what follows the first end of a comment, without comments; nothing if no comment ends -/
def pastComment (s : Text) : Text :=
  match Text.find? "*/".toList s with
  | none => []
  | some i => stripComments (s.drop (i + 2))

section
variable {u v : Text}

theorem stripComments_of_find? {s : Text} {i : Nat} (h : Text.find? commentMark s = some i) :
    stripComments s = s.take i ++ pastComment (s.drop (i + 2)) := by
  rw [commentMark] at h
  rw [stripComments, h]
  dsimp only
  unfold pastComment
  split
  · next hend =>
    rw [hend, List.append_nil]
  · next j hend =>
    rw [hend]

theorem stripComments_of_find?_none {s : Text} (h : Text.find? commentMark s = none) :
    stripComments s = s := by
  rw [commentMark] at h
  rw [stripComments, h]

/-- a text in which no mark begins stays in front of what follows it -/
theorem stripComments_append
    (h : Text.find? commentMark (u ++ v) = (Text.find? commentMark v).map (· + u.length)) :
    stripComments (u ++ v) = u ++ stripComments v := by
  cases hv : Text.find? commentMark v with
  | none =>
    rw [hv] at h
    rw [stripComments_of_find?_none h, stripComments_of_find?_none hv]
  | some i =>
    rw [hv, Option.map_some, Nat.add_comm] at h
    rw [stripComments_of_find? h, stripComments_of_find? hv, Nat.add_assoc,
      List.take_length_add_append, List.drop_length_add_append, List.append_assoc]

/-- from its first mark on a text is lost up to the next end of a comment -/
theorem stripComments_mark (h : ¬ commentMark <:+: u) :
    stripComments (u ++ (commentMark ++ v)) = u ++ pastComment v := by
  have hfind : Text.find? commentMark (u ++ (commentMark ++ v)) = some u.length :=
    Text.find?_append_self (by decide) h v
  have hdrop : (u ++ (commentMark ++ v)).drop (u.length + 2) = v := by
    rw [List.drop_length_add_append]
    rfl
  rw [stripComments_of_find? hfind, List.take_left, hdrop]

end

/-! ## behind a lexeme -/

/-- how a lexeme is cut off in front of the text of others -/
inductive Shape (ls : List Lexeme) : Lexeme → Prop where
  | string (q : Char) (s : Text) (quote : q = '"' ∨ q = '\'')
      (rest : Lexeme.texts ls = (stringBody q s).2) : Shape ls (.string (q :: (stringBody q s).1))
  | ended (rest : Lexeme.texts ls = []) : Shape ls (.escape none)
  | escape (c : Char) : Shape ls (.escape (some c))
  | comment (s : Text) (rest : Lexeme.texts ls = (commentBody s).2) :
      Shape ls (.comment ('/' :: '*' :: (commentBody s).1))
  | char (c : Char) (unmarked : ¬ (c = '/' ∧ (Lexeme.texts ls).head? = some '*')) :
      Shape ls (.char c)

theorem Lexed.shape {l : Lexeme} {ls : List Lexeme} (h : Lexed (l :: ls)) : Shape ls l := by
  obtain ⟨c, u, -, hnext⟩ := h.next_inv
  generalize u ++ Lexeme.texts ls = s at hnext
  by_cases hquote : c = '"' ∨ c = '\''
  · rw [next_quote hquote] at hnext
    obtain ⟨rfl, hrest⟩ := Prod.mk.inj hnext
    exact .string c s hquote hrest.symm
  by_cases hslash : c = '\\'
  · subst hslash
    rw [next_backslash] at hnext
    obtain ⟨rfl, hrest⟩ := Prod.mk.inj hnext
    cases s with
    | nil => exact .ended hrest.symm
    | cons d s => exact .escape d
  by_cases hmark : c = '/' ∧ s.head? = some '*'
  · obtain ⟨rfl, hstar⟩ := hmark
    obtain ⟨r, rfl⟩ := List.head?_eq_some_iff.1 hstar
    rw [next_mark] at hnext
    obtain ⟨rfl, hrest⟩ := Prod.mk.inj hnext
    exact .comment r hrest.symm
  · rw [next_char hquote hslash hmark] at hnext
    obtain ⟨rfl, rfl⟩ := Prod.mk.inj hnext
    exact .char c hmark

/-- a string that ends before the text does ends with its quote or with the line -/
theorem exists_stringBody_end {quote : Char} {s : Text} (h : (stringBody quote s).2 ≠ []) :
    ∃ u d, (stringBody quote s).1 = u ++ [d] ∧ (d = quote ∨ d = '\n') := by
  fun_induction stringBody quote s with
  | case1 => exact absurd rfl h
  | case2 c s ih =>
    obtain ⟨u, d, hu, hd⟩ := ih h
    exact ⟨'\\' :: c :: u, d, by rw [hu]; rfl, hd⟩
  | case3 c s _ hc => exact ⟨[], c, rfl, hc⟩
  | case4 c s _ _ ih =>
    obtain ⟨u, d, hu, hd⟩ := ih h
    exact ⟨c :: u, d, by rw [hu]; rfl, hd⟩

/-- no mark begins in a string without marks, whatever follows it -/
theorem find?_string {quote : Char} (hquote : quote = '"' ∨ quote = '\'') {s : Text}
    (h : ¬ commentMark <:+: quote :: (stringBody quote s).1) :
    Text.find? commentMark (quote :: (stringBody quote s).1 ++ (stringBody quote s).2)
      = (Text.find? commentMark (stringBody quote s).2).map
          (· + (quote :: (stringBody quote s).1).length) := by
  by_cases hrest : (stringBody quote s).2 = []
  · rw [hrest, List.append_nil, Text.find?_eq_none h]
    rfl
  · obtain ⟨u, d, hu, hd⟩ := exists_stringBody_end hrest
    have hmark : d ∉ commentMark := by
      rcases hd with rfl | rfl
      · rcases hquote with rfl | rfl <;> decide
      · decide
    have hbody : ¬ commentMark <:+: quote :: u := by
      rw [hu, ← List.cons_append] at h
      exact fun hinside => h (hinside.trans (List.prefix_append _ _).isInfix)
    rw [hu, ← List.cons_append, List.append_assoc, List.singleton_append,
      Text.find?_append_cons hmark hbody, List.length_append, List.length_singleton]

/-- a closed comment is stripped; an open one is the last lexeme -/
theorem stripComments_comment (s : Text) :
    stripComments ('/' :: '*' :: s) = stripComments (commentBody s).2 := by
  have hmark : stripComments ([] ++ (commentMark ++ s)) = [] ++ pastComment s :=
    stripComments_mark (by decide)
  refine hmark.trans ?_
  cases hend : Text.find? "*/".toList s with
  | none =>
    rw [List.nil_append, pastComment, commentBody, hend]
    exact (stripComments_of_find?_none rfl).symm
  | some i => rw [List.nil_append, pastComment, commentBody, hend]

theorem mark_prefix_cons_iff {c : Char} {s : Text} :
    commentMark <+: c :: s ↔ c = '/' ∧ s.head? = some '*' := by
  constructor
  · rintro ⟨t, ht⟩
    obtain ⟨rfl, rfl⟩ := List.cons.inj ht
    exact ⟨rfl, rfl⟩
  · rintro ⟨rfl, hstar⟩
    obtain ⟨t, rfl⟩ := List.head?_eq_some_iff.1 hstar
    exact ⟨t, rfl⟩

/-- a star at the front of a text is a lexeme -/
theorem Lexed.head?_eq_star {ls : List Lexeme} (h : Lexed ls)
    (hstar : (Lexeme.texts ls).head? = some '*') : ls.head? = some (.char '*') := by
  obtain ⟨s, hs⟩ := List.head?_eq_some_iff.1 hstar
  rw [← h, hs, lexemes, next_char (by decide) (by decide) (fun hmark => by cases hmark.1)]
  rfl

/-- what is stripped behind a lexeme is what is stripped of the text behind it -/
theorem stripComments_lexeme {l : Lexeme} {ls : List Lexeme} (h : Lexed (l :: ls))
    (hstring : l.isString = true → ¬ commentMark <:+: l.text)
    (hescape : l = .escape (some '/') → ls.head? ≠ some (.char '*')) :
    stripComments (Lexeme.texts (l :: ls))
      = uncommented [l] ++ stripComments (Lexeme.texts ls) := by
  have htexts : Lexeme.texts (l :: ls) = l.text ++ Lexeme.texts ls := rfl
  rw [htexts]
  cases h.shape with
  | string q s hq hls =>
    have hkept : uncommented [.string (q :: (stringBody q s).1)] = q :: (stringBody q s).1 :=
      List.append_nil _
    rw [hkept, hls]
    exact stripComments_append (find?_string hq (hstring rfl))
  | ended hls =>
    rw [hls]
    exact (stripComments_of_find?_none rfl).trans (by rw [stripComments_of_find?_none rfl]; rfl)
  | escape c =>
    have hfront : ¬ commentMark <+: '\\' :: c :: Lexeme.texts ls := by
      rw [mark_prefix_cons_iff]
      exact fun hmark => absurd hmark.1 (by decide)
    have hbehind : ¬ commentMark <+: c :: Lexeme.texts ls := by
      rw [mark_prefix_cons_iff]
      rintro ⟨rfl, hstar⟩
      exact hescape rfl (h.tail.head?_eq_star hstar)
    refine stripComments_append (u := ['\\', c]) ?_
    rw [List.cons_append, List.cons_append, List.nil_append, Text.find?_cons hfront,
      Text.find?_cons hbehind, Option.map_map]
    rfl
  | comment s hls =>
    have happ : (Lexeme.comment ('/' :: '*' :: (commentBody s).1)).text ++ Lexeme.texts ls
        = '/' :: '*' :: s := by
      rw [hls]
      exact congrArg ('/' :: '*' :: ·) (commentBody_append s)
    rw [happ, hls]
    exact stripComments_comment s
  | char c hmark =>
    exact stripComments_append (u := [c]) (Text.find?_cons (mt mark_prefix_cons_iff.1 hmark))

theorem uncommented_cons (l : Lexeme) (ls : List Lexeme) :
    uncommented (l :: ls) = uncommented [l] ++ uncommented ls := by
  unfold uncommented
  rw [← texts_append, ← List.filter_append]
  rfl

/-! ## behind several lexemes -/

section
variable {l : Lexeme} {xs ys : List Lexeme}

theorem Unmasked.tail (h : Unmasked (l :: xs)) : Unmasked xs where
  strings m hm := h.strings m (List.mem_cons_of_mem l hm)
  escapes hinside := h.escapes (hinside.trans (List.suffix_cons l xs).isInfix)

/-- what is stripped behind lexemes without stray marks is what is stripped of the text behind
them -/
theorem stripComments_unmasked (h : Lexed (xs ++ ys)) (hxs : Unmasked xs)
    (hys : ys.head? ≠ some (.char '*')) :
    stripComments (Lexeme.texts (xs ++ ys))
      = uncommented xs ++ stripComments (Lexeme.texts ys) := by
  induction xs with
  | nil => rfl
  | cons l xs ih =>
    have hescape : l = .escape (some '/') → (xs ++ ys).head? ≠ some (.char '*') := by
      rintro rfl hstar
      cases xs with
      | nil => exact hys hstar
      | cons m xs =>
        obtain rfl := Option.some.inj hstar
        exact hxs.escapes (List.prefix_append [_, _] xs).isInfix
    have hlexeme : Lexed (l :: (xs ++ ys)) := h
    refine (stripComments_lexeme hlexeme (hxs.strings l List.mem_cons_self) hescape).trans ?_
    rw [ih hlexeme.tail hxs.tail, uncommented_cons l xs, List.append_assoc]

end

/-- the lexemes up to a stop are those of a text -/
theorem lexed_scan (stop : Char → Bool) (s : Text) : Lexed (scan stop 0 (lexemes s)).1 := by
  have happ := scan_append stop 0 (lexemes s)
  cases hrest : (scan stop 0 (lexemes s)).2 with
  | nil =>
    rw [hrest, List.append_nil] at happ
    rw [happ]
    exact lexed_lexemes s
  | cons l ys =>
    rw [hrest] at happ
    have hlexed := lexed_lexemes s
    rw [← happ] at hlexed
    exact hlexed.cut

/-- **What is stored of a prelude or a selector.**  Where `/*` begins comments only, it is the
scanned text without the comments.  Where the text of some lexemes has a mark that begins no
comment, as in a string, it is lost from the mark on up to the next `*/`: what stands before the
mark is `u`, and `pastComment` follows it. -/
theorem stripComments_scanned (stop : Char → Bool) (s : Text) :
    let xs := (scan stop 0 (lexemes s)).1
    (Unmasked xs → tidy xs = Text.trim (uncommented xs)) ∧
    ∀ ys zs u v, xs = ys ++ zs → Unmasked ys → zs.head? ≠ some (.char '*') →
      Lexeme.texts zs = u ++ (commentMark ++ v) → ¬ commentMark <:+: u →
      tidy xs = Text.trim (uncommented ys ++ (u ++ pastComment v)) := by
  intro xs
  have hlexed : Lexed xs := lexed_scan stop s
  constructor
  · intro hxs
    rw [← List.append_nil xs] at hlexed
    have hall := stripComments_unmasked hlexed hxs nofun
    have hnil : stripComments (Lexeme.texts []) = [] := stripComments_of_find?_none rfl
    rw [List.append_nil, hnil, List.append_nil] at hall
    rw [tidy, hall]
  · intro ys zs u v hsplit hys hstar hmark hu
    rw [hsplit] at hlexed
    rw [hsplit, tidy, stripComments_unmasked hlexed hys hstar, hmark, stripComments_mark hu]

/-- a comment between two strings is cut out, and the mark in a string is one, too -/
theorem stripComments_scanned_path :
    tidy (scan ending 0 (lexemes "a/* \" */[b=\"*/\"]\\/ /**/c \x7b".toList)).1
      = "a[b=\"*/\"]\\/ c".toList ∧
    tidy (scan ending 0 (lexemes "a/**/[href=\"x/*.css\"] /**/ b \x7b".toList)).1
      = "a[href=\"x b".toList := by
  constructor
  · have hstored := (stripComments_scanned ending "a/* \" */[b=\"*/\"]\\/ /**/c \x7b".toList).1
    refine (hstored ?_).trans ?_ <;> decide +kernel
  · refine ((stripComments_scanned ending "a/**/[href=\"x/*.css\"] /**/ b \x7b".toList).2
      (lexemes "a/**/[href=".toList) (lexemes "\"x/*.css\"] /**/ b ".toList)
      "\"x".toList ".css\"] /**/ b ".toList ?_ ?_ ?_ ?_ ?_).trans ?_
    all_goals decide +kernel

/-- the selector of an attribute with a path ends at the mark in its string -/
theorem stripComments_scanned_string :
    let xs := (scan ending 0 (lexemes "a[href=\"/*\"] \x7b b: c \x7d".toList)).1
    Text.trim (uncommented xs) = "a[href=\"/*\"]".toList ∧ tidy xs = "a[href=\"".toList := by
  decide +kernel

end PageTemplates.Css
