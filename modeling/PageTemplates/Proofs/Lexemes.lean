import PageTemplates.Css.Lexeme
import PageTemplates.Proofs.Patterns

/-!
# Texts that end between lexemes

The lexemes of two texts in a row are the lexemes of both, unless the first text ends inside a
string, a comment or an escape, or its last slash meets a star.

* `Lexeme.isClosed`    nothing that follows can belong to the lexeme;
* `Complete`           a text whose lexemes are all closed; only the last one can be open;
* `lexemes_append`     a complete text in front of another text;
* `Plain`              a character that is a lexeme of its own wherever a lexeme starts.
-/

namespace PageTemplates.Css

namespace Lexeme

/-! ## closed lexemes -/

/-- whether a string is ended, after its opening quote -/
def isEnded (quote : Char) : Text → Bool
  | [] => false
  | '\\' :: _ :: s => isEnded quote s
  | c :: s => c == quote || c == '\n' || isEnded quote s

/-- whether nothing that follows the lexeme can belong to it -/
def isClosed : Lexeme → Bool
  | .char _ => true
  | .escape c => c.isSome
  | .string [] => false
  | .string (quote :: s) => isEnded quote s
  | .comment t => (Text.find? "*/".toList (t.drop 2)).isSome

theorem stringBody_of_not_isEnded {quote : Char} {s : Text} (h : isEnded quote s = false) :
    stringBody quote s = (s, []) := by
  fun_induction isEnded quote s with
  | case1 => rfl
  | case2 c s ih => rw [stringBody, ih h]
  | case3 c s hpair ih =>
    simp only [Bool.or_eq_false_iff, beq_eq_false_iff_ne] at h
    rw [stringBody, if_neg (not_or.2 h.1), ih h.2]
    exact hpair

theorem isEnded_cons {quote c : Char} (hc : c ≠ '\\') (s : Text) :
    isEnded quote (c :: s) = (c == quote || c == '\n' || isEnded quote s) := by
  rw [isEnded]
  exact fun d r h _ => hc h

theorem isEnded_stringBody {quote : Char} (hquote : quote ≠ '\\') (s : Text) :
    isEnded quote (stringBody quote s).1 = isEnded quote s := by
  fun_induction stringBody quote s with
  | case1 => rfl
  | case2 c s ih => rw [isEnded, ih, isEnded]
  | case3 c s hpair hc =>
    have hslash : c ≠ '\\' := by
      rintro rfl
      rcases hc with hc | hc
      · exact hquote hc.symm
      · exact absurd hc (by decide)
    rw [isEnded_cons hslash, isEnded_cons hslash]
    rcases hc with rfl | rfl <;> simp
  | case4 c s hpair hc ih =>
    cases s with
    | nil => rfl
    | cons d s =>
      have hslash : c ≠ '\\' := fun h => hpair d s h rfl
      rw [isEnded_cons hslash, isEnded_cons hslash, ih]

theorem stringBody_append_of_isEnded {quote : Char} (hquote : quote ≠ '\\') {s : Text}
    (h : isEnded quote s = true) (t : Text) :
    stringBody quote (s ++ t) = ((stringBody quote s).1, (stringBody quote s).2 ++ t) := by
  fun_induction isEnded quote s with
  | case1 => cases h
  | case2 c s ih => rw [List.cons_append, List.cons_append, stringBody, stringBody, ih h]
  | case3 c s hpair ih =>
    -- a backslash here would be the last character of an open string
    have hslash : c ≠ '\\' := by
      rintro rfl
      cases s with
      | nil => simp [isEnded, hquote.symm] at h
      | cons d s => exact hpair d s rfl rfl
    rw [List.cons_append, stringBody, stringBody]
    · split
      · rfl
      · next hc =>
        have hs : isEnded quote s = true := by
          rw [not_or] at hc
          simpa [hc.1, hc.2] using h
        rw [ih hs]
    · exact fun d s' hc _ => hslash hc
    · exact fun d s' hc _ => hslash hc

theorem commentBody_append_of_isSome {s : Text} (h : (Text.find? "*/".toList s).isSome)
    (t : Text) : commentBody (s ++ t) = ((commentBody s).1, (commentBody s).2 ++ t) := by
  obtain ⟨i, hi⟩ := Option.isSome_iff_exists.1 h
  have hlength : i + 2 ≤ s.length := Text.find?_add_length_le hi
  simp only [commentBody, hi, Text.find?_append hi t]
  rw [List.take_append_of_le_length hlength, List.drop_append_of_le_length hlength]

/-! ## the lexeme at the front -/

theorem next_quote {c : Char} (h : c = '"' ∨ c = '\'') (s : Text) :
    next c s = (.string (c :: (stringBody c s).1), (stringBody c s).2) := if_pos h

theorem next_backslash (s : Text) : next '\\' s = (.escape s.head?, s.drop 1) := rfl

theorem next_mark (s : Text) :
    next '/' ('*' :: s) = (.comment ('/' :: '*' :: (commentBody s).1), (commentBody s).2) := rfl

theorem next_char {c : Char} (hquote : ¬ (c = '"' ∨ c = '\'')) (hc : c ≠ '\\') {s : Text}
    (hmark : ¬ (c = '/' ∧ s.head? = some '*')) : next c s = (.char c, s) := by
  rw [next, if_neg hquote, if_neg hc]
  rintro r rfl rfl
  exact hmark ⟨rfl, rfl⟩

theorem isClosed_comment (s : Text) :
    (comment ('/' :: '*' :: (commentBody s).1)).isClosed = (Text.find? "*/".toList s).isSome := by
  show (Text.find? "*/".toList (commentBody s).1).isSome = _
  unfold commentBody
  split
  · rfl
  · next i hi =>
    rw [hi]
    exact congrArg Option.isSome (Text.find?_take hi)

/-- a closed lexeme stays as it is when the text goes on -/
theorem next_append_of_isClosed {c : Char} {s t : Text} (h : (next c s).1.isClosed)
    (ht : t.head? ≠ some '*') : next c (s ++ t) = ((next c s).1, (next c s).2 ++ t) := by
  by_cases hquote : c = '"' ∨ c = '\''
  · have hc : c ≠ '\\' := by rcases hquote with rfl | rfl <;> decide
    rw [next_quote hquote, isClosed, isEnded_stringBody hc] at h
    rw [next_quote hquote, next_quote hquote, stringBody_append_of_isEnded hc h]
  by_cases hslash : c = '\\'
  · subst hslash
    cases s with
    | nil => cases h
    | cons d s => rfl
  by_cases hmark : c = '/' ∧ s.head? = some '*'
  · obtain ⟨rfl, hstar⟩ := hmark
    obtain ⟨r, rfl⟩ := List.head?_eq_some_iff.1 hstar
    rw [next_mark, isClosed_comment] at h
    rw [List.cons_append, next_mark, next_mark, commentBody_append_of_isSome h]
  · have hmark' : ¬ (c = '/' ∧ (s ++ t).head? = some '*') := by
      rintro ⟨hc, hstar⟩
      cases s with
      | nil => exact ht hstar
      | cons d s => exact hmark ⟨hc, hstar⟩
    rw [next_char hquote hslash hmark, next_char hquote hslash hmark']

/-- a comment stands where its mark stands -/
theorem next_comment_inv {c : Char} {s t : Text} (h : (next c s).1 = .comment t) :
    "/*".toList <+: c :: s := by
  unfold next at h
  split at h
  · cases h
  · split at h
    · cases h
    · split at h
      · exact ⟨_, rfl⟩
      · cases h

theorem texts_map_char (s : Text) : texts (s.map .char) = s := by
  induction s with
  | nil => rfl
  | cons c s ih => exact congrArg (c :: ·) ih

end Lexeme

theorem lexemes_eq_nil_iff {s : Text} : lexemes s = [] ↔ s = [] := by
  constructor
  · intro h
    rw [← text_lexemes s, h]
    rfl
  · rintro rfl
    rw [lexemes]

/-! ## complete texts -/

/-- the text ends outside any string, comment and escape -/
def Complete (s : Text) : Prop := ∀ l ∈ lexemes s, l.isClosed = true

instance (s : Text) : Decidable (Complete s) := inferInstanceAs (Decidable (∀ l ∈ lexemes s, _))

theorem Complete.nil : Complete [] := by
  intro l h
  rw [lexemes] at h
  cases h

theorem lexemes_append {s t : Text} (h : Complete s) (ht : t.head? ≠ some '*') :
    lexemes (s ++ t) = lexemes s ++ lexemes t := by
  fun_induction lexemes s with
  | case1 => rfl
  | case2 c s ih =>
    unfold Complete at h
    rw [lexemes, List.forall_mem_cons] at h
    rw [List.cons_append, lexemes, Lexeme.next_append_of_isClosed h.1 ht, List.cons_append, ih h.2]

theorem Complete.append {s t : Text} (hs : Complete s) (ht : Complete t)
    (hstar : t.head? ≠ some '*') : Complete (s ++ t) := by
  unfold Complete
  rw [lexemes_append hs hstar, List.forall_mem_append]
  exact ⟨hs, ht⟩

/-! ## plain characters -/

/-- the character starts neither a string nor an escape and is no part of a comment mark -/
def Plain (c : Char) : Prop := c ∉ ['"', '\'', '\\', '/', '*']

instance (c : Char) : Decidable (Plain c) := inferInstanceAs (Decidable (c ∉ _))

theorem next_of_plain {c : Char} (hc : Plain c) (t : Text) : Lexeme.next c t = (.char c, t) := by
  simp only [Plain, List.mem_cons, List.not_mem_nil, or_false, not_or] at hc
  exact Lexeme.next_char (not_or.2 ⟨hc.1, hc.2.1⟩) hc.2.2.1 fun hmark => hc.2.2.2.1 hmark.1

theorem lexemes_cons {c : Char} (hc : Plain c) (t : Text) :
    lexemes (c :: t) = .char c :: lexemes t := by
  rw [lexemes, next_of_plain hc]

/-- a plain character behind a complete text -/
theorem lexemes_append_cons {s : Text} (hs : Complete s) {c : Char} (hc : Plain c) (t : Text) :
    lexemes (s ++ c :: t) = lexemes s ++ .char c :: lexemes t := by
  have hstar : (c :: t).head? ≠ some '*' := by
    rintro h
    obtain rfl := Option.some.inj h
    revert hc
    decide
  rw [lexemes_append hs hstar, lexemes_cons hc]

theorem Complete.append_cons {s : Text} (hs : Complete s) {c : Char} (hc : Plain c) {t : Text}
    (ht : Complete t) : Complete (s ++ c :: t) := by
  unfold Complete
  rw [lexemes_append_cons hs hc, List.forall_mem_append, List.forall_mem_cons]
  exact ⟨hs, rfl, ht⟩

/-- plain characters in front of a text -/
theorem lexemes_plain_append {s : Text} (h : ∀ c ∈ s, Plain c) (t : Text) :
    lexemes (s ++ t) = s.map .char ++ lexemes t := by
  induction s with
  | nil => rfl
  | cons c s ih =>
    rw [List.forall_mem_cons] at h
    rw [List.cons_append, lexemes_cons h.1, ih h.2]
    rfl

/-- a text of plain characters -/
theorem lexemes_of_plain {s : Text} (h : ∀ c ∈ s, Plain c) : lexemes s = s.map .char := by
  have happ := lexemes_plain_append h []
  rwa [List.append_nil, lexemes_eq_nil_iff.2 rfl, List.append_nil] at happ

theorem Complete.of_plain {s : Text} (h : ∀ c ∈ s, Plain c) : Complete s := by
  unfold Complete
  rw [lexemes_of_plain h, List.forall_mem_map]
  exact fun _ _ => rfl

end PageTemplates.Css
