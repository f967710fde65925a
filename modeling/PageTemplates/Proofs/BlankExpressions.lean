import PageTemplates.Proofs.AttributeValues

/-!
# Expressions that are not blank

What is read as an expression is not blank: a blank placeholder is literal text, and a blank
condition is an error, in braces or not.  The list of a repetition is an exception.  It is tested
before its braces are taken off, so that it is empty if they are all that is written.

* `Fragment.join_append_join`        joining what has been joined;
* `Placeholder.pieces_append`        a text behind which no placeholder is open;
* `Placeholder.fragments_blank`, `Placeholder.fragments_blank_end`   blank placeholders;
* `Condition.ofText_eq_error_iff`, `Repetition.ofText_cases`         directives;
* `Expression.dotted_read`           everything that is read as an expression.
-/

namespace PageTemplates

/-! ## fragments side by side -/

namespace Fragment

theorem foldr_cons_cons (f : Fragment) (fs gs : List Fragment) :
    (cons f fs).foldr cons gs = cons f (fs.foldr cons gs) := by
  cases f with
  | expression e => rfl
  | text s =>
    cases fs with
    | nil => rfl
    | cons g fs =>
      cases g with
      | expression e => rfl
      | text t => exact (cons_text_cons s t _).symm

theorem foldr_cons_join (fs gs : List Fragment) :
    (join fs).foldr cons gs = fs.foldr cons gs := by
  induction fs with
  | nil => rfl
  | cons f fs ih =>
    show (cons f (join fs)).foldr cons gs = cons f (fs.foldr cons gs)
    rw [foldr_cons_cons, ih]

/-- it makes no difference whether parts are joined before the whole is -/
theorem join_append_join (fs : List Fragment) (f : Fragment) (gs : List Fragment) :
    join (join fs ++ f :: join gs) = join (fs ++ f :: gs) := by
  have hrest : (f :: join gs).foldr cons [] = (f :: gs).foldr cons [] :=
    congrArg (cons f) (foldr_cons_join gs [])
  unfold join at hrest ⊢
  rw [List.foldr_append, List.foldr_append, hrest]
  exact foldr_cons_join fs _

end Fragment

/-! ## blank placeholders -/

theorem isBrace_of_isBlank {s : Text} (h : Text.isBlank s = true) : ∀ c ∈ s, isBrace c = false := by
  intro c hc
  apply Bool.eq_false_iff.2
  intro hbrace
  have hblank := List.all_eq_true.1 h c hc
  rcases Bool.or_eq_true_iff.1 hbrace with hbrace | hbrace
  · rw [eq_of_beq hbrace] at hblank
    exact absurd hblank (by decide)
  · rw [eq_of_beq hbrace] at hblank
    exact absurd hblank (by decide)

theorem unbraced_of_isBlank {s : Text} (h : Text.isBlank s = true) :
    (∀ c ∈ s.head?, c ≠ '{') ∧ '}' ∉ s := by
  have hplain := isBrace_of_isBlank h
  refine ⟨?_, fun hmem => absurd (hplain _ hmem) (by decide)⟩
  rintro c hc rfl
  exact absurd (hplain _ (List.mem_of_mem_head? hc)) (by decide)

namespace Placeholder

/-- no placeholder is still open behind a text -/
def Settled (s : Text) : Prop := ∀ tail, Piece.unclosed tail ∉ pieces s

theorem pieces_lone {s : Text} (h : s.head? ≠ some '}') :
    pieces ('}' :: s) = .literal '}' :: pieces s := by
  have hbrace : '}' ≠ '{' := by decide
  rw [pieces]
  · exact fun _ he => absurd he hbrace
  · rintro r - rfl
    exact h rfl
  · exact fun he => absurd he hbrace

theorem pieces_unclosed {s : Text} (hopen : ∀ c ∈ s.head?, c ≠ '{') (h : '}' ∉ s) :
    pieces ('{' :: s) = [.unclosed s] := by
  have hsince : Text.since closing s = [] :=
    Text.since_eq_nil fun c hc => beq_false_of_ne fun he => h (he ▸ hc)
  rw [pieces]
  · split
    · rfl
    · next heq =>
      rw [hsince] at heq
      cases heq
  · rintro r rfl
    exact hopen '{' rfl rfl

theorem pieces_append {s t : Text} (h : Settled s) (ht : t.head? ≠ some '}') :
    pieces (s ++ t) = pieces s ++ pieces t := by
  unfold Settled at h
  fun_induction pieces s with
  | case1 => rfl
  | case2 s ih =>
    rw [List.cons_append, List.cons_append, pieces_doubled rfl, ih]
    · rfl
    · exact fun tail htail => h tail (List.mem_cons_of_mem _ htail)
  | case3 s ih =>
    rw [List.cons_append, List.cons_append, pieces_doubled rfl, ih]
    · rfl
    · exact fun tail htail => h tail (List.mem_cons_of_mem _ htail)
  | case4 s hdouble hnone => exact absurd List.mem_cons_self (h s)
  | case5 s hdouble d rest hsince ih =>
    have hclosing : closing d = true := Text.eq_true_of_since hsince
    have hd : d = '}' := eq_of_beq hclosing
    have hwhole := Text.upTo_append_since closing s
    rw [hsince, hd] at hwhole
    have hopen : ∀ c ∈ (Text.upTo closing s).head?, c ≠ '{' := by
      rintro c hc rfl
      obtain ⟨r, hr⟩ := List.head?_eq_some_iff.1 hc
      rw [hr] at hwhole
      exact hdouble _ hwhole.symm
    have hsplit : '{' :: s ++ t = '{' :: Text.upTo closing s ++ '}' :: (rest ++ t) := by
      conv_lhs => rw [← hwhole]
      simp only [List.cons_append, List.append_assoc]
    rw [hsplit, pieces_braced hopen (not_mem_upTo s), ih]
    · rfl
    · exact fun tail htail => h tail (List.mem_cons_of_mem _ htail)
  | case6 c s h1 h2 h3 ih =>
    have hs : pieces (c :: (s ++ t)) = .literal c :: pieces (s ++ t) := by
      by_cases hc : c = '}'
      · rw [hc]
        refine pieces_lone ?_
        cases s with
        | nil => exact ht
        | cons d s => exact fun hd => h2 s hc (congrArg (· :: s) (Option.some.inj hd))
      · refine pieces_char ?_ _
        simpa [isBrace] using And.intro h3 hc
    rw [List.cons_append, hs, ih]
    · rfl
    · exact fun tail htail => h tail (List.mem_cons_of_mem _ htail)

/-- one piece between others -/
theorem fragments_of_pieces {source s t : Text} {p : Piece}
    (h : pieces source = pieces s ++ p :: pieces t) :
    fragments source = Fragment.join (fragments s ++ p.fragment :: fragments t) := by
  unfold fragments
  rw [h, List.map_append, List.map_cons, Fragment.join_append_join]

section
variable {s inner : Text} (hs : Settled s) (h : Text.isBlank inner = true)
include hs h

/-- a blank placeholder is literal text -/
theorem fragments_blank (t : Text) : fragments (s ++ '{' :: (inner ++ '}' :: t))
    = Fragment.join (fragments s ++ .text ('{' :: (inner ++ ['}'])) :: fragments t) := by
  obtain ⟨hopen, hclose⟩ := unbraced_of_isBlank h
  have htext : (Piece.braced inner).fragment = .text ('{' :: (inner ++ ['}'])) := if_pos h
  rw [← htext]
  apply fragments_of_pieces
  rw [pieces_append hs (fun hbrace => absurd hbrace (by simp)), ← List.cons_append,
    pieces_braced hopen hclose]

/-- so is one that is never closed -/
theorem fragments_blank_end :
    fragments (s ++ '{' :: inner) = Fragment.join (fragments s ++ [.text ('{' :: inner)]) := by
  obtain ⟨hopen, hclose⟩ := unbraced_of_isBlank h
  have htext : (Piece.unclosed inner).fragment = .text ('{' :: inner) := if_pos h
  have hpieces : pieces (s ++ '{' :: inner) = pieces s ++ .unclosed inner :: pieces [] := by
    rw [pieces_append hs (fun hbrace => absurd hbrace (by simp)), pieces_unclosed hopen hclose,
      pieces]
  have hnone : fragments [] = [] := fragments_of_plain (List.forall_mem_nil _)
  rw [fragments_of_pieces hpieces, htext, hnone]

end

end Placeholder

/-! ## attribute values -/

/-- whether an expression is read from a value -/
def Binding.Reads (b : Binding) (e : Expression) : Prop :=
  b = .expression e ∨ ∃ fs, b = .template fs ∧ .expression e ∈ fs

theorem Placeholder.dotted_of_mem_fragments {source : Text} {e : Expression}
    (h : .expression e ∈ fragments source) : e.dotted ≠ [] := by
  have hproper : e.Proper := (canonical_fragments source).proper _ h
  exact hproper.dotted_ne_nil

theorem Binding.dotted_of_reads {value : Text} {e : Expression} (h : (ofText value).Reads e) :
    e.dotted ≠ [] := by
  rcases h with h | ⟨fs, h, hmem⟩
  · obtain ⟨inner, hinner, -, rfl⟩ := ofText_eq_expression_iff.1 h
    exact fun hnil => hinner.nonblank (Expression.dotted_ofText_eq_nil_iff.1 hnil)
  · have hbare : ∀ inner, Bare inner → value ≠ '{' :: (inner ++ ['}']) := by
      rintro inner hinner rfl
      rw [ofText_of_bare hinner] at h
      cases h
    rw [ofText_of_not_bare hbare] at h
    obtain ⟨-, rfl⟩ := ofFragments_eq_template_iff.1 h
    exact Placeholder.dotted_of_mem_fragments hmem

/-- a blank placeholder that is all of a value is plain text -/
theorem Binding.ofText_blank {inner : Text} (h : Text.isBlank inner = true) :
    ofText ('{' :: (inner ++ ['}'])) = .text ('{' :: (inner ++ ['}'])) := by
  have hbare : ∀ inner', Bare inner' → '{' :: (inner ++ ['}']) ≠ '{' :: (inner' ++ ['}']) := by
    intro inner' hinner' heq
    obtain rfl : inner = inner' := List.append_cancel_right (List.cons.inj heq).2
    exact hinner'.nonblank h
  have hsettled : Placeholder.Settled [] := by
    intro tail htail
    rw [Placeholder.pieces] at htail
    cases htail
  have hnone : Placeholder.fragments [] = [] :=
    Placeholder.fragments_of_plain (List.forall_mem_nil _)
  have hfragments := Placeholder.fragments_blank hsettled h []
  rw [hnone] at hfragments
  rw [ofText_of_not_bare hbare]
  exact (congrArg ofFragments hfragments).trans (congrArg Binding.text (List.append_nil _))

/-! ## directives -/

theorem isBlank_trim {s : Text} : Text.isBlank (Text.trim s) = true ↔ Text.isBlank s = true := by
  rw [Text.isBlank_iff_trim_eq_nil, Text.trim_trim, Text.isBlank_iff_trim_eq_nil]

/-- what is left without the braces around a trimmed text is blank if there is nothing else -/
theorem isBlank_unbraced {s : Text} :
    Text.isBlank ((unbrace? (Text.trim s)).getD (Text.trim s)) = true ↔ Text.isBlank s = true ∨
      ∃ inner, Text.isBlank inner = true ∧ Text.trim s = '{' :: (inner ++ ['}']) := by
  cases hinner : unbrace? (Text.trim s) with
  | none =>
    rw [Option.getD_none, isBlank_trim]
    refine (or_iff_left ?_).symm
    rintro ⟨inner, -, hs⟩
    rw [unbrace?_eq_some_iff.2 hs] at hinner
    cases hinner
  | some inner =>
    have hs := unbrace?_eq_some_iff.1 hinner
    rw [Option.getD_some, Text.isBlank_iff_trim_eq_nil (s := s), hs]
    constructor
    · exact fun hblank => .inr ⟨inner, hblank, rfl⟩
    · rintro (hnil | ⟨inner', hblank, heq⟩)
      · cases hnil
      · obtain rfl : inner = inner' := List.append_cancel_right (List.cons.inj heq).2
        exact hblank

namespace Condition

theorem ofText_eq_error_iff {value : Text} :
    ofText value = .error .emptyCondition ↔ Text.isBlank value = true ∨
      ∃ inner, Text.isBlank inner = true ∧ Text.trim value = '{' :: (inner ++ ['}']) := by
  rw [← isBlank_unbraced]
  unfold ofText
  dsimp only
  split
  · next hblank => exact iff_of_true rfl hblank
  · next hblank => exact iff_of_false nofun hblank

theorem dotted_of_ok {value : Text} {e : Expression} (h : ofText value = .ok e) :
    e.dotted ≠ [] := by
  unfold ofText at h
  dsimp only at h
  split at h
  · cases h
  · next hblank =>
    cases h
    exact fun hnil => hblank (Expression.dotted_ofText_eq_nil_iff.1 hnil)

end Condition

namespace Repetition

/-- what stands behind the first ` in ` of a value, without the blanks around it -/
def list? (value : Text) : Option Text :=
  (Text.find? " in ".toList value).map fun i => Text.trim (value.drop (i + 4))

theorem ofText_cases (value : Text) :
    ofText value = .error (.invalidRepeat value) ∨
      ∃ t item, list? value = some t ∧ t ≠ [] ∧
        ofText value = .ok ⟨item, .ofText ((unbrace? t).getD t)⟩ := by
  unfold ofText
  dsimp only
  split
  · exact .inl rfl
  · next i hfind =>
    split
    · exact .inl rfl
    · next hterms =>
      have hlist : list? value = some (Text.trim (value.drop (i + 4))) := by
        unfold list?
        rw [hfind]
        rfl
      rw [Bool.or_eq_true, not_or, List.isEmpty_iff] at hterms
      exact .inr ⟨_, _, hlist, hterms.2, rfl⟩

/-- the list is blank if only braces are written around blanks -/
theorem dotted_of_ok {value : Text} {r : Repetition} (h : ofText value = .ok r) :
    r.each.dotted = [] ↔
      ∃ inner, Text.isBlank inner = true ∧ list? value = some ('{' :: (inner ++ ['}'])) := by
  rcases ofText_cases value with herror | ⟨t, item, hlist, hne, hok⟩
  · rw [herror] at h
    cases h
  · rw [hok] at h
    cases h
    obtain ⟨i, -, rfl⟩ := Option.map_eq_some_iff.1 hlist
    rw [Expression.dotted_ofText_eq_nil_iff, isBlank_unbraced, Text.isBlank_iff_trim_eq_nil,
      or_iff_right hne, hlist]
    simp only [Option.some.injEq]

/-- a blank list is an error -/
theorem ofText_of_blank {value : Text} (h : list? value = some []) :
    ofText value = .error (.invalidRepeat value) := by
  rcases ofText_cases value with herror | ⟨t, item, hlist, hne, -⟩
  · exact herror
  · rw [h] at hlist
    exact absurd (Option.some.inj hlist).symm hne

end Repetition

/-- **Nothing blank is read as an expression, but for one case.**  The expressions of a text, of an
attribute value and of a condition have a dotted path that is not empty; that of a repetition is
empty if and only if nothing but blanks stands in braces behind its ` in `.  A blank placeholder is
literal text, whatever stands in front of it and whether it is closed; a blank condition is an
error, in braces or not, and so is a blank list without braces. -/
theorem Expression.dotted_read (value : Text) :
    (∀ e, .expression e ∈ Placeholder.fragments value → e.dotted ≠ []) ∧
    (∀ e, (Binding.ofText value).Reads e → e.dotted ≠ []) ∧
    (∀ e, Condition.ofText value = .ok e → e.dotted ≠ []) ∧
    (∀ r, Repetition.ofText value = .ok r → (r.each.dotted = [] ↔
      ∃ inner, Text.isBlank inner = true ∧
        Repetition.list? value = some ('{' :: (inner ++ ['}'])))) ∧
    (Placeholder.Settled value → ∀ inner, Text.isBlank inner = true →
      (∀ t, Placeholder.fragments (value ++ '{' :: (inner ++ '}' :: t))
        = Fragment.join (Placeholder.fragments value ++ .text ('{' :: (inner ++ ['}']))
          :: Placeholder.fragments t)) ∧
      Placeholder.fragments (value ++ '{' :: inner)
        = Fragment.join (Placeholder.fragments value ++ [.text ('{' :: inner)])) ∧
    (Text.isBlank value = true →
      Binding.ofText ('{' :: (value ++ ['}'])) = .text ('{' :: (value ++ ['}']))) ∧
    (Condition.ofText value = .error .emptyCondition ↔ Text.isBlank value = true ∨
      ∃ inner, Text.isBlank inner = true ∧ Text.trim value = '{' :: (inner ++ ['}'])) ∧
    (Repetition.list? value = some [] →
      Repetition.ofText value = .error (.invalidRepeat value)) := by
  refine ⟨fun _ => Placeholder.dotted_of_mem_fragments, fun _ => Binding.dotted_of_reads,
    fun _ => Condition.dotted_of_ok, fun _ => Repetition.dotted_of_ok, ?_,
    Binding.ofText_blank, Condition.ofText_eq_error_iff, Repetition.ofText_of_blank⟩
  exact fun hs inner h =>
    ⟨Placeholder.fragments_blank hs h, Placeholder.fragments_blank_end hs h⟩

/-- a blank placeholder behind an expression, a blank condition in braces, and a list that is not
blank in more braces than one pair -/
theorem Expression.dotted_read_blanks :
    Placeholder.Settled "a\x7bb\x7d".toList ∧ Text.isBlank " \t".toList = true ∧
    Placeholder.fragments "a\x7bb\x7d\x7b \t\x7dc".toList
      = [.text "a".toList, .expression ⟨["b".toList]⟩, .text "\x7b \t\x7dc".toList] ∧
    Condition.ofText " \x7b \t\x7d".toList = .error .emptyCondition ∧
    Repetition.ofText "i in \x7b\x7b\x7d\x7d".toList
      = .ok ⟨"i".toList, ⟨["\x7b\x7d".toList]⟩⟩ ∧
    (⟨["\x7b\x7d".toList]⟩ : Expression).dotted ≠ [] := by
  obtain ⟨-, -, -, -, hplaceholder, -⟩ := Expression.dotted_read "a\x7bb\x7d".toList
  obtain ⟨-, -, -, -, -, -, hcondition, -⟩ := Expression.dotted_read " \x7b \t\x7d".toList
  obtain ⟨-, -, -, hlist, -⟩ := Expression.dotted_read "i in \x7b\x7b\x7d\x7d".toList
  have hsettled : Placeholder.Settled "a\x7bb\x7d".toList := by
    have hpieces : Placeholder.pieces "a\x7bb\x7d".toList = [.literal 'a', .braced ['b']] := by
      decide +kernel
    intro tail htail
    rw [hpieces] at htail
    simp at htail
  have hblank : Text.isBlank " \t".toList = true := by decide
  have hok : Repetition.ofText "i in \x7b\x7b\x7d\x7d".toList
      = .ok ⟨"i".toList, ⟨["\x7b\x7d".toList]⟩⟩ := by decide +kernel
  refine ⟨hsettled, hblank, ?_, hcondition.2 (.inr ⟨_, hblank, by decide⟩), hok, ?_⟩
  · refine ((hplaceholder hsettled _ hblank).1 "c".toList).trans ?_
    decide +kernel
  · rw [Ne, hlist _ hok]
    rintro ⟨inner, hinner, heq⟩
    have hbraces : some ("\x7b\x7b\x7d\x7d".toList) = some ('{' :: (inner ++ ['}'])) := by
      rw [← heq]
      decide
    obtain rfl : "\x7b\x7d".toList = inner :=
      List.append_cancel_right (List.cons.inj (Option.some.inj hbraces)).2
    exact absurd hinner (by decide)

/-- a list of which nothing is written but the braces -/
theorem Expression.dotted_read_braces :
    ¬ ∀ value r, Repetition.ofText value = .ok r → r.each.dotted ≠ [] := by
  intro h
  have hok : Repetition.ofText "i in \x7b \x7d".toList = .ok ⟨"i".toList, ⟨[[]]⟩⟩ := by
    decide +kernel
  exact h _ _ hok rfl

end PageTemplates
