import PageTemplates.Proofs.Fragments

/-!
# Attribute values and their placeholders

A value is a bare expression if and only if one pair of braces stands around a text that has no
braces and is not blank; any other value is what its fragments come to, plain text if all of them
are text and a template if not.

* `Bare`                  the inside of a bare expression;
* `fragments_of_plain`    a text without braces is a fragment of its own;
* `fragments_of_bare`     so is a bare expression;
* `ofText_of_bare`, `ofText_of_not_bare`   the value of either kind of text;
* `ofText_classified`     which value is which.
-/

namespace PageTemplates

/-- a text without braces that is not blank -/
structure Bare (inner : Text) : Prop where
  unbraced : ∀ c ∈ inner, isBrace c = false
  nonblank : ¬ Text.isBlank inner = true

theorem bare_iff {inner : Text} :
    Bare inner ↔ inner.any isBrace = false ∧ ¬ Text.isBlank inner = true :=
  ⟨fun h => ⟨by simpa using h.unbraced, h.nonblank⟩, fun ⟨h1, h2⟩ => ⟨by simpa using h1, h2⟩⟩

instance (inner : Text) : Decidable (Bare inner) := decidable_of_iff _ bare_iff.symm

theorem Bare.not_mem {inner : Text} (h : Bare inner) : '{' ∉ inner ∧ '}' ∉ inner :=
  ⟨fun hmem => absurd (h.unbraced _ hmem) (by decide),
    fun hmem => absurd (h.unbraced _ hmem) (by decide)⟩

theorem unbrace?_eq_some_iff {value inner : Text} :
    unbrace? value = some inner ↔ value = '{' :: (inner ++ ['}']) := by
  constructor
  · intro h
    unfold unbrace? at h
    split at h
    · next s =>
      obtain ⟨hlast, hinner⟩ := Option.ite_none_right_eq_some.1 h
      obtain ⟨t, rfl⟩ := List.getLast?_eq_some_iff.1 hlast
      rw [List.dropLast_concat] at hinner
      rw [Option.some.inj hinner]
    · cases h
  · rintro rfl
    simp [unbrace?]

/-! ## written expressions -/

namespace Expression

theorem mem_dotted_ofText {s : Text} {c : Char} (h : c ∈ (ofText s).dotted) : c = '.' ∨ c ∈ s := by
  rcases Text.mem_joinWith h with hdot | ⟨segment, hsegment, hc⟩
  · exact .inl (List.mem_singleton.1 hdot)
  · obtain ⟨part, hpart, rfl⟩ := List.mem_map.1 hsegment
    have hsub := Text.subset_of_mem_splitOn hpart (Text.trim_subset part hc)
    exact .inr (Text.trim_subset s hsub)

theorem Proper.ofText_dotted {e : Expression} (h : e.Proper) : ofText e.dotted = e := by
  rw [ofText, h.trim_dotted, h.splitOn_dotted, List.map_congr_left h.trimmed, List.map_id']

end Expression

/-- the dotted path of a bare expression can stand in its place -/
theorem Bare.dotted {source : Text} (h : Bare source) :
    Bare (Expression.ofText source).dotted ∧
      Expression.ofText (Expression.ofText source).dotted = .ofText source := by
  have hproper := Expression.proper_ofText h.nonblank h.not_mem.2
  refine ⟨⟨?_, ?_⟩, hproper.ofText_dotted⟩
  · intro c hc
    rcases Expression.mem_dotted_ofText hc with rfl | hc
    · decide
    · exact h.unbraced c hc
  · rw [Text.isBlank_iff_trim_eq_nil, hproper.trim_dotted]
    exact hproper.dotted_ne_nil

/-! ## fragments of a value -/

namespace Fragment

/-- the literal text of fragments, one after another -/
def literal (fs : List Fragment) : Text := (fs.filterMap text?).flatten

theorem mapM_text?_of_texts {fs : List Fragment} (h : ∀ f ∈ fs, f.isText = true) :
    fs.mapM text? = some (fs.filterMap text?) := by
  induction fs with
  | nil => rfl
  | cons f fs ih =>
    obtain ⟨hf, hfs⟩ := List.forall_mem_cons.1 h
    cases f with
    | text t =>
      rw [List.mapM_cons, ih hfs]
      rfl
    | expression e => cases hf

theorem mapM_text?_of_expression {fs : List Fragment} (h : ∃ f ∈ fs, f.isText = false) :
    fs.mapM text? = none := by
  induction fs with
  | nil => simp at h
  | cons f fs ih =>
    cases f with
    | text t =>
      have hrest : ∃ f ∈ fs, f.isText = false := by simpa [isText] using h
      rw [List.mapM_cons, ih hrest]
      rfl
    | expression e => rw [List.mapM_cons]; rfl

theorem flatMap_doubled {t : Text} (h : ∀ c ∈ t, isBrace c = false) : t.flatMap doubled = t := by
  induction t with
  | nil => rfl
  | cons c t ih =>
    obtain ⟨hc, ht⟩ := List.forall_mem_cons.1 h
    rw [List.flatMap_cons, ih ht, doubled, hc]
    rfl

end Fragment

namespace Placeholder

theorem fragments_of_plain {value : Text} (h : ∀ c ∈ value, isBrace c = false) :
    fragments value = if value = [] then [] else [.text value] := by
  split
  · next hvalue =>
    rw [hvalue, fragments, pieces]
    rfl
  · next hvalue =>
    have hcanonical : Fragment.Canonical [.text value] :=
      ⟨List.forall_mem_singleton.2 hvalue, .singleton _⟩
    have hrender : render [.text value] = value := by
      rw [render, List.flatMap_singleton, Fragment.written, Fragment.flatMap_doubled h]
    have hread := fragments_of_canonical hcanonical
    rwa [hrender] at hread

theorem fragments_of_bare {inner : Text} (h : Bare inner) :
    fragments ('{' :: (inner ++ ['}'])) = [.expression (.ofText inner)] := by
  have hopen : ∀ c ∈ inner.head?, c ≠ '{' := by
    rintro c hc rfl
    exact h.not_mem.1 (List.mem_of_mem_head? hc)
  have hpieces : pieces ('{' :: (inner ++ ['}'])) = [.braced inner] := by
    have hbraced := pieces_braced hopen h.not_mem.2 []
    rwa [pieces] at hbraced
  rw [fragments, hpieces, List.map_singleton, Piece.fragment, if_neg h.nonblank]
  rfl

end Placeholder

/-! ## values -/

namespace Binding

theorem ofFragments_cases (fs : List Fragment) :
    (∀ f ∈ fs, f.isText = true) ∧ ofFragments fs = .text (Fragment.literal fs) ∨
      (∃ f ∈ fs, f.isText = false) ∧ ofFragments fs = .template fs := by
  by_cases h : ∃ f ∈ fs, f.isText = false
  · right
    rw [ofFragments, Fragment.mapM_text?_of_expression h]
    exact ⟨h, rfl⟩
  · have hall : ∀ f ∈ fs, f.isText = true := fun f hf => by simpa using fun he => h ⟨f, hf, he⟩
    left
    rw [ofFragments, Fragment.mapM_text?_of_texts hall]
    exact ⟨hall, rfl⟩

theorem ofFragments_eq_text_iff {fs : List Fragment} {t : Text} :
    ofFragments fs = .text t ↔ (∀ f ∈ fs, f.isText = true) ∧ t = Fragment.literal fs := by
  rcases ofFragments_cases fs with ⟨hall, heq⟩ | ⟨⟨f, hf, hexpression⟩, heq⟩
  · rw [heq, Binding.text.injEq, eq_comm, and_iff_right hall]
  · rw [heq]
    refine ⟨(fun h => by cases h), fun h => ?_⟩
    rw [h.1 f hf] at hexpression
    cases hexpression

theorem ofFragments_eq_template_iff {fs gs : List Fragment} :
    ofFragments fs = .template gs ↔ (∃ f ∈ fs, f.isText = false) ∧ gs = fs := by
  rcases ofFragments_cases fs with ⟨hall, heq⟩ | ⟨hexpression, heq⟩
  · rw [heq]
    refine ⟨(fun h => by cases h), ?_⟩
    rintro ⟨⟨f, hf, hexpression⟩, -⟩
    rw [hall f hf] at hexpression
    cases hexpression
  · rw [heq, Binding.template.injEq, eq_comm, and_iff_right hexpression]

theorem bare?_eq_some_iff {value inner : Text} :
    bare? value = some inner ↔ value = '{' :: (inner ++ ['}']) ∧ Bare inner := by
  have hbare : (!inner.any isBrace && !Text.isBlank inner) = true ↔ Bare inner := by
    rw [bare_iff, Bool.and_eq_true, Bool.not_eq_true', Bool.not_eq_true', Bool.not_eq_true]
  rw [bare?, Option.filter_eq_some_iff, unbrace?_eq_some_iff, hbare]

theorem ofText_of_bare {inner : Text} (h : Bare inner) :
    ofText ('{' :: (inner ++ ['}'])) = .expression (.ofText inner) := by
  rw [ofText, bare?_eq_some_iff.2 ⟨rfl, h⟩]

/-- any other value is what its fragments come to, also if it has no braces at all -/
theorem ofText_of_not_bare {value : Text}
    (h : ∀ inner, Bare inner → value ≠ '{' :: (inner ++ ['}'])) :
    ofText value = ofFragments (Placeholder.fragments value) := by
  have hnone : bare? value = none := by
    rw [Option.eq_none_iff_forall_ne_some]
    intro inner hinner
    obtain ⟨hvalue, hbare⟩ := bare?_eq_some_iff.1 hinner
    exact h inner hbare hvalue
  rw [ofText, hnone]
  dsimp only
  split
  · rfl
  · next hplain =>
    have hunbraced : ∀ c ∈ value, isBrace c = false := by simpa using hplain
    rw [Placeholder.fragments_of_plain hunbraced]
    split
    · next hvalue =>
      rw [hvalue]
      rfl
    · exact congrArg Binding.text (List.append_nil value).symm

theorem ofText_eq_expression_iff {value : Text} {e : Expression} : ofText value = .expression e ↔
    ∃ inner, Bare inner ∧ value = '{' :: (inner ++ ['}']) ∧ e = .ofText inner := by
  constructor
  · intro h
    by_cases hbare : ∃ inner, Bare inner ∧ value = '{' :: (inner ++ ['}'])
    · obtain ⟨inner, hinner, rfl⟩ := hbare
      rw [ofText_of_bare hinner] at h
      exact ⟨inner, hinner, rfl, (Binding.expression.inj h).symm⟩
    · rw [ofText_of_not_bare fun inner hinner hvalue => hbare ⟨inner, hinner, hvalue⟩] at h
      rcases ofFragments_cases (Placeholder.fragments value) with ⟨-, heq⟩ | ⟨-, heq⟩
      all_goals cases heq.symm.trans h
  · rintro ⟨inner, hinner, rfl, rfl⟩
    exact ofText_of_bare hinner

/-- **Values are classified as their placeholders say.**  The first statement finds the bare
expressions, the second gives their fragments, the third sorts all other values by their
fragments, and by the last an expression can be written as a value. -/
theorem ofText_classified :
    (∀ value e, ofText value = .expression e ↔
      ∃ inner, Bare inner ∧ value = '{' :: (inner ++ ['}']) ∧ e = .ofText inner) ∧
    (∀ value e, ofText value = .expression e → Placeholder.fragments value = [.expression e]) ∧
    (∀ value, (∀ inner, Bare inner → value ≠ '{' :: (inner ++ ['}'])) →
      (∀ t, ofText value = .text t ↔ (∀ f ∈ Placeholder.fragments value, f.isText = true) ∧
        t = Fragment.literal (Placeholder.fragments value)) ∧
      ∀ fs, ofText value = .template fs ↔
        (∃ f ∈ Placeholder.fragments value, f.isText = false) ∧
          fs = Placeholder.fragments value) ∧
    ∀ source, Bare source →
      ofText (Expression.ofText source).braced = .expression (.ofText source) := by
  refine ⟨fun value e => ofText_eq_expression_iff, ?_, ?_, ?_⟩
  · intro value e h
    obtain ⟨inner, hinner, rfl, rfl⟩ := ofText_eq_expression_iff.1 h
    exact Placeholder.fragments_of_bare hinner
  · intro value h
    rw [ofText_of_not_bare h]
    exact ⟨fun t => ofFragments_eq_text_iff, fun fs => ofFragments_eq_template_iff⟩
  · intro source h
    obtain ⟨hdotted, hread⟩ := h.dotted
    rw [Expression.braced, List.cons_append, ofText_of_bare hdotted, hread]

/-- a blank pair of braces, a doubled one and an expression without an end, each beside text -/
theorem ofText_classified_unended :
    (∀ inner, Bare inner → "a\x7b \x7d\x7b\x7b\x7bb. c".toList ≠ '{' :: (inner ++ ['}'])) ∧
    ofText "a\x7b \x7d\x7b\x7b\x7bb. c".toList
      = .template [.text "a\x7b \x7d\x7b".toList, .expression ⟨["b".toList, "c".toList]⟩] ∧
    Bare " a. ".toList ∧
    ofText (Expression.ofText " a. ".toList).braced = .expression ⟨["a".toList, []]⟩ := by
  have hvalue : ∀ inner, Bare inner →
      "a\x7b \x7d\x7b\x7b\x7bb. c".toList ≠ '{' :: (inner ++ ['}']) := by
    intro inner _ h
    cases h
  have hfragments : Placeholder.fragments "a\x7b \x7d\x7b\x7b\x7bb. c".toList
      = [.text "a\x7b \x7d\x7b".toList, .expression ⟨["b".toList, "c".toList]⟩] := by
    decide +kernel
  have hbare : Bare " a. ".toList := by decide
  refine ⟨hvalue, ?_, hbare, ofText_classified.2.2.2 _ hbare⟩
  exact ((ofText_classified.2.2.1 _ hvalue).2 _).2 ⟨⟨_, hfragments ▸ List.mem_cons_of_mem _
    List.mem_cons_self, rfl⟩, hfragments.symm⟩

end Binding

end PageTemplates
