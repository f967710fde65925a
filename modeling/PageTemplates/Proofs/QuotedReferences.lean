import PageTemplates.Proofs.Comments
import PageTemplates.Proofs.Retargeting

/-!
# References, strings and comments

References are looked for in the characters of a text, while its strings and comments are lexemes.
Behind a text in which every `url(` is closed, a quoted url is found unless it has a `)` in it; a
string or a comment is copied unless `url(` stands in it.  Otherwise the reference ends at the
first `)`, or begins in the string.

* `Settled`            every `url(` is closed;
* `Parted`             a text that is read for itself, whatever is in the text behind it;
* `Cut`                a text that is read as two texts with a part between them;
* `Parted.urls`, `Parted.retarget`   what is read of two texts in a row;
* `cut_reference`      a text with a reference in it;
* `retarget_lexical`   references with quotes, strings and comments.
-/

namespace PageTemplates.Css

open Lexeme

/-! ## texts in a row -/

/-- every `url(` is closed -/
def Settled (s : Text) : Prop := ∀ b ∈ s.tails, urlKeyword <+: Text.lower b → ')' ∈ b

instance (s : Text) : Decidable (Settled s) :=
  inferInstanceAs (Decidable (∀ b ∈ s.tails, _ → _))

/-- every `url(` that begins in `s` is closed in it, when `t` follows -/
def Parted (s t : Text) : Prop :=
  ∀ b, b <:+ s → b ≠ [] → urlKeyword <+: Text.lower (b ++ t) → ')' ∈ b

/-- `s` is read as `u`, a part that reports `us` and becomes `w`, and `v` -/
structure Cut (f : Text → Option Text) (s u : Text) (us : List Text) (w v : Text) : Prop where
  urls : Css.urls s = Css.urls u ++ (us ++ Css.urls v)
  text : retarget f s = retarget f u ++ (w ++ retarget f v)

section
variable {s t u v : Text}

theorem lower_append (s t : Text) : Text.lower (s ++ t) = Text.lower s ++ Text.lower t :=
  List.map_append

/-- `url(` ends before a `)` -/
theorem keyword_prefix_of_closing (h : urlKeyword <+: Text.lower (s ++ t)) (hclosing : ')' ∈ s) :
    urlKeyword <+: Text.lower s := by
  rw [lower_append] at h
  rcases List.prefix_or_prefix_of_prefix h (List.prefix_append _ _) with hshort | hlong
  · exact hshort
  · have hin : ')' ∈ urlKeyword := hlong.subset (List.mem_map.2 ⟨')', hclosing, rfl⟩)
    exact absurd hin (by decide)

/-- a text without references in which every `url(` is closed has none -/
theorem find?_of_plain (h : segments s = [.text s]) (hs : Settled s) :
    Text.find? urlKeyword (Text.lower s) = none := by
  cases hfind : Text.find? urlKeyword (Text.lower s) with
  | none => rfl
  | some i =>
    have hfront : urlKeyword <+: Text.lower (s.drop i) := by
      have hspec := (Text.find?_spec hfind).2
      rwa [Text.lower, ← List.map_drop] at hspec
    have hclosing := hs _ ((List.mem_tails _ _).2 (List.drop_suffix i s)) hfront
    -- the `)` stands behind the keyword
    have hbehind : ')' ∈ s.drop (i + 4) := by
      rw [← List.take_append_drop 4 (s.drop i), List.mem_append, List.drop_drop] at hclosing
      refine hclosing.resolve_left fun htake => ?_
      rw [← List.take_append_drop 4 (s.drop i), lower_append] at hfront
      have hkeyword : Text.lower ((s.drop i).take 4) <+: urlKeyword :=
        List.prefix_of_prefix_length_le (List.prefix_append _ _) hfront
          (by rw [Text.length_lower, List.length_take]; exact Nat.min_le_left _ _)
      have hin : ')' ∈ urlKeyword := hkeyword.subset (List.mem_map.2 ⟨')', htake, rfl⟩)
      exact absurd hin (by decide)
    rw [segments, hfind] at h
    dsimp only at h
    split at h
    · next hnone =>
      rw [← Text.upTo_append_since Segment.isClosing (s.drop (i + 4)), hnone, List.append_nil]
        at hbehind
      exact absurd (Text.eq_false_of_mem_upTo hbehind) (by decide)
    · cases (List.cons.inj h).2

namespace Parted

theorem settled (h : Parted s t) : Settled s := by
  intro b hb hfront
  have hne : b ≠ [] := by
    rintro rfl
    exact absurd hfront (by decide)
  refine h b ((List.mem_tails b s).1 hb) hne ?_
  rw [lower_append]
  exact hfront.trans (List.prefix_append _ _)

theorem of_suffix (h : Parted s t) (hu : u <:+ s) : Parted u t :=
  fun b hb => h b (hb.trans hu)

/-- the characters of `url(` behind the first one do not begin the text behind -/
theorem of_settled (h : Settled s) (ht : ∀ c ∈ t.head?, c.toLower ∉ "rl(".toList) :
    Parted s t := by
  intro b hb hne hfront
  refine h b ((List.mem_tails b s).2 hb) ?_
  cases t with
  | nil => rwa [List.append_nil] at hfront
  | cons c t =>
    obtain ⟨d, b, rfl⟩ := List.exists_cons_of_ne_nil hne
    have hkeyword : urlKeyword = 'u' :: "rl(".toList := rfl
    rw [hkeyword] at hfront ⊢
    obtain ⟨hd, hrest⟩ := List.cons_prefix_cons.1 hfront
    have hsplit : Text.lower (b ++ c :: t) = Text.lower b ++ c.toLower :: Text.lower t :=
      lower_append b (c :: t)
    have hrest : "rl(".toList <+: Text.lower (b ++ c :: t) := hrest
    rw [hsplit] at hrest
    exact List.cons_prefix_cons.2 ⟨hd, Text.prefix_of_prefix_append_cons (ht c rfl) hrest⟩

/-- `url(` neither stands in the text nor begins in it -/
theorem of_absent (h : ¬ urlKeyword <:+: Text.lower s)
    (ht : t = [] ∨ ∃ r d, s = r ++ [d] ∧ d.toLower ∉ urlKeyword) : Parted s t := by
  intro b hb hne hfront
  rcases ht with rfl | ⟨r, d, rfl, hd⟩
  · rw [List.append_nil] at hfront
    exact absurd (hfront.isInfix.trans (hb.map Char.toLower).isInfix) h
  · obtain ⟨b, rfl, hbr⟩ := (List.suffix_concat_iff.1 hb).resolve_left hne
    have hsplit : Text.lower (b ++ [d] ++ t) = Text.lower b ++ d.toLower :: Text.lower t := by
      rw [List.append_assoc]
      exact lower_append b (d :: t)
    rw [hsplit] at hfront
    have hinside := (Text.prefix_of_prefix_append_cons hd hfront).isInfix
    have hr : Text.lower r <+: Text.lower (r ++ [d]) := by
      rw [lower_append]
      exact List.prefix_append _ _
    exact absurd ((hinside.trans (hbr.map Char.toLower).isInfix).trans hr.isInfix) h

/-- behind a text without references, the first `url(` is that of what follows -/
theorem find?_append (h : Parted s t) (hs : segments s = [.text s]) :
    Text.find? urlKeyword (Text.lower (s ++ t))
      = (Text.find? urlKeyword (Text.lower t)).map (· + s.length) := by
  have hnone := Text.not_infix_of_find? (find?_of_plain hs h.settled)
  rw [lower_append, Text.find?_append_of_not_prefix, Text.length_lower]
  intro b hb hne hfront
  obtain ⟨b, hbs, rfl⟩ := List.suffix_map_iff.1 hb
  have hfront : urlKeyword <+: Text.lower (b ++ t) := by rwa [lower_append]
  have hclosing := h b hbs (mt List.map_eq_nil_iff.2 hne) hfront
  have hinside := (keyword_prefix_of_closing hfront hclosing).isInfix
  exact hnone (hinside.trans (hbs.map Char.toLower).isInfix)

/-- a text without references is put in front of the first segment -/
theorem segments_append (h : Parted s t) (hs : segments s = [.text s]) :
    ∃ u more, segments t = .text u :: more ∧ segments (s ++ t) = .text (s ++ u) :: more := by
  have hfind := h.find?_append hs
  cases ht : Text.find? urlKeyword (Text.lower t) with
  | none =>
    rw [ht] at hfind
    refine ⟨t, [], ?_, ?_⟩
    · rw [segments, ht]
    · rw [segments, hfind, Option.map_none]
  | some i =>
    rw [ht, Option.map_some, Nat.add_comm] at hfind
    have hdrop : (s ++ t).drop (s.length + i + 4) = t.drop (i + 4) := by
      rw [Nat.add_assoc, List.drop_length_add_append]
    rw [segments.eq_1 t, ht, segments.eq_1 (s ++ t), hfind]
    dsimp only
    rw [hdrop, List.take_length_add_append, List.drop_length_add_append]
    split
    · exact ⟨t, [], rfl, rfl⟩
    · exact ⟨_, _, rfl, rfl⟩

/-- a text and a text behind it are read one after the other -/
theorem cut (f : Text → Option Text) (h : Parted s t) : Cut f (s ++ t) s [] [] t := by
  induction s using references_induction with
  | plain s hs =>
    obtain ⟨u, more, ht, happ⟩ := h.segments_append hs
    constructor
    · rw [urls_of_plain hs, Css.urls, happ, Css.urls, ht]
      rfl
    · rw [retarget_of_plain hs, retarget, happ, retarget, ht, List.flatMap_cons, List.flatMap_cons]
      exact List.append_assoc s u _
  | reference before keyword inner rest hopens hinner ih =>
    have hrest : rest <:+ before ++ keyword ++ (inner ++ ')' :: rest) :=
      ((List.suffix_cons ')' rest).trans (List.suffix_append inner _)).trans
        (List.suffix_append _ _)
    have happ : before ++ keyword ++ (inner ++ ')' :: rest) ++ t
        = before ++ keyword ++ (inner ++ ')' :: (rest ++ t)) := by
      simp only [List.append_assoc, List.cons_append]
    have hcut := ih (h.of_suffix hrest)
    constructor
    · rw [happ, urls_of_opens hopens hinner, urls_of_opens hopens hinner, hcut.urls]
      rfl
    · rw [happ, retarget_of_opens hopens hinner, retarget_of_opens hopens hinner, hcut.text]
      simp only [List.append_assoc, List.cons_append]

end Parted

end

/-! ## a reference, and a text without one -/

section
variable {f : Text → Option Text} {s before keyword inner rest : Text}

/-- a reference in the text behind a text that is read for itself -/
theorem cut_of_opens (h : Parted s (before ++ keyword ++ (inner ++ ')' :: rest)))
    (hopens : Opens before keyword) (hinner : IsInner inner) :
    Cut f (s ++ (before ++ keyword ++ (inner ++ ')' :: rest))) s [(Segment.target inner).2]
      (before ++ (keyword ++ (replaced f inner ++ [')']))) rest := by
  constructor
  · rw [(h.cut f).urls, urls_of_opens hopens hinner]
    rfl
  · rw [(h.cut f).text, retarget_of_opens hopens hinner]
    simp only [List.append_assoc, List.nil_append, List.cons_append]

theorem cut_reference (f : Text → Option Text) (h : Settled s)
    (hkeyword : Text.lower keyword = urlKeyword) (hinner : IsInner inner) (rest : Text) :
    Cut f (s ++ (keyword ++ (inner ++ ')' :: rest))) s [(Segment.target inner).2]
      (keyword ++ (replaced f inner ++ [')'])) rest := by
  have hlength : keyword.length = 4 := by
    rw [← Text.length_lower, hkeyword]
    rfl
  have hopens : Opens [] keyword := ⟨by rw [List.nil_append, hkeyword]; decide, hlength⟩
  have hparted : Parted s (keyword ++ (inner ++ ')' :: rest)) := by
    apply Parted.of_settled h
    intro c hc
    obtain ⟨d, k, rfl⟩ := List.exists_cons_of_length_eq_add_one hlength
    obtain rfl := Option.some.inj hc
    have hd : d.toLower = 'u' := (List.cons.inj hkeyword).1
    rw [hd]
    decide
  exact cut_of_opens hparted hopens hinner

/-- a text without `url(` behind a text that is read for itself -/
theorem cut_plain {t : Text} (h : Parted s (t ++ rest)) (hplain : ¬ urlKeyword <:+: Text.lower t)
    (ht : Parted t rest) : Cut f (s ++ (t ++ rest)) s [] t rest := by
  have hsegments : segments t = [.text t] := by rw [segments, Text.find?_eq_none hplain]
  constructor
  · rw [(h.cut f).urls, (ht.cut f).urls, urls_of_plain hsegments]
    rfl
  · rw [(h.cut f).text, (ht.cut f).text, retarget_of_plain hsegments]
    rfl

end

/-! ## quotes -/

section
variable {q : Char} {t : Text}

theorem blankChar_quote (hq : q = '"' ∨ q = '\'') : blankChar q = false := by
  rcases hq with rfl | rfl <;> decide

theorem target_pad {blanks : Text} (h : blanks.isBlank = true) (inner : Text) :
    Segment.target (blanks ++ inner) = Segment.target inner := by
  have htrim : Text.trim (blanks ++ inner) = Text.trim inner :=
    congrArg Text.trimEnd (Text.trimStart_append_of_isBlank h inner)
  unfold Segment.target
  rw [htrim]

/-- a url in quotes that is cut off before its second quote keeps the first one -/
theorem target_unended (hq : q = '"' ∨ q = '\'') (ht : q ∉ t) :
    Segment.target (q :: t) = (none, q :: Text.trimEnd t) := by
  have hblank := blankChar_quote hq
  have htrim : Text.trim (q :: t) = q :: Text.trimEnd t := by
    rw [Text.trim, Text.trimStart_cons_of_not_blank (by rw [hblank]; exact Bool.false_ne_true),
      Text.trimEnd, List.reverse_cons, List.dropWhile_append]
    split
    · next hnil =>
      rw [List.dropWhile_cons_of_neg (by rw [hblank]; exact Bool.false_ne_true), Text.trimEnd,
        List.isEmpty_iff.1 hnil]
      rfl
    · rw [List.reverse_append]
      rfl
  have hlast : ¬ ((q = '"' ∨ q = '\'') ∧ (Text.trimEnd t).getLast? = some q) := by
    rintro ⟨-, hlast⟩
    exact ht ((Text.trimEnd_prefix_self t).subset (List.mem_of_getLast? hlast))
  unfold Segment.target
  rw [htrim]
  dsimp only
  rw [if_neg hlast]

theorem replaced_quoted {blanks : Text} (h : blanks.isBlank = true) (hq : q = '"' ∨ q = '\'')
    (f : Text → Option Text) (t : Text) :
    replaced f (blanks ++ (q :: t ++ [q]))
      = (f t).elim (blanks ++ (q :: t ++ [q])) fun new => q :: new ++ [q] := by
  unfold replaced
  rw [target_pad h, target_quoted hq]
  cases f t with
  | none => rfl
  | some new => rfl

end

/-! ## strings and comments -/

section
variable {l : Lexeme} {ls : List Lexeme}

/-- a string begins with a quote, and a comment with a slash -/
theorem Lexed.exists_first (h : Lexed (l :: ls)) (hl : l.isString = true ∨ l.isComment = true) :
    ∃ c u, l.text = c :: u ∧ c.toLower ∉ "rl(".toList := by
  cases h.shape with
  | string q s hq => exact ⟨q, _, rfl, by rcases hq with rfl | rfl <;> decide⟩
  | comment s => exact ⟨'/', _, rfl, by decide⟩
  | ended | escape | char => rcases hl with hl | hl <;> cases hl

/-- a string or a comment that ends before the text does ends with a character that is not in
`url(` -/
theorem Lexed.exists_last (h : Lexed (l :: ls)) (hl : l.isString = true ∨ l.isComment = true) :
    Lexeme.texts ls = [] ∨ ∃ u d, l.text = u ++ [d] ∧ d.toLower ∉ urlKeyword := by
  cases h.shape with
  | string q s hq hrest =>
    by_cases hnil : (stringBody q s).2 = []
    · exact .inl (hrest.trans hnil)
    · obtain ⟨u, d, hu, hd⟩ := exists_stringBody_end hnil
      refine .inr ⟨q :: u, d, congrArg (q :: ·) hu, ?_⟩
      rcases hd with rfl | rfl
      · rcases hq with rfl | rfl <;> decide
      · decide
  | comment s hrest =>
    cases hend : Text.find? "*/".toList s with
    | none =>
      rw [commentBody, hend] at hrest
      exact .inl hrest
    | some i =>
      obtain ⟨t, ht⟩ := (Text.find?_spec hend).2
      have hbody : (commentBody s).1 = s.take i ++ ['*', '/'] := by
        rw [commentBody, hend]
        dsimp only
        rw [List.take_add, ← ht]
        rfl
      refine .inr ⟨'/' :: '*' :: (s.take i ++ ['*']), '/', ?_, by decide⟩
      rw [Lexeme.text, hbody]
      simp only [List.cons_append, List.append_assoc, List.nil_append]
  | ended | escape | char => rcases hl with hl | hl <;> cases hl

end

/-- **References, strings and comments.**  Behind a text in which every `url(` is closed, a url in
quotes is found, and replaced with its quotes or kept; if it has a `)` in it, what stands before
the first one is found in its place, with the quote in front, and what follows is read on.  A
string or a comment is copied; if `url(` stands in it, what follows up to the next `)` is found. -/
theorem retarget_lexical (f : Text → Option Text) :
    (∀ before keyword blanks t rest q, Settled before → Text.lower keyword = urlKeyword →
      blanks.isBlank = true → (q = '"' ∨ q = '\'') → q ∉ t →
      let s := before ++ (keyword ++ (blanks ++ (q :: t ++ [q]) ++ ')' :: rest))
      (')' ∉ t → Cut f s before [t]
        (keyword ++ ((f t).elim (blanks ++ (q :: t ++ [q])) (fun new => q :: new ++ [q]) ++ [')']))
        rest) ∧
      ∀ t₁ t₂, t = t₁ ++ ')' :: t₂ → ')' ∉ t₁ →
        Cut f s before [q :: Text.trimEnd t₁]
          (keyword ++ (replaced f (blanks ++ q :: t₁) ++ [')'])) (t₂ ++ q :: ')' :: rest)) ∧
    ∀ s xs l ys, lexemes s = xs ++ l :: ys → (l.isString = true ∨ l.isComment = true) →
      Settled (Lexeme.texts xs) →
      (¬ urlKeyword <:+: Text.lower l.text →
        Cut f s (Lexeme.texts xs) [] l.text (Lexeme.texts ys)) ∧
      ∀ before keyword more inner rest, l.text = before ++ keyword ++ more →
        Opens before keyword → more ++ Lexeme.texts ys = inner ++ ')' :: rest → IsInner inner →
        Cut f s (Lexeme.texts xs) [(Segment.target inner).2]
          (before ++ (keyword ++ (replaced f inner ++ [')']))) rest := by
  refine ⟨?_, ?_⟩
  · intro before keyword blanks t rest q hbefore hkeyword hblanks hq hqt s
    have hblankInner : IsInner blanks := by
      intro c hc
      apply beq_eq_false_iff_ne.2
      rintro rfl
      exact absurd (List.all_eq_true.1 hblanks _ hc) (by decide)
    have hquote : q ≠ ')' := by rcases hq with rfl | rfl <;> decide
    constructor
    · intro ht
      have hinner : IsInner (blanks ++ (q :: t ++ [q])) := by
        rw [isInner_iff] at hblankInner ⊢
        simp only [List.mem_append, List.mem_cons, not_or]
        exact ⟨hblankInner, ⟨hquote.symm, ht⟩, hquote.symm, List.not_mem_nil⟩
      have hcut := cut_reference f hbefore hkeyword hinner rest
      rwa [target_pad hblanks, target_quoted hq, replaced_quoted hblanks hq] at hcut
    · rintro t₁ t₂ rfl ht₁
      have hinner : IsInner (blanks ++ q :: t₁) := by
        rw [isInner_iff] at hblankInner ⊢
        simp only [List.mem_append, List.mem_cons, not_or]
        exact ⟨hblankInner, hquote.symm, ht₁⟩
      have hqt₁ : q ∉ t₁ := fun hmem => hqt (List.mem_append_left _ hmem)
      have hcut := cut_reference f hbefore hkeyword hinner (t₂ ++ q :: ')' :: rest)
      rw [target_pad hblanks, target_unended hq hqt₁] at hcut
      have hs : s = before ++ (keyword ++
          (blanks ++ q :: t₁ ++ ')' :: (t₂ ++ q :: ')' :: rest))) := by
        simp only [s, List.append_assoc, List.cons_append, List.nil_append]
      rwa [hs]
  · intro s xs l ys hs hl hsettled
    have hlexed : Lexed (xs ++ l :: ys) := hs ▸ lexed_lexemes s
    have htext : s = Lexeme.texts xs ++ (l.text ++ Lexeme.texts ys) := by
      rw [← text_lexemes s, hs, texts_append]
      rfl
    obtain ⟨c, u, hcu, hc⟩ := hlexed.of_append.exists_first hl
    have hparted : Parted (Lexeme.texts xs) (l.text ++ Lexeme.texts ys) := by
      apply Parted.of_settled hsettled
      intro d hd
      rw [hcu] at hd
      exact Option.some.inj hd ▸ hc
    subst htext
    constructor
    · intro hplain
      exact cut_plain hparted hplain (.of_absent hplain (hlexed.of_append.exists_last hl))
    · intro before keyword more inner rest hmark hopens hrest hinner
      have happ : l.text ++ Lexeme.texts ys = before ++ keyword ++ (inner ++ ')' :: rest) := by
        rw [hmark, List.append_assoc, hrest]
      rw [happ] at hparted ⊢
      exact cut_of_opens hparted hopens hinner

/-- a url in capitals behind another one, a url with a `)` in it, and a string without and with
`url(` -/
theorem retarget_lexical_mixed :
    retarget (relabel "b" "c") "a: url(b) URL( 'b') d".toList
      = "a: url(\"c\") URL('c') d".toList ∧
    urls "a: url( \"b )c\") url(d)".toList = ["\"b".toList, "d".toList] ∧
    retarget (relabel "b" "c") "url(b)'rl(b)'url(b)".toList
      = "url(\"c\")'rl(b)'url(\"c\")".toList ∧
    urls "a: \"url(b\" /* ) */ url(c)".toList = ["b\" /*".toList, "c".toList] := by
  obtain ⟨hquoted, hopaque⟩ := retarget_lexical (relabel "b" "c")
  refine ⟨?_, ?_, ?_, ?_⟩
  · have hcut := hquoted "a: url(b) ".toList "URL(".toList " ".toList "b".toList " d".toList '\''
      (by decide) (by decide) (by decide) (.inr rfl) (by decide)
    exact (hcut.1 (by decide)).text.trans (by decide +kernel)
  · have hcut := hquoted "a: ".toList "url(".toList " ".toList "b )c".toList " url(d)".toList '"'
      (by decide) (by decide) (by decide) (.inl rfl) (by decide)
    exact (hcut.2 "b ".toList "c".toList rfl (by decide)).urls.trans (by decide +kernel)
  · have hcut := hopaque "url(b)'rl(b)'url(b)".toList (lexemes "url(b)".toList)
      (.string "'rl(b)'".toList) (lexemes "url(b)".toList) (by decide +kernel) (.inl rfl)
      (by decide +kernel)
    exact (hcut.1 (by decide)).text.trans (by decide +kernel)
  · have hcut := hopaque "a: \"url(b\" /* ) */ url(c)".toList (lexemes "a: ".toList)
      (.string "\"url(b\"".toList) (lexemes " /* ) */ url(c)".toList) (by decide +kernel)
      (.inl rfl) (by decide +kernel)
    have hopens : Opens "\"".toList "url(".toList := ⟨by decide, rfl⟩
    exact (hcut.2 "\"".toList "url(".toList "b\"".toList "b\" /* ".toList " */ url(c)".toList rfl
      hopens (by decide +kernel) (isInner_iff.2 (by decide))).urls.trans (by decide +kernel)

/-- a url with a `)` in it is cut off there, and `url(` is found in a string and in a comment -/
theorem retarget_lexical_strings :
    urls "a: url(\"b)c\")".toList = ["\"b".toList] ∧
    urls "content: \"url(x)\"".toList = ["x".toList] ∧
    urls "/* url(x) */ a: b".toList = ["x".toList] ∧
    retarget (fun u => some ("p/".toList ++ u)) "content: \"url(x)\"".toList
      = "content: \"url(\"p/x\")\"".toList := by
  decide +kernel

end PageTemplates.Css
