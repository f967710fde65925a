import PageTemplates.Proofs.Rendering
import PageTemplates.Proofs.Segments

/-!
# Reading what was read and rendered

A sheet that was read without a finding is read again from its rendered text, unless the text of
one of its nodes leaves something open or has a comment mark left in it: comments are cut out of
a prelude or selector, and a statement may end where the source does.

* `Takes`, `Reads`     one statement, and all rules, that are read without a finding;
* `reads_of_rules`     what `rules` reads without a finding;
* `Reads.isBraced`     rules in a block with a brace in it have a block among them;
* `Node.Settled`       what is asked of the own texts of a node;
* `Reads.legible`      settled nodes that were read are legible;
* `parse_render_of_parse`   the whole sheet.
-/

namespace PageTemplates.Css

open Lexeme

/-! ## statements without a finding -/

/-- an at-rule up to its end: `@`, its name in any case, and `ms` -/
def AtHead (ls : List Lexeme) (name : Text) (ms rest : List Lexeme) : Prop :=
  ∃ s : Text, s ≠ [] ∧ (∀ c ∈ s, atNameChar c = true) ∧ Text.lower s = name ∧
    ls = .char '@' :: (s.map .char ++ (ms ++ rest))

/-- what one statement comes to, and what follows it -/
inductive Takes : List Lexeme → Item → List Lexeme → Prop
  | semicolon (rest : List Lexeme) : Takes (.char ';' :: rest) .nothing rest
  | statement {ls ms rest : List Lexeme} {name : Text}
      (head : AtHead ls name ms (.char ';' :: rest)) (flat : Flat ending ms) :
      Takes ls (.node (.statement name (tidy ms))) rest
  /-- a statement that ends where the lexemes do; it can leave parentheses open -/
  | final {ls ms : List Lexeme} {name : Text}
      (head : AtHead ls name ms []) (passed : (scan ending 0 ms).2 = []) :
      Takes ls (.node (.statement name (tidy ms))) []
  | group {ls ms inner rest : List Lexeme} {name : Text} (behind : Nat)
      (head : AtHead ls name ms (.char '\x7b' :: (inner ++ .char '\x7d' :: rest)))
      (flat : Flat ending ms) (closed : balance (0, 0) inner = some (0, 0))
      (holds : holdsBlock inner = true) :
      Takes ls (.group name (tidy ms) inner behind) rest
  | block {ls ms inner rest : List Lexeme} {name : Text}
      (head : AtHead ls name ms (.char '\x7b' :: (inner ++ .char '\x7d' :: rest)))
      (flat : Flat ending ms) (closed : balance (0, 0) inner = some (0, 0))
      (holds : holdsBlock inner = false) :
      Takes ls (.node (.block name (tidy ms) (Text.trim (Lexeme.texts inner)))) rest
  | rule {ms inner rest : List Lexeme} (front : ms.head? ≠ some (.char '@'))
      (flat : Flat ending ms) (closed : balance (0, 0) inner = some (0, 0)) :
      Takes (ms ++ .char '\x7b' :: (inner ++ .char '\x7d' :: rest))
        (.node (.rule (tidy ms) (Text.trim (Lexeme.texts inner)))) rest

theorem atNameChars_of_lexemes {ts : List Lexeme} (h : ∀ l ∈ ts, atNameLexeme l = true) :
    (Lexeme.texts ts).map Lexeme.char = ts ∧ ∀ c ∈ Lexeme.texts ts, atNameChar c = true := by
  induction ts with
  | nil => exact ⟨rfl, nofun⟩
  | cons l ts ih =>
    rw [List.forall_mem_cons] at h
    obtain ⟨hmap, hchars⟩ := ih h.2
    cases l with
    | char c => exact ⟨congrArg (Lexeme.char c :: ·) hmap, List.forall_mem_cons.2 ⟨h.1, hchars⟩⟩
    | escape | string | comment => cases h.1

/-- what stands behind the name of an at-rule -/
theorem atHead_of_dropWhile {ls ms rest : List Lexeme}
    (h : ls.dropWhile atNameLexeme = ms ++ rest)
    (hname : Text.lower (Lexeme.texts (ls.takeWhile atNameLexeme)) ≠ []) :
    AtHead (.char '@' :: ls) (Text.lower (Lexeme.texts (ls.takeWhile atNameLexeme))) ms rest := by
  have hts : ∀ l ∈ ls.takeWhile atNameLexeme, atNameLexeme l = true :=
    List.all_eq_true.1 List.all_takeWhile
  obtain ⟨hmap, hchars⟩ := atNameChars_of_lexemes hts
  refine ⟨_, mt (congrArg Text.lower) hname, hchars, rfl, ?_⟩
  rw [hmap, ← h, List.takeWhile_append_dropWhile]

theorem takes_of_atStatement {tail : Nat} {ls : List Lexeme}
    (h : (atStatement tail ls).findings = []) :
    Takes (.char '@' :: ls) (atStatement tail ls).item (atStatement tail ls).rest := by
  have hnamed : ∀ (name : Text) (f : Finding), (if name.isEmpty then [f] else []) = [] →
      name ≠ [] := by
    rintro name f hf rfl
    cases hf
  revert h
  unfold atStatement
  simp only
  split
  · next rest hstop =>
    intro hfind
    obtain ⟨hr, -, hflat⟩ := flat_of_scan hstop
    exact .statement (atHead_of_dropWhile hr (hnamed _ _ hfind)) hflat
  · next rest hstop =>
    obtain ⟨hr, -, hflat⟩ := flat_of_scan hstop
    split
    · intro hfind
      cases (List.append_eq_nil_iff.1 hfind).2
    · next inner after hblock =>
      obtain ⟨rfl, hclosed⟩ := scanBlock_inv hblock
      split
      · next hholds =>
        intro hfind
        exact .group _ (atHead_of_dropWhile hr (hnamed _ _ hfind)) hflat hclosed hholds
      · next hholds =>
        intro hfind
        exact .block (atHead_of_dropWhile hr (hnamed _ _ hfind)) hflat hclosed
          (Bool.eq_false_iff.2 hholds)
  · split
    · next hend =>
      intro hfind
      rw [Bool.and_eq_true, List.isEmpty_iff] at hend
      have hscan := scan_append ending 0 (ls.dropWhile atNameLexeme)
      rw [hend.1, List.append_nil] at hscan
      refine .final (atHead_of_dropWhile ?_ (hnamed _ _ hfind)) ?_
      · rw [hscan, List.append_nil]
      · rw [hscan]
        exact hend.1
    · intro hfind
      cases (List.append_eq_nil_iff.1 hfind).2

theorem takes_of_ruleStatement {nested : Bool} {tail : Nat} {ls : List Lexeme}
    (hfront : ls.head? ≠ some (.char '@')) (h : (ruleStatement nested tail ls).findings = []) :
    Takes ls (ruleStatement nested tail ls).item (ruleStatement nested tail ls).rest := by
  revert h
  unfold ruleStatement
  simp only
  split
  · next rest hstop =>
    obtain ⟨hls, -, hflat⟩ := flat_of_scan hstop
    split
    · nofun
    · next inner after hblock =>
      intro _
      obtain ⟨rfl, hclosed⟩ := scanBlock_inv hblock
      have hhead : (scan ending 0 ls).1.head? ≠ some (.char '@') := by
        intro hat
        rw [hls, List.head?_append, hat] at hfront
        exact hfront rfl
      have htakes := @Takes.rule _ inner after hhead hflat hclosed
      rwa [← hls] at htakes
  · nofun
  · nofun

theorem takes_of_statement {nested : Bool} {tail : Nat} {l : Lexeme} {ls : List Lexeme}
    (h : (statement nested tail l ls).findings = []) :
    Takes (l :: ls) (statement nested tail l ls).item (statement nested tail l ls).rest := by
  revert h
  unfold statement
  split
  · nofun
  · exact fun _ => .semicolon ls
  · exact takes_of_atStatement
  · next hat => exact takes_of_ruleStatement fun hfront => hat (Option.some.inj hfront)

/-- rules that are read without a finding -/
inductive Reads : List Lexeme → List Node → Prop
  | done {ls : List Lexeme} (h : skipTrivia ls = []) : Reads ls []
  | nothing {ls rest : List Lexeme} {ns : List Node} (h : Takes (skipTrivia ls) .nothing rest)
      (later : Reads rest ns) : Reads ls ns
  | node {ls rest : List Lexeme} {n : Node} {ns : List Node}
      (h : Takes (skipTrivia ls) (.node n) rest) (later : Reads rest ns) : Reads ls (n :: ns)
  | group {ls inner rest : List Lexeme} {name prelude : Text} {behind : Nat} {ms ns : List Node}
      (h : Takes (skipTrivia ls) (.group name prelude inner behind) rest)
      (below : Reads inner ms) (later : Reads rest ns) :
      Reads ls (.group name prelude ms :: ns)

theorem reads_of_rules {nested : Bool} {tail : Nat} {ls : List Lexeme}
    (h : (rules nested tail ls).2 = []) : Reads ls (rules nested tail ls).1 := by
  fun_induction rules nested tail ls with
  | case1 nested tail ls hskip => exact .done hskip
  | case2 nested tail ls l r hskip st more hitem ih =>
    obtain ⟨hst, hmore⟩ := List.append_eq_nil_iff.1 h
    have htakes : Takes (l :: r) st.item st.rest := takes_of_statement hst
    rw [← hskip, hitem] at htakes
    exact .nothing htakes (ih hmore)
  | case3 nested tail ls l r hskip st more n hitem ih =>
    obtain ⟨hst, hmore⟩ := List.append_eq_nil_iff.1 h
    have htakes : Takes (l :: r) st.item st.rest := takes_of_statement hst
    rw [← hskip, hitem] at htakes
    exact .node htakes (ih hmore)
  | case4 nested tail ls l r hskip st more name prelude inner behind hitem below ih ihInner =>
    obtain ⟨hfound, hmore⟩ := List.append_eq_nil_iff.1 h
    obtain ⟨hst, hbelow⟩ := List.append_eq_nil_iff.1 hfound
    have htakes : Takes (l :: r) st.item st.rest := takes_of_statement hst
    rw [← hskip, hitem] at htakes
    exact .group htakes (ihInner hbelow) (ih hmore)

/-- a strict reading that succeeds -/
theorem reads_of_parse {s : Text} {a : Node} (h : (parse false s).result = .ok a) :
    ∃ ns, a = .sheet ns ∧ Reads (lexemes s) ns := by
  unfold parse at h
  simp only [Bool.false_eq_true, if_false] at h
  split at h
  · next hfaults =>
    rw [List.map_eq_nil_iff] at hfaults
    cases h
    exact ⟨_, rfl, reads_of_rules hfaults⟩
  · cases h

/-! ## blocks among rules -/

/-- whether a statement has a block -/
def Item.isBraced : Item → Bool
  | .nothing => false
  | .node n => n.isBraced
  | .group .. => true

theorem AtHead.holdsBlock {ls ms rest : List Lexeme} {name : Text} (h : AtHead ls name ms rest) :
    holdsBlock ls = holdsBlock (ms ++ rest) := by
  obtain ⟨s, -, hs, -, rfl⟩ := h
  exact holdsBlock_append ((flat_atNameChars hs).cons (l := .char '@') rfl rfl) (ms ++ rest)

theorem Takes.isBraced {ls rest : List Lexeme} {item : Item} (h : Takes ls item rest)
    (hls : holdsBlock ls = true) : item.isBraced = true ∨ holdsBlock rest = true := by
  cases h with
  | semicolon => exact .inr hls
  | statement head flat =>
    rw [head.holdsBlock, holdsBlock_append flat] at hls
    exact .inr hls
  | final head passed =>
    rw [head.holdsBlock, List.append_nil,
      holdsBlock_eq_false_iff.2 (scan_passed_mono opening_le_ending passed)] at hls
    cases hls
  | group | block | rule => exact .inl rfl

theorem holdsBlock_skipTrivia (ls : List Lexeme) : holdsBlock (skipTrivia ls) = holdsBlock ls := by
  obtain ⟨xs, hxs, heq⟩ := skipTrivia_inv ls
  have happ := holdsBlock_append hxs (skipTrivia ls)
  rw [← heq] at happ
  exact happ.symm

/-- where an opening brace stands, a rule with a block is read -/
theorem Reads.isBraced {ls : List Lexeme} {ns : List Node} (h : Reads ls ns)
    (hls : holdsBlock ls = true) : ∃ n ∈ ns, n.isBraced = true := by
  induction h with
  | done h =>
    rw [← holdsBlock_skipTrivia, h] at hls
    cases hls
  | nothing h _ ih =>
    rw [← holdsBlock_skipTrivia] at hls
    exact ih ((h.isBraced hls).resolve_left Bool.false_ne_true)
  | node h _ ih =>
    rw [← holdsBlock_skipTrivia] at hls
    rw [List.exists_mem_cons_iff]
    exact (h.isBraced hls).imp_right ih
  | group h _ _ _ _ => exact ⟨_, List.mem_cons_self, rfl⟩

/-! ## own texts that were read -/

/-- the text of a node from which it is read again: no comment mark is left in its selector or
prelude, which with what is written behind it leaves nothing open and has no stop, its
declarations leave nothing open, and its selector begins with no marker -/
def Node.Settled : Node → Prop
  | .sheet _ => True
  | .rule selector declarations =>
    ¬ "/*".toList <:+: selector ∧ Unstopped (selector ++ [' ']) ∧ ¬ "<!--".toList <+: selector ∧
      ¬ "-->".toList <+: selector ∧ Complete (declarations ++ [' '])
  | .statement _ prelude => ¬ "/*".toList <:+: prelude ∧ Unstopped prelude
  | .group _ prelude _ => ¬ "/*".toList <:+: prelude ∧ Unstopped (prelude ++ [' '])
  | .block _ prelude declarations =>
    ¬ "/*".toList <:+: prelude ∧ Unstopped (prelude ++ [' ']) ∧ Complete (declarations ++ [' '])

instance : DecidablePred Node.Settled
  | .sheet _ => inferInstanceAs (Decidable True)
  | .rule .. | .statement .. | .group .. | .block .. => inferInstanceAs (Decidable (_ ∧ _))

theorem trim_tidy (ls : List Lexeme) : Text.trim (tidy ls) = tidy ls := Text.trim_trim _

theorem atNameChar_of_isLower {c : Char} (h : c.isLower = true) : atNameChar c = true := by
  have halnum : c.isAlphanum = true := by
    show (c.isUpper || c.isLower || c.isDigit) = true
    rw [h, Bool.or_true, Bool.true_or]
  rw [atNameChar, alphanumeric_of_isAlphanum halnum]
  rfl

theorem atNameChar_toLower {c : Char} (h : atNameChar c = true) : atNameChar c.toLower = true :=
  Text.toLower_cases (p := (atNameChar · = true)) (fun _ => atNameChar_of_isLower) fun _ => h

theorem AtHead.atName {ls ms rest : List Lexeme} {name : Text} (h : AtHead ls name ms rest) :
    AtName name := by
  obtain ⟨s, hne, hs, rfl, -⟩ := h
  refine ⟨mt List.map_eq_nil_iff.1 hne, fun c hc => ?_⟩
  obtain ⟨d, hd, rfl⟩ := List.mem_map.1 hc
  exact ⟨atNameChar_toLower (hs d hd), Text.isUpper_toLower d⟩

theorem complete_pad {s : Text} (h : Complete (s ++ [' '])) : Complete (pad s) := by
  unfold pad
  split
  · exact .nil
  · exact Complete.nil.append_cons (by decide) h

/-- declarations as they are written have their core -/
theorem lexemes_pad {s : Text} {core : List Lexeme} (h : Core s core) :
    ∃ xs ys, Idle xs ∧ Idle ys ∧ lexemes (pad s) = xs ++ (core ++ ys) := by
  unfold pad
  split
  · next hempty =>
    obtain rfl := List.isEmpty_iff.1 hempty
    obtain ⟨ys, hys, hwritten⟩ := h [] rfl
    exact ⟨[], ys, .nil, hys, hwritten⟩
  · obtain ⟨ys, hys, hwritten⟩ := h [' '] rfl
    refine ⟨[.char ' '], ys, Idle.nil.cons rfl, hys, ?_⟩
    rw [List.cons_append, lexemes_cons (by decide), hwritten]
    rfl

/-- declarations between the braces they were read from -/
theorem content_of_closed {inner : List Lexeme} (hlexed : Lexed inner)
    (hclosed : balance (0, 0) inner = some (0, 0))
    (hcomplete : Complete (Text.trim (Lexeme.texts inner) ++ [' '])) :
    Content (Text.trim (Lexeme.texts inner)) ∧
      holdsBlock (lexemes (pad (Text.trim (Lexeme.texts inner)))) = holdsBlock inner := by
  obtain ⟨b, b', hb, hb', htexts⟩ := Text.exists_trim (Lexeme.texts inner)
  have htrim : Text.trim (Text.trim (Lexeme.texts inner)) = Text.trim (Lexeme.texts inner) :=
    Text.trim_trim _
  generalize Text.trim (Lexeme.texts inner) = s at *
  obtain ⟨core, hcore⟩ := exists_core hcomplete
  obtain ⟨zs, hzs, hread⟩ := hcore b' hb'
  have hinner : inner = lexemes b ++ (core ++ zs) := by
    rw [← hread, ← lexemes_blanks_append hb, ← htexts]
    exact hlexed.symm
  obtain ⟨xs, ys, hxs, hys, hpad⟩ := lexemes_pad hcore
  rw [hinner, balance_between_idle (idle_blanks hb) hzs] at hclosed
  refine ⟨⟨⟨complete_pad hcomplete, ?_⟩, htrim⟩, ?_⟩
  · rw [hpad, balance_between_idle hxs hys]
    exact hclosed
  · rw [hpad, hinner, holdsBlock_between_idle hxs hys, holdsBlock_between_idle (idle_blanks hb) hzs]

theorem exists_stripComments {c : Char} {s : Text} (h : ¬ "/*".toList <+: c :: s) :
    ∃ t, stripComments (c :: s) = c :: t := by
  rw [stripComments, Text.find?_cons h]
  cases Text.find? "/*".toList s with
  | none => exact ⟨s, rfl⟩
  | some i =>
    simp only [Option.map_some, List.take_succ_cons]
    split
    · exact ⟨_, rfl⟩
    · exact ⟨_, rfl⟩

/-- what is read as a selector begins as it does in the source -/
theorem not_atSign {ms rest : List Lexeme} {l : Lexeme} (hlexed : Lexed (l :: ms ++ rest))
    (hcomment : ∀ t, l ≠ .comment t) (hblank : ∀ c, l = .char c → blankChar c = false)
    (hat : l ≠ .char '@') : ¬ "@".toList <+: tidy (l :: ms) := by
  obtain ⟨c, u, hcu, hnext⟩ := Lexed.next_inv hlexed
  have hplain : Plain c → l = .char c := fun hc =>
    (Prod.mk.inj (hnext.symm.trans (next_of_plain hc _))).1
  have hmark : ¬ "/*".toList <+: c :: (u ++ Lexeme.texts ms) := by
    intro hpat
    obtain ⟨rfl, hstar⟩ := List.cons_prefix_cons.1 hpat
    have hlong : "*".toList <+: u ++ Lexeme.texts (ms ++ rest) := by
      rw [texts_append, ← List.append_assoc]
      exact hstar.trans (List.prefix_append _ _)
    obtain ⟨w, hw⟩ := hlong
    rw [List.append_eq, ← hw] at hnext
    exact hcomment _ (Prod.mk.inj hnext).1.symm
  obtain ⟨t, ht⟩ := exists_stripComments hmark
  have hfirst : ¬ blankChar c = true := by
    intro hc
    rw [hblank c (hplain (blankChar_plain hc))] at hc
    cases hc
  rw [tidy, texts_cons hcu, ht, Text.trim, Text.trimStart_cons_of_not_blank hfirst]
  intro hpat
  obtain ⟨rfl, -⟩ := List.cons_prefix_cons.1 (hpat.trans (Text.trimEnd_prefix_self (c :: t)))
  exact hat (hplain (by decide))

/-! ## settled rules -/

theorem AtHead.lexed {ls ms rest : List Lexeme} {name : Text} (h : AtHead ls name ms rest)
    (hls : Lexed ls) : Lexed rest := by
  obtain ⟨s, -, -, -, rfl⟩ := h
  exact hls.tail.of_append.of_append

/-- what a statement leaves behind it and to the rules in its block is cut out of the text -/
theorem Takes.lexed {ls rest : List Lexeme} {item : Item} (h : Takes ls item rest)
    (hls : Lexed ls) : Lexed rest ∧ Lexed item.inner := by
  cases h with
  | semicolon => exact ⟨hls.tail, .nil⟩
  | statement head => exact ⟨(head.lexed hls).tail, .nil⟩
  | final => exact ⟨.nil, .nil⟩
  | group behind head => exact ⟨(head.lexed hls).tail.of_append.tail, (head.lexed hls).tail.cut⟩
  | block head => exact ⟨(head.lexed hls).tail.of_append.tail, .nil⟩
  | rule => exact ⟨hls.of_append.tail.of_append.tail, .nil⟩

theorem Takes.inner_node {ls rest : List Lexeme} {n : Node} (h : Takes ls (.node n) rest) :
    n.inner = [] := by
  cases h <;> rfl

/-- a settled node without rules in it -/
theorem Takes.legible {ls rest : List Lexeme} {n : Node}
    (h : Takes (skipTrivia ls) (.node n) rest) (hls : Lexed (skipTrivia ls)) (hn : n.Settled) :
    n.Legible := by
  generalize hfront : skipTrivia ls = front at h hls
  cases h with
  | statement head | final head =>
    obtain ⟨hmark, hunstopped⟩ := hn
    exact ⟨head.atName, hunstopped, trim_tidy _, hmark⟩
  | block head flat closed holds =>
    obtain ⟨hmark, hunstopped, hcomplete⟩ := hn
    obtain ⟨hcontent, hplain⟩ := content_of_closed (head.lexed hls).tail.cut closed hcomplete
    exact ⟨head.atName, ⟨hunstopped, trim_tidy _, hmark⟩, hcontent, hplain.trans holds⟩
  | @rule ms inner rest front flat closed =>
    obtain ⟨hmark, hunstopped, hopen, hclose, hcomplete⟩ := hn
    obtain ⟨hcontent, -⟩ := content_of_closed hls.of_append.tail.cut closed hcomplete
    refine ⟨⟨⟨hunstopped, trim_tidy _, hmark⟩, ?_, hopen, hclose⟩, hcontent⟩
    cases ms with
    | nil =>
      rw [tidy_nil]
      decide
    | cons l ms =>
      obtain ⟨hcomment, hblank⟩ := skipTrivia_front hfront
      exact not_atSign hls hcomment hblank fun hl => front (congrArg some hl)

theorem Takes.legible_group {ls inner rest : List Lexeme} {name prelude : Text}
    {behind : Nat} {ms : List Node} (h : Takes ls (.group name prelude inner behind) rest)
    (hms : Reads inner ms) (hn : (Node.group name prelude ms).Settled) :
    (Node.group name prelude ms).Legible := by
  cases h with
  | group behind head flat closed holds =>
    obtain ⟨hmark, hunstopped⟩ := hn
    exact ⟨head.atName, ⟨hunstopped, trim_tidy _, hmark⟩, hms.isBraced holds⟩

theorem lexed_skipTrivia {ls : List Lexeme} (h : Lexed ls) : Lexed (skipTrivia ls) := by
  obtain ⟨xs, -, heq⟩ := skipTrivia_inv ls
  rw [heq] at h
  exact h.of_append

/-- settled nodes of what was read are legible -/
theorem Reads.legible {ls : List Lexeme} {ns : List Node} (h : Reads ls ns) (hls : Lexed ls)
    (hns : ∀ n ∈ Node.walkList ns, n.Settled) : ∀ n ∈ Node.walkList ns, n.Legible := by
  induction h with
  | done => nofun
  | nothing h _ ih => exact ih (h.lexed (lexed_skipTrivia hls)).1 hns
  | node h _ ih =>
    have hskip := lexed_skipTrivia hls
    rw [Node.walkList_cons, h.inner_node] at hns ⊢
    rw [List.forall_mem_append, List.forall_mem_cons] at hns ⊢
    exact ⟨⟨h.legible hskip hns.1.1, nofun⟩, ih (h.lexed hskip).1 hns.2⟩
  | group h below _ ihBelow ih =>
    have hskip := lexed_skipTrivia hls
    rw [Node.walkList_cons, List.forall_mem_append, List.forall_mem_cons] at hns ⊢
    exact ⟨⟨h.legible_group below hns.1.1, ihBelow (h.lexed hskip).2 hns.1.2⟩,
      ih (h.lexed hskip).1 hns.2⟩

/-- what a test on the sheet that was read says -/
theorem exists_of_result {s : Text} {p : Node → Bool}
    (h : (parse false s).result.toOption.map p = some true) :
    ∃ a, (parse false s).result = .ok a ∧ p a = true := by
  revert h
  cases (parse false s).result with
  | error f => nofun
  | ok a => exact fun h => ⟨a, rfl, Option.some.inj h⟩

/-- a sheet whose nodes are settled is read again from its rendered text -/
theorem parse_render_of_parse {s : Text} {a : Node} (h : (parse false s).result = .ok a)
    (ha : ∀ n ∈ a.walk, n.Settled) : parse false a.render = ⟨[], .ok a⟩ := by
  obtain ⟨ns, rfl, hreads⟩ := reads_of_parse h
  rw [Node.walk, List.forall_mem_cons] at ha
  have hback := Node.readBack_of_legible (hreads.legible (lexed_lexemes s) ha.2) false 0 []
  have hend : rules false 0 (lexemes []) = ([], []) := by
    rw [lexemes]
    exact rules_of_nil rfl
  rw [List.append_nil, hend, List.append_nil] at hback
  rw [parse, hback]
  rfl

/-- comments in own texts, escapes at their ends, and statements that end with their block and with
the source -/
def escapedSource : Text :=
  "@MEDIA/**/print\x7b@layer a,/*;*/b\x7b\x7d a\\ \x7bb: \\ \x7d@x url(;)\x7d @y \"\\\"\"".toList

theorem parse_render_of_parse_escaped :
    ∃ a : Node, (parse false escapedSource).result = .ok a ∧
      a.render = ("@media print \x7b\n@layer a,b \x7b\x7d\na\\ \x7b b: \\ \x7d\n"
        ++ "@x url(;);\n\x7d\n@y \"\\\"\";").toList ∧
      (∀ n ∈ a.walk, n.Settled) ∧ parse false a.render = ⟨[], .ok a⟩ := by
  have hread : ((parse false escapedSource).result.toOption.map fun a =>
      decide (a.render = ("@media print \x7b\n@layer a,b \x7b\x7d\na\\ \x7b b: \\ \x7d\n"
        ++ "@x url(;);\n\x7d\n@y \"\\\"\";").toList ∧ ∀ n ∈ a.walk, n.Settled)) = some true := by
    decide +kernel
  obtain ⟨a, hresult, ha⟩ := exists_of_result hread
  obtain ⟨hrender, hsettled⟩ := of_decide_eq_true ha
  exact ⟨a, hresult, hrender, hsettled, parse_render_of_parse hresult hsettled⟩

/-- the rendered text of what is read is not read as the same sheet -/
def Unfaithful (s : Text) : Prop :=
  ∃ a, (parse false s).result = .ok a ∧ (parse false a.render).result ≠ .ok a

theorem unfaithful_of_render {s : Text}
    (h : ((parse false s).result.toOption.map fun a =>
        decide ((parse false a.render).result.toOption.map Node.render ≠ some a.render))
      = some true) :
    Unfaithful s := by
  obtain ⟨a, hresult, ha⟩ := exists_of_result h
  refine ⟨a, hresult, fun hagain => ?_⟩
  rw [hagain] at ha
  exact of_decide_eq_true ha rfl

/-- a string, an escape and parentheses that are open where the source ends, a string in
declarations that the end of its line closes, comments that are cut out of an escape and of
parentheses, and marks that are there when a comment has been cut out -/
theorem parse_render_unsettled :
    Unfaithful "@import \"a.css".toList ∧ Unfaithful "@a \\".toList ∧ Unfaithful "@a (".toList ∧
      Unfaithful "a\x7bb: \"c\n\x7d".toList ∧ Unfaithful "@a \\/* (*/;;) \x7b\x7d".toList ∧
      Unfaithful "@a //**/*;".toList ∧ Unfaithful "<!/**/--a\x7b\x7d".toList ∧
      Unfaithful "-/**/->a\x7b\x7d".toList := by
  refine ⟨?_, ?_, ?_, ?_, ?_, ?_, ?_, ?_⟩ <;> exact unfaithful_of_render (by decide +kernel)

end PageTemplates.Css
