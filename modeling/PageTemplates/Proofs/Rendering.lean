import PageTemplates.Proofs.Extraction
import PageTemplates.Proofs.Parts
import PageTemplates.Proofs.Scanning
import PageTemplates.Proofs.Trimmed

/-!
# Reading rendered stylesheets

What `Node.render` writes is read back by `parse`, for every sheet whose nodes are `Proper`.

* `Heading`, `Selector`, `Body`, `AtName`   the own texts of nodes that can be told apart as text;
* `Header`, `RuleHeader`, `Content`   the same with the spaces that are written around them;
* `Node.Proper`            the condition on one node below the root;
* `Node.Legible`           what follows from it and is enough: a text may end in an escape of the
                           space behind it;
* `atStatement_block`, `atStatement_semicolon`, `ruleStatement_block`   what one statement comes to;
* `Node.render_cases`      the text of a node: a heading with a semicolon or a block behind it;
* `Node.rules_render`      one node in front of anything, if the rules in its block are read back;
* `Node.readBack_of_legible`   the same for rules, by induction over the blocks in them;
* `parse_render`           the whole sheet.
-/

namespace PageTemplates.Css

open Lexeme

/-! ## own texts -/

/-- a selector or prelude: a trimmed text without comments and without stops outside strings,
escapes and parentheses -/
structure Heading (s : Text) : Prop extends Unstopped s where
  trimmed : Text.trim s = s
  uncommented : ¬ "/*".toList <:+: s

/-- a selector that is taken for neither an at-rule nor a marker between rules -/
structure Selector (s : Text) : Prop extends Heading s where
  atSign : ¬ "@".toList <+: s
  openMarker : ¬ "<!--".toList <+: s
  closeMarker : ¬ "-->".toList <+: s

/-- declarations: a trimmed text that can stand in a block -/
structure Body (s : Text) : Prop extends Balanced s where
  trimmed : Text.trim s = s

/-- the name of an at-rule -/
structure AtName (name : Text) : Prop where
  nonempty : name ≠ []
  chars : ∀ c ∈ name, atNameChar c = true ∧ c.isUpper = false

instance (s : Text) : Decidable (Heading s) :=
  decidable_of_iff (Unstopped s ∧ Text.trim s = s ∧ ¬ "/*".toList <:+: s)
    ⟨fun h => ⟨h.1, h.2.1, h.2.2⟩, fun h => ⟨h.1, h.2, h.3⟩⟩

instance (s : Text) : Decidable (Selector s) :=
  decidable_of_iff (Heading s ∧ ¬ "@".toList <+: s ∧ ¬ "<!--".toList <+: s ∧ ¬ "-->".toList <+: s)
    ⟨fun h => ⟨h.1, h.2.1, h.2.2.1, h.2.2.2⟩, fun h => ⟨h.1, h.2, h.3, h.4⟩⟩

instance (s : Text) : Decidable (Body s) :=
  decidable_of_iff (Balanced s ∧ Text.trim s = s) ⟨fun h => ⟨h.1, h.2⟩, fun h => ⟨h.1, h.2⟩⟩

instance (name : Text) : Decidable (AtName name) :=
  decidable_of_iff (name ≠ [] ∧ name.all (fun c => atNameChar c && !c.isUpper) = true) <| by
    simp only [List.all_eq_true, Bool.and_eq_true, Bool.not_eq_true']
    exact ⟨fun h => ⟨h.1, h.2⟩, fun h => ⟨h.1, h.2⟩⟩

namespace Node

/-- a node with a block -/
def isBraced : Node → Bool
  | .rule .. | .group .. | .block .. => true
  | .sheet _ | .statement .. => false

/-- a node below the root whose own texts can be told apart as text -/
def Proper : Node → Prop
  | .sheet _ => False
  | .rule selector declarations => Selector selector ∧ Body declarations
  | .statement name prelude => AtName name ∧ Heading prelude
  | .group name prelude rules => AtName name ∧ Heading prelude ∧ ∃ n ∈ rules, n.isBraced
  | .block name prelude declarations =>
    AtName name ∧ Heading prelude ∧ Body declarations ∧ holdsBlock (lexemes declarations) = false

instance : DecidablePred Proper
  | .sheet _ => inferInstanceAs (Decidable False)
  | .rule .. | .statement .. | .group .. | .block .. => inferInstanceAs (Decidable (_ ∧ _))

end Node

/-! ## headings with spaces around them -/

theorem stripComments_of_not_infix {s : Text} (h : ¬ "/*".toList <:+: s) :
    stripComments s = s := by
  rw [stripComments, Text.find?_eq_none h]

theorem tidy_nil : tidy [] = [] := by
  rw [tidy, stripComments_of_not_infix (by decide)]
  rfl

/-- the spaces around a heading go when it is read -/
theorem tidy_pad {s : Text} (htrim : Text.trim s = s) (hs : ¬ "/*".toList <:+: s) {l r : Text}
    (hl : ∀ c ∈ l, c = ' ') (hr : ∀ c ∈ r, c = ' ') : tidy (lexemes (l ++ s ++ r)) = s := by
  have huncommented : ¬ "/*".toList <:+: l ++ s ++ r := fun hinside =>
    hs (Text.infix_of_infix_pad (by decide) (by decide) hl hr hinside)
  have hblank : ∀ t : Text, (∀ c ∈ t, c = ' ') → t.isBlank := fun t ht =>
    List.all_eq_true.2 fun c hc => ht c hc ▸ rfl
  rw [tidy, text_lexemes, stripComments_of_not_infix huncommented,
    Text.trim_pad (hblank l hl) s (hblank r hr), htrim]

/-! ## what is written around own texts -/

/-- what stands between the name of an at-rule and its block -/
def lead (prelude : Text) : Text := if prelude.isEmpty then [] else ' ' :: prelude

/-- what stands between the braces around declarations -/
def pad (declarations : Text) : Text :=
  if declarations.isEmpty then [] else ' ' :: declarations ++ [' ']

theorem Node.head_eq (name prelude : Text) :
    Node.head name prelude = '@' :: name ++ lead prelude := by
  unfold Node.head lead
  split
  · rw [List.append_nil]
  · rfl

theorem Node.braced_eq (head declarations : Text) :
    Node.braced head declarations =
      head ++ [' '] ++ '\x7b' :: (pad declarations ++ ['\x7d']) := by
  unfold Node.braced pad
  split
  · rw [List.append_assoc]
    rfl
  · simp

theorem lead_eq (prelude : Text) :
    ∃ l : Text, (∀ c ∈ l, c = ' ') ∧ lead prelude = l ++ prelude := by
  unfold lead
  split
  · next h => exact ⟨[], by simp, by rw [List.isEmpty_iff.1 h, List.append_nil]⟩
  · exact ⟨[' '], by simp, rfl⟩

theorem lead_ne_star (prelude : Text) {t : Text} (ht : t.head? ≠ some '*') :
    (lead prelude ++ t).head? ≠ some '*' := by
  unfold lead
  split
  · exact ht
  · simp

theorem lead_space (prelude : Text) : ∃ s, lead prelude ++ [' '] = ' ' :: s := by
  unfold lead
  split
  · exact ⟨[], rfl⟩
  · exact ⟨prelude ++ [' '], rfl⟩

theorem Heading.unstopped_lead {s : Text} (h : Heading s) : Unstopped (lead s) := by
  unfold lead
  split
  · exact .nil
  · exact h.toUnstopped.space_cons

namespace Body
variable {s : Text}

theorem balanced_pad (h : Body s) : Balanced (pad s) := by
  unfold pad
  split
  · exact .nil
  · exact .cons (by decide) rfl (h.toBalanced.concat (by decide) rfl)

theorem holdsBlock_pad (h : Body s) (hs : holdsBlock (lexemes s) = false) :
    holdsBlock (lexemes (pad s)) = false := by
  rw [holdsBlock_eq_false_iff] at hs ⊢
  unfold pad
  split
  · rw [lexemes]
    rfl
  · rw [List.cons_append, lexemes_cons (by decide), lexemes_append_cons h.complete (by decide),
      lexemes, scan_cons, if_neg (by decide)]
    refine (congrArg Prod.snd (scan_append_of_passed hs _)).trans ?_
    rw [scan_cons, if_neg (by simp [meets, opening])]
    rfl

end Body

/-! ## own texts with what is written around them -/

/-- a selector or prelude in front of a block; the space in between may belong to an escape at
its end -/
structure Header (s : Text) : Prop where
  unstopped : Unstopped (s ++ [' '])
  trimmed : Text.trim s = s
  uncommented : ¬ "/*".toList <:+: s

/-- a header that is taken for neither an at-rule nor a marker between rules -/
structure RuleHeader (s : Text) : Prop extends Header s where
  atSign : ¬ "@".toList <+: s
  openMarker : ¬ "<!--".toList <+: s
  closeMarker : ¬ "-->".toList <+: s

/-- declarations that can stand in a block with the spaces around them -/
structure Content (s : Text) : Prop where
  balanced : Balanced (pad s)
  trimmed : Text.trim s = s

/-- a node below the root whose own texts can be told apart as text where they are written -/
def Node.Legible : Node → Prop
  | .sheet _ => False
  | .rule selector declarations => RuleHeader selector ∧ Content declarations
  | .statement name prelude => AtName name ∧ Heading prelude
  | .group name prelude rules => AtName name ∧ Header prelude ∧ ∃ n ∈ rules, n.isBraced
  | .block name prelude declarations =>
    AtName name ∧ Header prelude ∧ Content declarations ∧
      holdsBlock (lexemes (pad declarations)) = false

theorem Heading.header {s : Text} (h : Heading s) : Header s where
  unstopped := h.toUnstopped.space_concat
  trimmed := h.trimmed
  uncommented := h.uncommented

theorem Selector.ruleHeader {s : Text} (h : Selector s) : RuleHeader s where
  toHeader := h.toHeading.header
  atSign := h.atSign
  openMarker := h.openMarker
  closeMarker := h.closeMarker

theorem Body.content {s : Text} (h : Body s) : Content s := ⟨h.balanced_pad, h.trimmed⟩

theorem Node.Proper.legible {n : Node} (h : n.Proper) : n.Legible := by
  cases n with
  | sheet rules => exact h
  | rule selector declarations => exact ⟨h.1.ruleHeader, h.2.content⟩
  | statement name prelude => exact h
  | group name prelude rules => exact ⟨h.1, h.2.1.header, h.2.2⟩
  | block name prelude declarations =>
    obtain ⟨hname, hprelude, hbody, hplain⟩ := h
    exact ⟨hname, hprelude.header, hbody.content, hbody.holdsBlock_pad hplain⟩

theorem Header.unstopped_lead {s : Text} (h : Header s) : Unstopped (lead s ++ [' ']) := by
  unfold lead
  split
  · exact Unstopped.nil.space_concat
  · exact h.unstopped.space_cons

theorem Content.trim_pad {s : Text} (h : Content s) : Text.trim (pad s) = s := by
  unfold pad
  split
  · next hempty =>
    rw [List.isEmpty_iff.1 hempty]
    rfl
  · exact (Text.trim_pad (l := [' ']) (r := [' ']) rfl s rfl).trans h.trimmed

/-! ## one statement -/

theorem atNameChar_plain {c : Char} (h : atNameChar c = true) : Plain c := by
  rintro hc
  simp only [List.mem_cons, List.not_mem_nil, or_false] at hc
  rcases hc with rfl | rfl | rfl | rfl | rfl <;> revert h <;> decide

theorem flat_atNameChars {s : Text} (h : ∀ c ∈ s, atNameChar c = true) :
    Flat ending (s.map .char) := by
  refine .chars fun c hc => ?_
  have hchar := h c hc
  refine ⟨?_, ?_, ?_⟩
  · cases hend : ending c with
    | false => rfl
    | true =>
      rcases eq_of_ending hend with rfl | rfl | rfl <;> revert hchar <;> decide
  · rintro rfl
    revert hchar
    decide
  · rintro rfl
    revert hchar
    decide

namespace AtName
variable {name : Text}

theorem plain (h : AtName name) : ∀ c ∈ name, Plain c :=
  fun c hc => atNameChar_plain (h.chars c hc).1

theorem lexemes (h : AtName name) : lexemes name = name.map .char := lexemes_of_plain h.plain

theorem lower (h : AtName name) : Text.lower name = name :=
  Text.lower_eq_self fun c hc => (h.chars c hc).2

theorem flat (h : AtName name) : Flat ending (name.map .char) :=
  flat_atNameChars fun c hc => (h.chars c hc).1

/-- where the name of an at-rule ends -/
theorem span (h : AtName name) {ls : List Lexeme}
    (hfront : ∀ l ∈ ls.head?, atNameLexeme l = false) :
    (name.map Lexeme.char ++ ls).takeWhile atNameLexeme = name.map .char ∧
      (name.map Lexeme.char ++ ls).dropWhile atNameLexeme = ls := by
  have hname : ∀ l ∈ name.map Lexeme.char, atNameLexeme l = true := by
    rw [List.forall_mem_map]
    exact fun c hc => (h.chars c hc).1
  exact Text.span_append hname hfront

end AtName

/-- lexemes between the name of an at-rule and its end that are read as its prelude -/
structure Leading (prelude : Text) (ms : List Lexeme) : Prop where
  flat : Flat ending ms
  front : ∀ l ∈ ms.head?, atNameLexeme l = false
  tidy : tidy ms = prelude

theorem Leading.front_append {prelude : Text} {ms : List Lexeme} (h : Leading prelude ms) {c : Char}
    (hc : atNameChar c = false) (ls : List Lexeme) :
    ∀ l ∈ (ms ++ .char c :: ls).head?, atNameLexeme l = false := by
  cases ms with
  | nil =>
    rintro l hl
    obtain rfl := Option.some.inj hl
    exact hc
  | cons m ms => exact h.front

namespace Heading
variable {s : Text}

theorem leading (h : Heading s) : Leading s (lexemes (lead s)) where
  flat := h.unstopped_lead.flat
  tidy := by
    obtain ⟨l, hl, heq⟩ := lead_eq s
    have h1 := tidy_pad h.trimmed h.uncommented hl (r := []) (by simp)
    rwa [List.append_nil, ← heq] at h1
  front := by
    unfold lead
    split
    · rw [lexemes]
      simp
    · rw [lexemes_cons (by decide)]
      rintro l hl
      obtain rfl := Option.some.inj hl
      decide

end Heading

theorem Header.leading {s : Text} (h : Header s) : Leading s (lexemes (lead s ++ [' '])) where
  flat := h.unstopped_lead.flat
  tidy := by
    obtain ⟨l, hl, heq⟩ := lead_eq s
    rw [heq]
    exact tidy_pad h.trimmed h.uncommented hl (r := [' ']) (by simp)
  front := by
    obtain ⟨t, ht⟩ := lead_space s
    rw [ht, lexemes_cons (by decide)]
    rintro l hl
    obtain rfl := Option.some.inj hl
    decide

section
variable {name prelude : Text} {ms content : List Lexeme}

/-- an at-rule that ends at its semicolon -/
theorem atStatement_semicolon (hname : AtName name) (hms : Leading prelude ms) (tail : Nat)
    (rest : List Lexeme) :
    atStatement tail (name.map .char ++ (ms ++ .char ';' :: rest))
      = ⟨.node (.statement name prelude), [], rest⟩ := by
  obtain ⟨htake, hdrop⟩ := hname.span (hms.front_append (c := ';') (by decide) rest)
  simp only [atStatement, htake, hdrop, texts_map_char, hname.lower, hms.tidy,
    hms.flat.scan_stop (c := ';') rfl, List.isEmpty_eq_false_iff.2 hname.nonempty]
  rfl

/-- an at-rule that ends with its block -/
theorem atStatement_block (hname : AtName name) (hms : Leading prelude ms)
    (hcontent : balance (0, 0) content = some (0, 0)) (tail : Nat) (rest : List Lexeme) :
    atStatement tail
        (name.map .char ++ (ms ++ .char '\x7b' :: (content ++ .char '\x7d' :: rest))) =
      ⟨if holdsBlock content then .group name prelude content (1 + Lexeme.bytesOf rest + tail)
        else .node (.block name prelude (Text.trim (Lexeme.texts content))), [], rest⟩ := by
  obtain ⟨htake, hdrop⟩ := hname.span
    (hms.front_append (c := '\x7b') (by decide) (content ++ .char '\x7d' :: rest))
  simp only [atStatement, htake, hdrop, texts_map_char, hname.lower, hms.tidy,
    hms.flat.scan_stop (c := '\x7b') rfl, List.isEmpty_eq_false_iff.2 hname.nonempty,
    scanBlock_of_balance hcontent]
  split <;> rfl

theorem ruleStatement_block (hms : Flat ending ms)
    (hcontent : balance (0, 0) content = some (0, 0)) (nested : Bool) (tail : Nat)
    (rest : List Lexeme) :
    ruleStatement nested tail (ms ++ .char '\x7b' :: (content ++ .char '\x7d' :: rest))
      = ⟨.node (.rule (tidy ms) (Text.trim (Lexeme.texts content))), [], rest⟩ := by
  simp only [ruleStatement, hms.scan_stop (c := '\x7b') rfl, scanBlock_of_balance hcontent]

end

theorem statement_eq_rule {l : Lexeme} (hend : l.meets ending = false) (hat : l ≠ .char '@')
    (nested : Bool) (tail : Nat) (ls : List Lexeme) :
    statement nested tail l ls = ruleStatement nested tail (l :: ls) := by
  unfold statement
  split
  · cases hend
  · cases hend
  · exact absurd rfl hat
  · rfl

/-! ## between statements -/

/-- a text that starts with neither a blank nor a comment nor a marker -/
theorem skipTrivia_lexemes {s : Text} (hblank : ∀ c ∈ s.head?, blankChar c = false)
    (hcomment : ¬ "/*".toList <+: s) (hopen : ¬ "<!--".toList <+: s)
    (hclose : ¬ "-->".toList <+: s) : skipTrivia (lexemes s) = lexemes s := by
  have htext := text_lexemes s
  generalize hls : lexemes s = ls at htext ⊢
  unfold skipTrivia
  split
  · next ls => exact absurd ⟨Lexeme.texts ls, htext⟩ hopen
  · next ls => exact absurd ⟨Lexeme.texts ls, htext⟩ hclose
  · next t ls =>
    cases s with
    | nil => rw [lexemes] at hls; cases hls
    | cons c s =>
      rw [lexemes] at hls
      exact absurd (next_comment_inv (List.cons.inj hls).1) hcomment
  · next c ls _ _ =>
    have hc : blankChar c = false := hblank c (by rw [← htext]; rfl)
    rw [hc]
    rfl
  · rfl

/-! ## rules -/

section
variable {nested : Bool} {tail : Nat} {ls : List Lexeme} 

theorem rules_of_nil (h : skipTrivia ls = []) : rules nested tail ls = ([], []) := by
  unfold rules
  split
  · rfl
  · next heq => rw [h] at heq; cases heq

theorem rules_congr {ms : List Lexeme} (h : skipTrivia ls = skipTrivia ms) :
    rules nested tail ls = rules nested tail ms := by
  unfold rules
  rw [h]

theorem rules_of_node {l : Lexeme} {r rest : List Lexeme} {n : Node} (h : skipTrivia ls = l :: r)
    (hst : statement nested tail l r = ⟨.node n, [], rest⟩) :
    rules nested tail ls
      = (n :: (rules nested tail rest).1, (rules nested tail rest).2) := by
  rw [rules]
  split
  · next heq => rw [h] at heq; cases heq
  · next heq =>
    obtain ⟨rfl, rfl⟩ := List.cons.inj (h.symm.trans heq)
    generalize statement nested tail l r = st at hst ⊢
    subst hst
    rfl

theorem rules_of_group {l : Lexeme} {r inner rest : List Lexeme} {name prelude : Text}
    {behind : Nat} (h : skipTrivia ls = l :: r)
    (hst : statement nested tail l r = ⟨.group name prelude inner behind, [], rest⟩) :
    rules nested tail ls
      = (.group name prelude (rules true behind inner).1 :: (rules nested tail rest).1,
        (rules true behind inner).2 ++ (rules nested tail rest).2) := by
  rw [rules]
  split
  · next heq => rw [h] at heq; cases heq
  · next heq =>
    obtain ⟨rfl, rfl⟩ := List.cons.inj (h.symm.trans heq)
    generalize statement nested tail l r = st at hst ⊢
    subst hst
    rfl

end

theorem skipTrivia_atSign (ls : List Lexeme) :
    skipTrivia (.char '@' :: ls) = .char '@' :: ls := rfl

namespace RuleHeader
variable {s : Text}

theorem tidy_space (h : RuleHeader s) : tidy (lexemes (s ++ [' '])) = s := by
  have hpad := tidy_pad h.trimmed h.uncommented (l := []) (r := [' ']) (by simp) (by simp)
  rwa [List.nil_append] at hpad

theorem skipTrivia (h : RuleHeader s) (hne : s ≠ []) (t : Text) :
    skipTrivia (lexemes (s ++ ' ' :: t)) = lexemes (s ++ ' ' :: t) := by
  refine skipTrivia_lexemes ?_ ?_ ?_ ?_
  · obtain ⟨d, u, rfl⟩ := List.exists_cons_of_ne_nil hne
    exact (Text.trim_eq_self_iff.1 h.trimmed).first
  · exact fun hpat => h.uncommented (Text.prefix_of_prefix_append_cons (by decide) hpat).isInfix
  · exact fun hpat => h.openMarker (Text.prefix_of_prefix_append_cons (by decide) hpat)
  · exact fun hpat => h.closeMarker (Text.prefix_of_prefix_append_cons (by decide) hpat)

/-- the first lexeme of a selector starts a rule -/
theorem front (h : RuleHeader s) (hne : s ≠ []) :
    ∃ l ls, lexemes (s ++ [' ']) = l :: ls ∧ l.meets ending = false ∧ l ≠ .char '@' := by
  obtain ⟨l, ls, hls⟩ := List.exists_cons_of_ne_nil
    (mt lexemes_eq_nil_iff.1 (List.append_ne_nil_of_left_ne_nil hne [' ']))
  refine ⟨l, ls, hls, ?_, ?_⟩
  · have hpassed := h.unstopped.flat.passed
    rw [hls, scan_cons] at hpassed
    cases hmeets : l.meets ending with
    | false => rfl
    | true =>
      rw [hmeets, if_pos ⟨rfl, rfl⟩] at hpassed
      cases hpassed
  · rintro rfl
    have htext : '@' :: Lexeme.texts ls = s ++ [' '] := by
      rw [← text_lexemes (s ++ [' ']), hls]
      rfl
    exact h.atSign (Text.prefix_of_prefix_append_cons (by decide) ⟨Lexeme.texts ls, htext⟩)

end RuleHeader

/-- a rule in front of anything; the space behind an empty selector is skipped -/
theorem rules_rule {s t : Text} (hs : RuleHeader s) (ht : Balanced t) (nested : Bool) (tail : Nat)
    (rest : Text) :
    rules nested tail (lexemes (s ++ [' '] ++ '\x7b' :: (t ++ ['\x7d']) ++ rest)) =
      (.rule s (Text.trim t) :: (rules nested tail (lexemes rest)).1,
        (rules nested tail (lexemes rest)).2) := by
  have hlexemes := lexemes_block hs.unstopped.complete ht.complete rest
  have hst := fun ms (hms : Flat ending ms) =>
    ruleStatement_block hms ht.closed nested tail (lexemes rest)
  rw [text_lexemes t] at hst
  by_cases hempty : s = []
  · subst hempty
    have hskip : skipTrivia (lexemes ([] ++ [' '] ++ '\x7b' :: (t ++ ['\x7d']) ++ rest))
        = .char '\x7b' :: (lexemes t ++ .char '\x7d' :: lexemes rest) := by
      rw [hlexemes, List.nil_append, lexemes_cons (by decide), lexemes]
      rfl
    have hrule := hst [] .nil
    rw [tidy_nil] at hrule
    exact rules_of_node hskip hrule
  · obtain ⟨l, ls, hls, hend, hat⟩ := hs.front hempty
    have hskip : skipTrivia (lexemes (s ++ [' '] ++ '\x7b' :: (t ++ ['\x7d']) ++ rest))
        = l :: (ls ++ .char '\x7b' :: (lexemes t ++ .char '\x7d' :: lexemes rest)) := by
      have hself := hs.skipTrivia hempty ('\x7b' :: (t ++ ['\x7d']) ++ rest)
      rw [List.append_cons, ← List.append_assoc] at hself
      rw [hself, hlexemes, hls, List.cons_append]
    have hrule := hst (lexemes (s ++ [' '])) hs.unstopped.flat
    rw [hs.tidy_space, hls, List.cons_append] at hrule
    refine rules_of_node hskip ?_
    rw [statement_eq_rule hend hat, hrule]

/-! ## rendered nodes -/

namespace Node

section
variable {name prelude t : Text}

theorem lexemes_head_append (hname : AtName name) (ht : t.head? ≠ some '*') :
    lexemes (head name prelude ++ t) =
      .char '@' :: (name.map .char ++ lexemes (lead prelude ++ t)) := by
  rw [head_eq, List.cons_append, List.cons_append, lexemes_cons (by decide), List.append_assoc,
    lexemes_append (.of_plain hname.plain) (lead_ne_star prelude ht), hname.lexemes]

theorem lexemes_head (hname : AtName name) :
    lexemes (head name prelude) = .char '@' :: (name.map .char ++ lexemes (lead prelude)) := by
  have happ : lexemes (head name prelude ++ [])
      = .char '@' :: (name.map .char ++ lexemes (lead prelude ++ [])) :=
    lexemes_head_append hname (by simp)
  rwa [List.append_nil, List.append_nil] at happ

theorem unstopped_head_append (hname : AtName name) (ht : t.head? ≠ some '*')
    (h : Unstopped (lead prelude ++ t)) : Unstopped (head name prelude ++ t) where
  complete := by
    rw [head_eq, List.cons_append, List.cons_append, List.append_assoc]
    exact Complete.nil.append_cons (by decide)
      (.append (.of_plain hname.plain) h.complete (lead_ne_star prelude ht))
  flat := by
    rw [lexemes_head_append hname ht]
    exact (hname.flat.append h.flat).cons rfl rfl

theorem unstopped_head (hname : AtName name) (hprelude : Heading prelude) :
    Unstopped (head name prelude) := by
  have h := unstopped_head_append hname (t := []) (by simp)
    (by rw [List.append_nil]; exact hprelude.unstopped_lead)
  rwa [List.append_nil] at h

theorem unstopped_head_space (hname : AtName name) (hprelude : Header prelude) :
    Unstopped (head name prelude ++ [' ']) :=
  unstopped_head_append hname (by decide) hprelude.unstopped_lead

end

theorem render_group (name prelude : Text) (rules : List Node) :
    (Node.group name prelude rules).render = head name prelude ++ [' '] ++
      '\x7b' :: ('\n' :: (Node.sheet rules).render ++ ['\n'] ++ ['\x7d']) := by
  simp [render]

theorem render_sheet_cons (n : Node) (ns : List Node) :
    (Node.sheet (n :: ns)).render =
      n.render ++ if ns.isEmpty then [] else '\n' :: (Node.sheet ns).render := by
  cases ns with
  | nil => simp [render, renderList]
  | cons m ns => simp [render, renderList, Text.joinWith_cons_cons]

/-- a node is written as a heading with a semicolon or with a block behind it -/
theorem render_cases {n : Node} (h : n.Legible) (hinner : Balanced (Node.sheet n.inner).render) :
    (n.isBraced = false ∧ ∃ s, Unstopped s ∧ n.render = s ++ [';']) ∨
      (n.isBraced = true ∧ ∃ s t, Unstopped s ∧ Balanced t ∧
        n.render = s ++ '\x7b' :: (t ++ ['\x7d'])) := by
  cases n with
  | sheet rules => exact h.elim
  | rule selector declarations =>
    exact .inr ⟨rfl, selector ++ [' '], pad declarations, h.1.unstopped, h.2.balanced, braced_eq ..⟩
  | statement name prelude =>
    exact .inl ⟨rfl, head name prelude, unstopped_head h.1 h.2, rfl⟩
  | group name prelude rules =>
    exact .inr ⟨rfl, head name prelude ++ [' '], _, unstopped_head_space h.1 h.2.1,
      (hinner.cons (by decide) rfl).concat (by decide) rfl, render_group ..⟩
  | block name prelude declarations =>
    exact .inr ⟨rfl, head name prelude ++ [' '], pad declarations, unstopped_head_space h.1 h.2.1,
      h.2.2.1.balanced, braced_eq ..⟩

theorem balanced_render {n : Node} (h : n.Legible) (hinner : Balanced (Node.sheet n.inner).render) :
    Balanced n.render := by
  rcases render_cases h hinner with ⟨-, s, hs, heq⟩ | ⟨-, s, t, hs, ht, heq⟩
  · rw [heq]
    exact hs.balanced.concat (by decide) rfl
  · rw [heq]
    exact hs.balanced.block ht

theorem balanced_render_sheet {ns : List Node} (h : ∀ n ∈ walkList ns, n.Legible) :
    Balanced (Node.sheet ns).render := by
  induction ns using rules_induction with
  | nil => exact .nil
  | cons n ns ihInner ih =>
    rw [walkList_cons, List.forall_mem_append, List.forall_mem_cons] at h
    obtain ⟨⟨hn, hinner⟩, hns⟩ := h
    have hrender := balanced_render hn (ihInner hinner)
    rw [render_sheet_cons]
    split
    · rwa [List.append_nil]
    · exact hrender.append_cons (by decide) rfl (ih hns)

theorem lexemes_at_block {name prelude t : Text} (hname : AtName name) (hprelude : Header prelude)
    (ht : Complete t) (rest : Text) :
    lexemes (head name prelude ++ [' '] ++ '\x7b' :: (t ++ ['\x7d']) ++ rest) =
      .char '@' :: (name.map .char ++ (lexemes (lead prelude ++ [' ']) ++
        .char '\x7b' :: (lexemes t ++ .char '\x7d' :: lexemes rest))) := by
  rw [lexemes_block (unstopped_head_space hname hprelude).complete ht,
    lexemes_head_append hname (by decide), List.cons_append, List.append_assoc]

/-- rules with a block among them are told apart from declarations -/
theorem holdsBlock_render_sheet {ns : List Node} (h : ∀ n ∈ walkList ns, n.Legible)
    (hbraced : ∃ n ∈ ns, n.isBraced) (rest : Text) :
    holdsBlock (lexemes ((Node.sheet ns).render ++ rest)) = true := by
  induction ns with
  | nil =>
    obtain ⟨n, hn, -⟩ := hbraced
    cases hn
  | cons n ns ih =>
    rw [walkList_cons, List.forall_mem_append, List.forall_mem_cons] at h
    obtain ⟨⟨hn, hinner⟩, hns⟩ := h
    rw [render_sheet_cons, List.append_assoc]
    rcases render_cases hn (balanced_render_sheet hinner) with
      ⟨hplain, s, hs, heq⟩ | ⟨-, s, t, hs, ht, heq⟩
    · -- no brace stands in a statement: the block is the one of a later rule
      rw [List.exists_mem_cons_iff, hplain] at hbraced
      have hbelow : ∃ m ∈ ns, m.isBraced := hbraced.resolve_left Bool.false_ne_true
      have hne : ns.isEmpty = false := by
        obtain ⟨m, hm, -⟩ := hbelow
        exact List.isEmpty_eq_false_iff.2 (List.ne_nil_of_mem hm)
      rw [heq, hne, List.append_assoc, if_neg Bool.false_ne_true, List.singleton_append,
        List.cons_append, lexemes_append_cons hs.complete (by decide), lexemes_cons (by decide),
        holdsBlock_append hs.flat]
      exact ih hns hbelow
    · rw [heq, lexemes_block hs.complete ht.complete, holdsBlock_append hs.flat]
      rfl

/-! ## reading rendered nodes -/

/-- the rules are read from their text, whatever follows them -/
def ReadBack (ns : List Node) : Prop :=
  ∀ (nested : Bool) (tail : Nat) (rest : Text),
    rules nested tail (lexemes ((Node.sheet ns).render ++ rest)) =
      (ns ++ (rules nested tail (lexemes rest)).1, (rules nested tail (lexemes rest)).2)

/-- what is behind a newline between rules -/
theorem rules_newline (nested : Bool) (tail : Nat) (rest : Text) :
    rules nested tail (lexemes ('\n' :: rest)) = rules nested tail (lexemes rest) := by
  rw [lexemes_cons (by decide)]
  exact rules_congr rfl

theorem rules_newline_nil (nested : Bool) (tail : Nat) :
    rules nested tail (lexemes ['\n']) = ([], []) := by
  rw [rules_newline, lexemes]
  exact rules_of_nil rfl

/-- one node in front of anything -/
theorem rules_render {n : Node} (h : n.Legible) (hinner : ∀ m ∈ walkList n.inner, m.Legible)
    (hback : ReadBack n.inner) (nested : Bool) (tail : Nat) (rest : Text) :
    rules nested tail (lexemes (n.render ++ rest)) =
      (n :: (rules nested tail (lexemes rest)).1, (rules nested tail (lexemes rest)).2) := by
  cases n with
  | sheet rules => exact h.elim
  | rule selector declarations =>
    rw [render, braced_eq, rules_rule h.1 h.2.balanced, h.2.trim_pad]
  | statement name prelude =>
    obtain ⟨hname, hprelude⟩ := h
    rw [render, List.append_assoc, List.singleton_append,
      lexemes_append_cons (unstopped_head hname hprelude).complete (by decide),
      lexemes_head hname, List.cons_append, List.append_assoc]
    exact rules_of_node (skipTrivia_atSign _) (atStatement_semicolon hname hprelude.leading tail _)
  | group name prelude rules =>
    obtain ⟨hname, hprelude, hbraced⟩ := h
    have hcontent : Balanced ('\n' :: (Node.sheet rules).render ++ ['\n']) :=
      ((balanced_render_sheet hinner).cons (by decide) rfl).concat (by decide) rfl
    have hholds : holdsBlock (lexemes ('\n' :: (Node.sheet rules).render ++ ['\n'])) = true := by
      rw [List.cons_append, lexemes_cons (by decide)]
      exact holdsBlock_render_sheet hinner hbraced ['\n']
    rw [render_group, lexemes_at_block hname hprelude hcontent.complete]
    have hst := atStatement_block hname hprelude.leading hcontent.closed tail (lexemes rest)
    rw [hholds] at hst
    -- no rule stands behind the newline before the closing brace
    have hcontents : Css.rules true (1 + Lexeme.bytesOf (lexemes rest) + tail)
        (lexemes ((Node.sheet rules).render ++ ['\n'])) = (rules, []) := by
      refine (hback true _ ['\n']).trans ?_
      rw [rules_newline_nil, List.append_nil]
      rfl
    refine (rules_of_group (skipTrivia_atSign _) hst).trans ?_
    rw [List.cons_append, rules_newline, hcontents]
    rfl
  | block name prelude declarations =>
    obtain ⟨hname, hprelude, hcontent, hplain⟩ := h
    rw [render, braced_eq, lexemes_at_block hname hprelude hcontent.balanced.complete]
    have hst := atStatement_block hname hprelude.leading hcontent.balanced.closed tail
      (lexemes rest)
    rw [hplain, text_lexemes, hcontent.trim_pad] at hst
    exact rules_of_node (skipTrivia_atSign _) hst

theorem readBack_of_legible {ns : List Node} (h : ∀ n ∈ walkList ns, n.Legible) :
    ReadBack ns := by
  induction ns using rules_induction with
  | nil =>
    intro nested tail rest
    rfl
  | cons n ns ihInner ih =>
    intro nested tail rest
    rw [walkList_cons, List.forall_mem_append, List.forall_mem_cons] at h
    obtain ⟨⟨hn, hinner⟩, hns⟩ := h
    rw [render_sheet_cons, List.append_assoc, rules_render hn hinner (ihInner hinner)]
    cases ns with
    | nil => rfl
    | cons m ns =>
      rw [List.isEmpty_cons, if_neg Bool.false_ne_true, List.cons_append, rules_newline, ih hns]
      rfl

theorem readBack {ns : List Node} (h : ∀ n ∈ walkList ns, n.Proper) : ReadBack ns :=
  readBack_of_legible fun n hn => (h n hn).legible

end Node

/-- a strict reading of a rendered sheet succeeds and gives the sheet -/
theorem parse_render (rules : List Node) (h : ∀ n ∈ Node.walkList rules, n.Proper) :
    parse false (Node.sheet rules).render = ⟨[], .ok (.sheet rules)⟩ := by
  have hrules : Css.rules false 0 (lexemes (Node.sheet rules).render) = (rules, []) := by
    have hback := Node.readBack h false 0 []
    have hend : Css.rules false 0 (lexemes []) = ([], []) := by
      rw [lexemes]
      exact rules_of_nil rfl
    rwa [List.append_nil, hend, List.append_nil] at hback
  rw [parse, hrules]
  rfl

/-- rules in which strings, escapes, comments and parentheses hide braces and semicolons -/
def nestedRules : List Node :=
  [.statement "import".toList "url(a;b.css)".toList,
    .group "media".toList "(min-width: 1px)".toList
      [.statement "layer".toList "a, b".toList,
        .group "supports".toList []
          [.rule "a[b=\"\x7b\"]".toList "content: '\x7d'".toList, .rule [] [] ]],
    .block "font-face".toList [] "src: url(\x7b); /* \x7d */ a".toList,
    .rule "*".toList "b \x7b c: \\\x7d \x7d".toList]

theorem parse_render_nested :
    (∀ n ∈ Node.walkList nestedRules, n.Proper) ∧
      parse false (Node.sheet nestedRules).render = ⟨[], .ok (.sheet nestedRules)⟩ :=
  have h : ∀ n ∈ Node.walkList nestedRules, n.Proper := by decide +kernel
  ⟨h, parse_render nestedRules h⟩
end PageTemplates.Css
