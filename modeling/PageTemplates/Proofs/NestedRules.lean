import Mathlib.Logic.Relation
import PageTemplates.Proofs.FaultOffsets
import PageTemplates.Proofs.Rereading

/-!
# Rules in the block of an at-rule

Where a block ends is found in one pass over braces and parentheses.  The rules in it are read
statement by statement, and every statement counts its parentheses and blocks anew.  Both see the
same blocks: a block that is opened in another one is closed in it, and no statement ends at the
brace that closes the block around it.

* `Closed`                  lexemes that close every block they open, and no other;
* `Ends`, `Closed.ends`     where a prelude or selector ends in closed lexemes;
* `Finding.Inside`          what can be wrong in a block;
* `Statement.Inside`        one statement in a block;
* `exists_isBraced_rules`   an opening brace in a block is that of a rule;
* `Reader`, `Reader.Step`   a reader of rules and what it goes on with after one statement;
* `Reader.Reaches.part`, `Reader.Reaches.inside`   what a reader in a block keeps;
* `exists_reader_of_mem_rules`   what is found in rules is found in one statement on the way;
* `AtBlock`                 the block of an at-rule that is read in a source;
* `rules_of_atBlock`        the rules in it.
-/

namespace PageTemplates.Css

open Lexeme

/-! ## closed lexemes -/

/-- lexemes that close every block they open, and no other -/
def Closed (ls : List Lexeme) : Prop := balance (0, 0) ls = some (0, 0)

section
variable {ls xs ys s inner rest : List Lexeme}

theorem Closed.nil : Closed [] := rfl

theorem Flat.closed_append (h : Flat ending xs) : Closed (xs ++ ys) ↔ Closed ys := by
  rw [Closed, balance_append (h.balance 0), Closed]

theorem not_closed_brace (ls : List Lexeme) : ¬ Closed (.char '\x7d' :: ls) := nofun

/-- a block that is closed by the end of the lexemes has an end among them -/
theorem scanBlock_of_closes {b p : Nat} (h : balance (b + 1, p) ls = some (0, 0)) :
    ∃ inner rest, scanBlock b p ls = some (inner, rest) ∧ Closed rest := by
  -- on the left one more block is counted as open than by the scanner
  induction ls generalizing b p with
  | nil => cases h
  | cons l ls ih =>
    rw [balance, List.foldlM_cons] at h
    rw [scanBlock_cons]
    cases hturn : l.turn (b, p) with
    | none =>
      obtain ⟨rfl, rfl, rfl⟩ := turn_eq_none hturn
      exact ⟨[], ls, rfl, h⟩
    | some opened =>
      rw [turn_succ hturn] at h
      obtain ⟨inner, rest, hblock, hrest⟩ := ih h
      refine ⟨l :: inner, rest, ?_, hrest⟩
      dsimp only
      rw [hblock]
      rfl

/-- where a prelude or selector ends in closed lexemes `ls`: with all of them, at a semicolon, or
at a block that is closed -/
inductive Ends (ls : List Lexeme) : List Lexeme → Prop
  | done (holds : holdsBlock ls = false) : Ends ls []
  | semicolon {xs rest : List Lexeme} (split : ls = xs ++ .char ';' :: rest)
      (holds : holdsBlock ls = holdsBlock rest) (closed : Closed rest) :
      Ends ls (.char ';' :: rest)
  | block {s inner rest : List Lexeme} (block : scanBlock 0 0 s = some (inner, rest))
      (closed : Closed rest) : Ends ls (.char '\x7b' :: s)

theorem Closed.ends (h : Closed ls) : Ends ls (scan ending 0 ls).2 := by
  cases hstop : (scan ending 0 ls).2 with
  | nil =>
    exact .done (holdsBlock_eq_false_iff.2 (scan_passed_mono opening_le_ending hstop))
  | cons l s =>
    obtain ⟨hls, hmeets, hflat⟩ := flat_of_scan hstop
    have hclosed : Closed (l :: s) := hflat.closed_append.1 (hls ▸ h)
    rcases eq_of_meets_ending hmeets with rfl | rfl | rfl
    · have hholds : holdsBlock ls = holdsBlock (.char ';' :: s) := by
        rw [hls, holdsBlock_append hflat]
      exact .semicolon hls hholds hclosed
    · obtain ⟨inner, rest, hblock, hrest⟩ := scanBlock_of_closes hclosed
      exact .block hblock hrest
    · exact absurd hclosed (not_closed_brace s)

theorem Ends.append (h : Ends ls s) (hxs : Flat ending xs) : Ends (xs ++ ls) s := by
  have hholds := holdsBlock_append hxs ls
  cases h with
  | done hnone => exact .done (hholds.trans hnone)
  | @semicolon ms rest hls hrest hclosed =>
    have happ : xs ++ ls = (xs ++ ms) ++ .char ';' :: rest := by rw [hls, List.append_assoc]
    exact .semicolon happ (hholds.trans hrest) hclosed
  | block hblock hclosed => exact .block hblock hclosed

/-- a closing brace ends no prelude or selector in closed lexemes -/
theorem Closed.scan_ne_brace (h : Closed ls) (s : List Lexeme) :
    (scan ending 0 ls).2 ≠ .char '\x7d' :: s := by
  intro hstop
  have hends := h.ends
  rw [hstop] at hends
  cases hends

end

/-! ## one statement in a block -/

/-- what can be wrong in a block: no closing brace is left over, every block has an end, and a rule
without a block ends at a semicolon -/
structure Finding.Inside (tail : Nat) (ls : List Lexeme) (f : Finding) : Prop where
  strayBrace : f.cause ≠ .strayBrace
  unclosedAtBlock : ∀ name, f.cause ≠ .unclosedAtBlock name
  unclosedBlock : ∀ selector, f.cause ≠ .unclosedBlock selector
  missingBlock : ∀ selector, f.cause = .missingBlock selector →
    ∃ xs ys, ls = xs ++ .char ';' :: ys ∧ f.left = bytesOf (.char ';' :: ys) + tail

/-- what one statement in a block finds, what it leaves, and what it opens -/
structure Statement.Inside (tail : Nat) (ls : List Lexeme) (st : Statement) : Prop where
  findings : ∀ f ∈ st.findings, f.Inside tail ls
  rest : Closed st.rest
  inner : Closed st.item.inner
  braced : holdsBlock ls = true → st.item.isBraced = true ∨ holdsBlock st.rest = true

section
variable {tail : Nat} {ls : List Lexeme}

theorem flat_atName (ls : List Lexeme) : Flat ending (.char '@' :: ls.takeWhile atNameLexeme) := by
  have hts : ∀ l ∈ ls.takeWhile atNameLexeme, atNameLexeme l = true :=
    List.all_eq_true.1 List.all_takeWhile
  obtain ⟨hmap, hchars⟩ := atNameChars_of_lexemes hts
  rw [← hmap]
  exact (flat_atNameChars hchars).cons rfl rfl

/-- the prelude of an at-rule ends as a selector does -/
theorem Closed.ends_prelude (h : Closed (.char '@' :: ls)) :
    Ends (.char '@' :: ls) (scan ending 0 (ls.dropWhile atNameLexeme)).2 := by
  have hname := flat_atName ls
  have hls : Lexeme.char '@' :: ls
      = (.char '@' :: ls.takeWhile atNameLexeme) ++ ls.dropWhile atNameLexeme := by
    rw [List.cons_append, List.takeWhile_append_dropWhile]
  rw [hls] at h ⊢
  exact (hname.closed_append.1 h).ends.append hname

theorem inside_missingName (tail : Nat) (ls : List Lexeme) (name : Text) (left : Nat) :
    ∀ f ∈ if name.isEmpty then [Finding.mk .missingName left] else [], f.Inside tail ls := by
  split
  · exact List.forall_mem_singleton.2 ⟨nofun, nofun, nofun, nofun⟩
  · exact List.forall_mem_nil _

theorem inside_atStatement (h : Closed (.char '@' :: ls)) :
    (atStatement tail ls).Inside tail (.char '@' :: ls) := by
  have hends := h.ends_prelude
  have hnamed := inside_missingName tail (.char '@' :: ls)
    (Text.lower (Lexeme.texts (ls.takeWhile atNameLexeme)))
    (bytesOf (ls.dropWhile atNameLexeme) + tail)
  unfold atStatement
  simp only
  split
  · next rest hstop =>
    rw [hstop] at hends
    cases hends with
    | semicolon _ hholds hclosed =>
      exact ⟨hnamed, hclosed, .nil, fun hbrace => .inr (hholds ▸ hbrace)⟩
  · next s hstop =>
    rw [hstop] at hends
    cases hends with
    | block hblock hclosed =>
      rw [hblock]
      dsimp only
      split
      · exact ⟨hnamed, hclosed, (scanBlock_inv hblock).2, fun _ => .inl rfl⟩
      · exact ⟨hnamed, hclosed, .nil, fun _ => .inl rfl⟩
  · next hsemicolon hblock =>
    generalize (scan ending 0 (ls.dropWhile atNameLexeme)).2 = s at *
    cases hends with
    | done hnone =>
      have hbrace : ¬ holdsBlock (.char '@' :: ls) = true := Bool.eq_false_iff.1 hnone
      split
      · exact ⟨hnamed, .nil, .nil, fun hholds => absurd hholds hbrace⟩
      · refine ⟨List.forall_mem_append.2 ⟨hnamed, List.forall_mem_singleton.2 ?_⟩, .nil, .nil,
          fun hholds => absurd hholds hbrace⟩
        exact ⟨nofun, nofun, nofun, nofun⟩
    | semicolon => exact absurd rfl (hsemicolon _)
    | block => exact absurd rfl (hblock _)

theorem inside_ruleStatement (h : Closed ls) (nested : Bool) :
    (ruleStatement nested tail ls).Inside tail ls := by
  have hends := h.ends
  unfold ruleStatement
  simp only
  split
  · next s hstop =>
    rw [hstop] at hends
    cases hends with
    | block hblock hclosed =>
      rw [hblock]
      exact ⟨List.forall_mem_nil _, hclosed, .nil, fun _ => .inl rfl⟩
  · next hstop =>
    rw [hstop] at hends
    cases hends with
    | done hnone =>
      have hbrace : ¬ holdsBlock ls = true := Bool.eq_false_iff.1 hnone
      exact ⟨List.forall_mem_singleton.2 ⟨nofun, nofun, nofun, nofun⟩, .nil, .nil,
        fun hholds => absurd hholds hbrace⟩
  · next l s hblock hstop =>
    rw [hstop] at hends
    cases hends with
    | @semicolon xs rest hls hholds hclosed =>
      -- only a closing brace would be left to the reader around the block
      have hpassed : (nested && Lexeme.char ';' == .char '\x7d') = false := Bool.and_false nested
      rw [hpassed]
      exact ⟨List.forall_mem_singleton.2 ⟨nofun, nofun, nofun, fun _ _ => ⟨xs, s, hls, rfl⟩⟩,
        hclosed, .nil, fun hbrace => .inr (hholds ▸ hbrace)⟩
    | block => exact absurd rfl hblock

/-- a statement in a block finds nothing that only the end of the block could be the reason for -/
theorem inside_statement {l : Lexeme} (h : Closed (l :: ls)) (nested : Bool) :
    (statement nested tail l ls).Inside tail (l :: ls) := by
  unfold statement
  split
  · exact absurd h (not_closed_brace ls)
  · exact ⟨List.forall_mem_nil _, h, .nil, .inr⟩
  · exact inside_atStatement h
  · exact inside_ruleStatement h nested

theorem closed_skipTrivia : Closed (skipTrivia ls) ↔ Closed ls := by
  obtain ⟨xs, hxs, heq⟩ := skipTrivia_inv ls
  have happ : Closed (xs ++ skipTrivia ls) ↔ Closed (skipTrivia ls) := hxs.closed_append
  rw [← heq] at happ
  exact happ.symm

end

/-- an opening brace in a block is that of a rule in it -/
theorem exists_isBraced_rules (nested : Bool) (tail : Nat) {ls : List Lexeme} (h : Closed ls)
    (hls : holdsBlock ls = true) : ∃ n ∈ (rules nested tail ls).1, n.isBraced = true := by
  rw [← closed_skipTrivia] at h
  rw [← holdsBlock_skipTrivia] at hls
  -- a statement without a block leaves the brace to those behind it
  fun_induction rules nested tail ls with
  | case1 nested tail ls hskip =>
    rw [hskip] at hls
    cases hls
  | case2 nested tail ls l r hskip st more hitem ih =>
    rw [hskip] at h hls
    have hst : st.Inside tail (l :: r) := inside_statement h nested
    have hbraced := hst.braced hls
    rw [hitem] at hbraced
    exact ih (closed_skipTrivia.2 hst.rest)
      ((holdsBlock_skipTrivia _).trans (hbraced.resolve_left Bool.false_ne_true))
  | case3 nested tail ls l r hskip st more n hitem ih =>
    rw [hskip] at h hls
    have hst : st.Inside tail (l :: r) := inside_statement h nested
    have hbraced := hst.braced hls
    rw [hitem] at hbraced
    rw [List.exists_mem_cons_iff]
    refine hbraced.imp_right fun hrest => ?_
    exact ih (closed_skipTrivia.2 hst.rest) ((holdsBlock_skipTrivia _).trans hrest)
  | case4 => exact ⟨_, List.mem_cons_self, rfl⟩

/-! ## where the reader of rules goes -/

/-- a reader of rules: whether it is in a block, how many bytes of the source lie behind the lexemes
in hand, and these lexemes -/
structure Reader where
  nested : Bool
  tail : Nat
  ahead : List Lexeme

namespace Reader

/-- one statement is read, and the reader goes on behind it or into its block -/
inductive Step (p : Reader) : Reader → Prop
  | behind {l : Lexeme} {r : List Lexeme} (front : skipTrivia p.ahead = l :: r) :
      Step p ⟨p.nested, p.tail, (statement p.nested p.tail l r).rest⟩
  | into {l : Lexeme} {r inner : List Lexeme} {name prelude : Text} {behind : Nat}
      (front : skipTrivia p.ahead = l :: r)
      (item : (statement p.nested p.tail l r).item = .group name prelude inner behind) :
      Step p ⟨true, behind, inner⟩

/-- some statements are read one after another -/
def Reaches : Reader → Reader → Prop := Relation.ReflTransGen Step

/-- the lexemes that `q` has in hand are some of those of `p`, in a row -/
def Part (p q : Reader) : Prop :=
  ∃ xs zs, p.ahead = xs ++ (q.ahead ++ zs) ∧ q.tail = bytesOf zs + p.tail

/-- a reader in a block, whose lexemes do not close the block -/
structure Inside (p : Reader) : Prop where
  nested : p.nested = true
  closed : Closed p.ahead

section
variable {p q : Reader} {l : Lexeme} {r : List Lexeme}

namespace Part

theorem refl (p : Reader) : p.Part p := by
  refine ⟨[], [], ?_, (Nat.zero_add p.tail).symm⟩
  rw [List.append_nil, List.nil_append]

theorem trans {o : Reader} (h : p.Part q) (h' : q.Part o) : p.Part o := by
  obtain ⟨xs, zs, hahead, htail⟩ := h
  obtain ⟨us, ws, hahead', htail'⟩ := h'
  refine ⟨xs ++ us, ws ++ zs, ?_, ?_⟩
  · rw [hahead, hahead']
    simp only [List.append_assoc]
  · rw [htail', htail, bytesOf_append, Nat.add_assoc]

theorem lexed (h : p.Part q) (hp : Lexed p.ahead) : Lexed q.ahead := by
  obtain ⟨xs, zs, hahead, -⟩ := h
  rw [hahead] at hp
  cases zs with
  | nil =>
    rw [List.append_nil] at hp
    exact hp.of_append
  | cons z zs => exact hp.of_append.cut

theorem finding_inside (h : p.Part q) {f : Finding} (hf : f.Inside q.tail q.ahead) :
    f.Inside p.tail p.ahead := by
  obtain ⟨xs, zs, hahead, htail⟩ := h
  refine ⟨hf.strayBrace, hf.unclosedAtBlock, hf.unclosedBlock, fun selector hcause => ?_⟩
  obtain ⟨us, vs, hsplit, hleft⟩ := hf.missingBlock selector hcause
  refine ⟨xs ++ us, vs ++ zs, ?_, ?_⟩
  · rw [hahead, hsplit]
    simp only [List.append_assoc, List.cons_append]
  · have hbytes : bytesOf (.char ';' :: (vs ++ zs)) = bytesOf (.char ';' :: vs) + bytesOf zs :=
      bytesOf_append (.char ';' :: vs) zs
    rw [hleft, htail, hbytes, Nat.add_assoc]

end Part

/-- the next statement begins behind what is skipped -/
theorem part_front (front : skipTrivia p.ahead = l :: r) : p.Part ⟨p.nested, p.tail, l :: r⟩ := by
  obtain ⟨xs, -, hls⟩ := skipTrivia_inv p.ahead
  rw [front] at hls
  exact ⟨xs, [], by rw [List.append_nil, hls], (Nat.zero_add p.tail).symm⟩

theorem Step.part (h : Step p q) : p.Part q := by
  cases h with
  | @behind l r front =>
    obtain ⟨xs, hrest⟩ := (traced_statement p.nested p.tail l r).rest
    refine (part_front front).trans ⟨xs, [], ?_, (Nat.zero_add p.tail).symm⟩
    rw [List.append_nil]
    exact hrest
  | @into l r inner name prelude behind front item =>
    obtain ⟨hbehind, ⟨xs, hinner⟩, -⟩ :=
      (traced_statement p.nested p.tail l r).block name prelude inner behind item
    exact (part_front front).trans ⟨xs, _, hinner, hbehind⟩

theorem Inside.statement (hp : p.Inside) (front : skipTrivia p.ahead = l :: r) :
    (statement p.nested p.tail l r).Inside p.tail (l :: r) := by
  have hclosed : Closed (l :: r) := front ▸ closed_skipTrivia.2 hp.closed
  exact inside_statement hclosed p.nested

theorem Step.inside (h : Step p q) (hp : p.Inside) : q.Inside := by
  cases h with
  | behind front => exact ⟨hp.nested, (hp.statement front).rest⟩
  | into front item =>
    have hinner := (hp.statement front).inner
    rw [item] at hinner
    exact ⟨rfl, hinner⟩

/-- the lexemes in hand are a part of those at the beginning -/
theorem Reaches.part (h : p.Reaches q) : p.Part q := by
  induction h with
  | refl => exact .refl p
  | tail _ hstep ih => exact ih.trans hstep.part

/-- no reader leaves the block that it is in -/
theorem Reaches.inside (h : p.Reaches q) (hp : p.Inside) : q.Inside := by
  induction h with
  | refl => exact hp
  | tail _ hstep ih => exact hstep.inside ih

end

end Reader

/-- what is found in rules is found in a statement that the reader comes to -/
theorem exists_reader_of_mem_rules {nested : Bool} {tail : Nat} {ls : List Lexeme} {f : Finding}
    (h : f ∈ (rules nested tail ls).2) :
    ∃ q l r, Reader.Reaches ⟨nested, tail, ls⟩ q ∧ skipTrivia q.ahead = l :: r ∧
      f ∈ (statement q.nested q.tail l r).findings := by
  fun_induction rules nested tail ls with
  | case1 => cases h
  | case2 nested tail ls l r hskip st more _ ih | case3 nested tail ls l r hskip st more _ _ ih =>
    rcases List.mem_append.1 h with h | h
    · exact ⟨⟨nested, tail, ls⟩, l, r, .refl, hskip, h⟩
    · obtain ⟨q, m, s, hreach, hfound⟩ := ih h
      exact ⟨q, m, s, .head (.behind hskip) hreach, hfound⟩
  | case4 nested tail ls l r hskip st more name prelude inner behind hitem below ih ihInner =>
    rcases List.mem_append.1 h with h | h
    · rcases List.mem_append.1 h with h | h
      · exact ⟨⟨nested, tail, ls⟩, l, r, .refl, hskip, h⟩
      · obtain ⟨q, m, s, hreach, hfound⟩ := ihInner h
        exact ⟨q, m, s, .head (.into hskip hitem) hreach, hfound⟩
    · obtain ⟨q, m, s, hreach, hfound⟩ := ih h
      exact ⟨q, m, s, .head (.behind hskip) hreach, hfound⟩

/-- what is found in a block, at every depth, could be found inside it -/
theorem inside_rules {tail : Nat} {ls : List Lexeme} (h : Closed ls) :
    ∀ f ∈ (rules true tail ls).2, f.Inside tail ls := by
  intro f hf
  obtain ⟨q, l, r, hreach, front, hfound⟩ := exists_reader_of_mem_rules hf
  have hq : q.Inside := hreach.inside ⟨rfl, h⟩
  have hfront : f.Inside q.tail (l :: r) := (hq.statement front).findings f hfound
  exact hreach.part.finding_inside ((Reader.part_front front).finding_inside hfront)

/-! ## blocks of at-rules -/

/-- the block of an at-rule that the reader comes to in a source, at any depth: what stands in it,
and how many bytes of the source lie behind that -/
inductive AtBlock (source : Text) : List Lexeme → Nat → Prop
  | intro {p : Reader} {ls s inner rest : List Lexeme}
      (place : Reader.Reaches ⟨false, 0, lexemes source⟩ p)
      (front : skipTrivia p.ahead = .char '@' :: ls)
      (opened : (scan ending 0 (ls.dropWhile atNameLexeme)).2 = .char '\x7b' :: s)
      (block : scanBlock 0 0 s = some (inner, rest)) :
      AtBlock source inner (1 + bytesOf rest + p.tail)

section
variable {source : Text} {inner : List Lexeme} {behind : Nat}

/-- the lexemes in a block are those of its text -/
theorem AtBlock.lexed (h : AtBlock source inner behind) : Lexed inner := by
  cases h with
  | @intro p ls s _ rest place front opened block =>
    have hahead : Lexed (.char '@' :: ls) :=
      front ▸ lexed_skipTrivia (place.part.lexed (lexed_lexemes source))
    have hname : Lexed (ls.takeWhile atNameLexeme ++ ls.dropWhile atNameLexeme) := by
      rw [List.takeWhile_append_dropWhile]
      exact hahead.tail
    have hprelude : Lexed ((scan ending 0 (ls.dropWhile atNameLexeme)).1 ++ .char '\x7b' :: s) := by
      rw [← opened, scan_append]
      exact hname.of_append
    obtain ⟨rfl, -⟩ := scanBlock_inv block
    exact hprelude.of_append.tail.cut

theorem AtBlock.closed (h : AtBlock source inner behind) : Closed inner := by
  cases h with
  | intro _ _ _ block => exact (scanBlock_inv block).2

/-- where an opening brace stands in a block, the reader goes into it -/
theorem AtBlock.reaches (h : AtBlock source inner behind) (holds : holdsBlock inner = true) :
    Reader.Reaches ⟨false, 0, lexemes source⟩ ⟨true, behind, inner⟩ := by
  cases h with
  | @intro p ls s _ rest place front opened block =>
    have hitem : ∃ name prelude,
        (atStatement p.tail ls).item = .group name prelude inner (1 + bytesOf rest + p.tail) := by
      unfold atStatement
      simp only [opened, block, holds, if_true]
      exact ⟨_, _, rfl⟩
    obtain ⟨name, prelude, hitem⟩ := hitem
    exact place.tail (.into front hitem)

end

/-- **A block and the rules in it have the same structure.**  The text of a block of an at-rule is
read as the lexemes that stand in the block.  Reading rules in them finds no closing brace that is
left over and no block without an end, at any depth, and a rule without a block only at a semicolon;
in fact no prelude or selector that the reader comes to ends at a closing brace.  If an opening
brace stands in the block, the reader goes into it and finds a rule. -/
theorem rules_of_atBlock {source : Text} {inner : List Lexeme} {behind : Nat}
    (h : AtBlock source inner behind) :
    lexemes (Lexeme.texts inner) = inner ∧
    (∀ f ∈ (rules true behind inner).2, f.Inside behind inner) ∧
    (∀ p, Reader.Reaches ⟨true, behind, inner⟩ p → p.nested = true ∧
      ∀ s, (scan ending 0 (skipTrivia p.ahead)).2 ≠ .char '\x7d' :: s) ∧
    (holdsBlock inner = true →
      Reader.Reaches ⟨false, 0, lexemes source⟩ ⟨true, behind, inner⟩ ∧
        (rules true behind inner).1 ≠ []) := by
  refine ⟨h.lexed, inside_rules h.closed, fun p hreach => ?_, fun hholds => ⟨h.reaches hholds, ?_⟩⟩
  · have hp : p.Inside := hreach.inside ⟨rfl, h.closed⟩
    exact ⟨hp.nested, (closed_skipTrivia.2 hp.closed).scan_ne_brace⟩
  · obtain ⟨n, hn, -⟩ := exists_isBraced_rules true behind h.closed hholds
    exact List.ne_nil_of_mem hn

/-- a block in a block; parentheses, a string and a comment hide closing braces in it -/
def hiddenBraces : Text :=
  "@a\x7b<!-- @b\x7bx(\x7d);y\x7bz:\"\x7d\"\x7d/*\x7d*/\x7d\x7d".toList

def outerBlock : List Lexeme :=
  lexemes "<!-- @b\x7bx(\x7d);y\x7bz:\"\x7d\"\x7d/*\x7d*/\x7d".toList

def innerBlock : List Lexeme := lexemes "x(\x7d);y\x7bz:\"\x7d\"\x7d/*\x7d*/".toList

theorem rules_of_atBlock_hidden :
    AtBlock hiddenBraces innerBlock 2 ∧ holdsBlock innerBlock = true ∧
    (rules true 2 innerBlock).2.map (fun f => (f.cause, f.left))
      = [(.missingBlock "x(\x7d)".toList, 16)] ∧
    (∀ f ∈ (rules true 2 innerBlock).2, f.Inside 2 innerBlock) ∧
    (rules true 2 innerBlock).1 ≠ [] := by
  have houter : AtBlock hiddenBraces outerBlock 1 :=
    @AtBlock.intro _ ⟨false, 0, lexemes hiddenBraces⟩ ((lexemes hiddenBraces).drop 1)
      ((lexemes hiddenBraces).drop 3) _ [] .refl (by decide +kernel) (by decide +kernel)
      (by decide +kernel)
  have hinner : AtBlock hiddenBraces innerBlock 2 :=
    @AtBlock.intro _ _ (outerBlock.drop 6) (outerBlock.drop 8) _ []
      (houter.reaches (by decide +kernel)) (by decide +kernel) (by decide +kernel)
      (by decide +kernel)
  have hholds : holdsBlock innerBlock = true := by decide +kernel
  obtain ⟨-, hfindings, -, hrules⟩ := rules_of_atBlock hinner
  exact ⟨hinner, hholds, by decide +kernel, hfindings, (hrules hholds).2⟩

end PageTemplates.Css
