import PageTemplates.Proofs.Segments

/-!
# Where faults stand in a stylesheet

The rules in a block are read from the lexemes of the block alone, and what is found there is
counted from the end of the whole source.  Every fault stands between two characters of the source
that fit its cause, and faults are reported in the order in which they stand.

* `Cause.Fits`          what stands around a fault of that cause;
* `Finding.Within`      a finding between two lexemes, with some bytes behind all of them;
* `Traced`              findings within lexemes, in their order;
* `Statement.Traced`    what one statement finds, in front of its block and of what it leaves;
* `traced_rules`        what all rules find, at every depth;
* `parse_faults`        the faults of a source, tolerant and strict.
-/

namespace PageTemplates.Css

open Lexeme

/-! ## places -/

/-- whether a cause can stand between two texts: `}` where none is expected, the `;` or `}` at which
a rule ends without a block, or an `@` without a name -/
def Cause.Fits (c : Cause) (before behind : Text) : Prop :=
  match c with
  | .strayBrace => behind.head? = some '\x7d'
  | .missingBlock _ => behind.head? = some ';' ∨ behind.head? = some '\x7d'
  | .missingName => before.getLast? = some '@'
  | _ => True

/-- more text on both sides changes nothing -/
theorem Cause.Fits.extend {c : Cause} {u v : Text} (h : c.Fits u v) (a b : Text) :
    c.Fits (a ++ u) (v ++ b) := by
  have hhead {d : Char} (h : v.head? = some d) : (v ++ b).head? = some d := by
    rw [List.head?_append, h]
    rfl
  cases c with
  | strayBrace => exact hhead h
  | missingBlock selector => exact h.imp hhead hhead
  | missingName =>
    have hlast : u.getLast? = some '@' := h
    show (a ++ u).getLast? = some '@'
    rw [List.getLast?_append, hlast]
    rfl
  | unclosedAtBlock | unterminatedAt | unclosedBlock | unexpectedEnd | other => exact h

theorem bytesOf_append (xs ys : List Lexeme) : bytesOf (xs ++ ys) = bytesOf xs + bytesOf ys := by
  rw [bytesOf, texts_append, Text.bytes_append]
  rfl

/-- the finding stands between two lexemes; `tail` bytes of the source are behind all of them -/
def Finding.Within (tail : Nat) (ls : List Lexeme) (f : Finding) : Prop :=
  ∃ xs ys, ls = xs ++ ys ∧ f.left = bytesOf ys + tail ∧
    f.cause.Fits (Lexeme.texts xs) (Lexeme.texts ys)

namespace Finding.Within
variable {tail : Nat} {ls : List Lexeme} {f : Finding}

theorem left_le (h : f.Within tail ls) : f.left ≤ bytesOf ls + tail := by
  obtain ⟨xs, ys, rfl, hleft, -⟩ := h
  rw [hleft, bytesOf_append]
  omega

theorem le_left (h : f.Within tail ls) : tail ≤ f.left := by
  obtain ⟨xs, ys, rfl, hleft, -⟩ := h
  omega

/-- a part of the lexemes, seen from all of them -/
theorem extend {tail' : Nat} {all xs zs : List Lexeme} (h : f.Within tail' ls)
    (htail : tail' = bytesOf zs + tail) (hall : all = xs ++ (ls ++ zs)) : f.Within tail all := by
  obtain ⟨us, vs, rfl, hleft, hfits⟩ := h
  refine ⟨xs ++ us, vs ++ zs, ?_, ?_, ?_⟩
  · rw [hall]
    simp only [List.append_assoc]
  · rw [hleft, htail, bytesOf_append, Nat.add_assoc]
  · rw [texts_append, texts_append]
    exact hfits.extend _ _

end Finding.Within

theorem bytesOf_append_le (xs ys : List Lexeme) : bytesOf ys ≤ bytesOf (xs ++ ys) := by
  rw [bytesOf_append]
  exact Nat.le_add_left _ _

/-- findings within lexemes, in the order in which they stand -/
structure Traced (tail : Nat) (ls : List Lexeme) (fs : List Finding) : Prop where
  within : ∀ f ∈ fs, f.Within tail ls
  ordered : fs.Pairwise fun f g => g.left ≤ f.left

namespace Traced
variable {tail tail' : Nat} {ls all xs zs : List Lexeme} {fs gs : List Finding} {f : Finding}

theorem nil : Traced tail ls [] := ⟨List.forall_mem_nil _, .nil⟩

theorem singleton (h : f.Within tail ls) : Traced tail ls [f] :=
  ⟨List.forall_mem_singleton.2 h, List.pairwise_singleton _ _⟩

theorem append (h : Traced tail ls fs) (h' : Traced tail ls gs)
    (hle : ∀ f ∈ fs, ∀ g ∈ gs, g.left ≤ f.left) : Traced tail ls (fs ++ gs) :=
  ⟨List.forall_mem_append.2 ⟨h.within, h'.within⟩,
    List.pairwise_append.2 ⟨h.ordered, h'.ordered, hle⟩⟩

theorem extend (h : Traced tail' ls fs) (htail : tail' = bytesOf zs + tail)
    (hall : all = xs ++ (ls ++ zs)) : Traced tail all fs :=
  ⟨fun f hf => (h.within f hf).extend htail hall, h.ordered⟩

/-- what was found in the last of the lexemes -/
theorem of_suffix (h : Traced tail ls fs) (hall : all = xs ++ ls) : Traced tail all fs :=
  have hzs : all = xs ++ (ls ++ []) := by rw [hall, List.append_nil]
  have htail : tail = bytesOf [] + tail := (Nat.zero_add tail).symm
  h.extend htail hzs

end Traced

/-! ## one statement -/

/-- what a statement finds stands within it, in front of the block that it opens and of what it
leaves -/
structure Statement.Traced (tail : Nat) (ls : List Lexeme) (st : Statement) : Prop where
  findings : Css.Traced tail ls st.findings
  rest : ∃ xs, ls = xs ++ st.rest
  ahead : ∀ f ∈ st.findings, bytesOf st.rest + tail ≤ f.left
  block : ∀ name prelude inner behind, st.item = .group name prelude inner behind →
    behind = bytesOf (.char '\x7d' :: st.rest) + tail ∧
    (∃ xs, ls = xs ++ (inner ++ .char '\x7d' :: st.rest)) ∧
    ∀ f ∈ st.findings, bytesOf inner + behind ≤ f.left

namespace Statement.Traced
variable {tail left : Nat} {ls xs rest : List Lexeme} {fs : List Finding}

/-- a statement that goes on from its last finding, or from behind it -/
theorem fault (xs ys : List Lexeme) {cause : Cause} (hfs : Css.Traced tail ls fs)
    (hle : ∀ f ∈ fs, left ≤ f.left) (hleft : left = bytesOf (ys ++ rest) + tail)
    (hls : ls = xs ++ (ys ++ rest))
    (hfits : cause.Fits (Lexeme.texts xs) (Lexeme.texts (ys ++ rest))) :
    Statement.Traced tail ls ⟨.nothing, fs ++ [⟨cause, left⟩], rest⟩ := by
  have hbehind : bytesOf rest + tail ≤ left := by
    have hbytes := bytesOf_append_le ys rest
    omega
  refine ⟨hfs.append (.singleton ⟨xs, ys ++ rest, hls, hleft, hfits⟩) ?_, ⟨xs ++ ys, ?_⟩, ?_, nofun⟩
  · exact fun f hf => List.forall_mem_singleton.2 (hle f hf)
  · rw [hls, List.append_assoc]
  · refine List.forall_mem_append.2 ⟨fun f hf => ?_, List.forall_mem_singleton.2 hbehind⟩
    exact Nat.le_trans hbehind (hle f hf)

/-- a statement with a fault where the lexemes end -/
theorem fault_end {cause : Cause} (hfs : Css.Traced tail ls fs) (hfits : ∀ u, cause.Fits u []) :
    Statement.Traced tail ls ⟨.nothing, fs ++ [⟨cause, tail⟩], []⟩ :=
  fault ls [] hfs (fun f hf => (hfs.within f hf).le_left) (Nat.zero_add tail).symm
    (List.append_nil ls).symm (hfits _)

/-- a statement without a fault behind its name -/
theorem node (n : Node) (hfs : Css.Traced tail ls fs) (hls : ls = xs ++ rest)
    (hle : ∀ f ∈ fs, bytesOf rest + tail ≤ f.left) :
    Statement.Traced tail ls ⟨.node n, fs, rest⟩ := ⟨hfs, ⟨xs, hls⟩, hle, nofun⟩

end Statement.Traced

/-- lexemes with a block, cut at the beginning and at the end of the block -/
theorem append_block (ms inner rest : List Lexeme) :
    ms ++ [.char '\x7b'] ++ (inner ++ .char '\x7d' :: rest)
      = ms ++ .char '\x7b' :: (inner ++ .char '\x7d' :: rest) ∧
    ms ++ .char '\x7b' :: (inner ++ [.char '\x7d']) ++ rest
      = ms ++ .char '\x7b' :: (inner ++ .char '\x7d' :: rest) := by
  simp only [List.append_assoc, List.cons_append, List.nil_append, and_self]

/-- a name that is missing is missing right behind the `@` -/
theorem traced_missingName (tail : Nat) (ts r : List Lexeme) :
    let named := if (Text.lower (Lexeme.texts ts)).isEmpty
      then [Finding.mk .missingName (bytesOf r + tail)] else []
    Traced tail (.char '@' :: ts ++ r) named ∧ ∀ f ∈ named, f.left = bytesOf r + tail := by
  dsimp only
  split
  · next hempty =>
    rw [List.isEmpty_iff, Text.lower, List.map_eq_nil_iff] at hempty
    refine ⟨.singleton ⟨.char '@' :: ts, r, rfl, rfl, ?_⟩, List.forall_mem_singleton.2 rfl⟩
    show (Lexeme.texts (.char '@' :: ts)).getLast? = some '@'
    rw [texts_cons rfl, hempty]
    rfl
  · exact ⟨.nil, List.forall_mem_nil _⟩

theorem traced_atStatement (tail : Nat) (ls : List Lexeme) :
    (atStatement tail ls).Traced tail (.char '@' :: ls) := by
  obtain ⟨hnamed, hleft⟩ :=
    traced_missingName tail (ls.takeWhile atNameLexeme) (ls.dropWhile atNameLexeme)
  have hls : Lexeme.char '@' :: ls
      = .char '@' :: ls.takeWhile atNameLexeme ++ ls.dropWhile atNameLexeme := by
    rw [List.cons_append, List.takeWhile_append_dropWhile]
  rw [← hls] at hnamed
  unfold atStatement
  simp only
  generalize ls.takeWhile atNameLexeme = ts at *
  generalize ls.dropWhile atNameLexeme = r at *
  generalize (if (Text.lower (Lexeme.texts ts)).isEmpty
      then [Finding.mk .missingName (bytesOf r + tail)] else []) = named at *
  have hscan := scan_append ending 0 r
  -- whatever is left behind the name, the name stands in front of it
  have hahead {xs rest : List Lexeme} (hr : xs ++ rest = r) :
      Lexeme.char '@' :: ls = .char '@' :: ts ++ xs ++ rest ∧
      ∀ f ∈ named, bytesOf rest + tail ≤ f.left := by
    refine ⟨by rw [hls, ← hr, List.append_assoc], fun f hf => ?_⟩
    rw [hleft f hf, ← hr]
    exact Nat.add_le_add_right (bytesOf_append_le xs rest) tail
  split
  · next rest hstop =>
    rw [hstop, List.append_cons] at hscan
    exact .node _ hnamed (hahead hscan).1 (hahead hscan).2
  · next s hstop =>
    rw [hstop] at hscan
    split
    · exact .fault_end hnamed fun _ => trivial
    · next inner rest hblock =>
      obtain ⟨rfl, -⟩ := scanBlock_inv hblock
      have hbody := (append_block _ inner rest).1.trans hscan
      have hrest := (append_block _ inner rest).2.trans hscan
      split
      · refine ⟨hnamed, ⟨_, (hahead hrest).1⟩, (hahead hrest).2, ?_⟩
        intro name prelude inner' behind hitem
        cases hitem
        have hbehind : 1 + bytesOf rest + tail = bytesOf (.char '\x7d' :: rest) + tail := rfl
        refine ⟨hbehind, ⟨_, (hahead hbody).1⟩, fun f hf => ?_⟩
        rw [hbehind, ← Nat.add_assoc, ← bytesOf_append]
        exact (hahead hbody).2 f hf
      · exact .node _ hnamed (hahead hrest).1 (hahead hrest).2
  · split
    · exact .node _ hnamed (List.append_nil _).symm fun f hf =>
        Nat.le_trans (Nat.le_of_eq (Nat.zero_add tail)) (hnamed.within f hf).le_left
    · exact .fault _ [] hnamed (hahead hscan).2 rfl (hahead hscan).1 trivial

theorem traced_ruleStatement (nested : Bool) (tail : Nat) (ls : List Lexeme) :
    (ruleStatement nested tail ls).Traced tail ls := by
  have hscan := scan_append ending 0 ls
  unfold ruleStatement
  simp only
  split
  · next s hstop =>
    split
    · exact .fault_end .nil fun _ => trivial
    · next inner rest hblock =>
      obtain ⟨rfl, -⟩ := scanBlock_inv hblock
      rw [hstop] at hscan
      exact .node _ .nil ((append_block _ inner rest).2.trans hscan).symm (List.forall_mem_nil _)
  · exact .fault_end .nil fun _ => trivial
  · next l s hbrace hstop =>
    obtain ⟨-, hmeets, -⟩ := flat_of_scan hstop
    rw [hstop] at hscan
    have hfits (before : Text) (selector : Text) :
        (Cause.missingBlock selector).Fits before (Lexeme.texts (l :: s)) := by
      rcases eq_of_meets_ending hmeets with rfl | rfl | rfl
      · exact .inl rfl
      · exact (hbrace rfl).elim
      · exact .inr rfl
    split
    · exact .fault _ [] .nil (List.forall_mem_nil _) rfl hscan.symm (hfits _ _)
    · exact .fault _ [l] .nil (List.forall_mem_nil _) rfl hscan.symm (hfits _ _)

theorem traced_statement (nested : Bool) (tail : Nat) (l : Lexeme) (ls : List Lexeme) :
    (statement nested tail l ls).Traced tail (l :: ls) := by
  unfold statement
  split
  · exact .fault [] [.char '\x7d'] .nil (List.forall_mem_nil _) rfl rfl rfl
  · exact ⟨.nil, ⟨[.char ';'], rfl⟩, List.forall_mem_nil _, nofun⟩
  · exact traced_atStatement tail ls
  · exact traced_ruleStatement nested tail (l :: ls)

/-! ## all statements -/

namespace Statement.Traced
variable {tail : Nat} {ls : List Lexeme} {st : Statement}

/-- what was found in the block of a statement counts as found by the statement -/
theorem entered (h : st.Traced tail ls) {name prelude : Text} {inner : List Lexeme} {behind : Nat}
    (hitem : st.item = .group name prelude inner behind) {below : List Finding}
    (hbelow : Css.Traced behind inner below) :
    Statement.Traced tail ls ⟨.nothing, st.findings ++ below, st.rest⟩ := by
  obtain ⟨hbehind, ⟨xs, hls⟩, hfront⟩ := h.block name prelude inner behind hitem
  refine ⟨h.findings.append (hbelow.extend hbehind hls) ?_, h.rest, ?_, nofun⟩
  · exact fun f hf g hg => Nat.le_trans (hbelow.within g hg).left_le (hfront f hf)
  · refine List.forall_mem_append.2 ⟨h.ahead, fun f hf => ?_⟩
    have hleft := (hbelow.within f hf).le_left
    have hbytes := bytesOf_append_le [.char '\x7d'] st.rest
    rw [hbehind] at hleft
    exact Nat.le_trans (Nat.add_le_add_right hbytes tail) hleft

/-- a statement and what is found behind it -/
theorem followed (h : st.Traced tail ls) {later : List Finding}
    (hlater : Css.Traced tail st.rest later) : Css.Traced tail ls (st.findings ++ later) := by
  obtain ⟨xs, hls⟩ := h.rest
  refine h.findings.append (hlater.of_suffix hls) fun f hf g hg => ?_
  exact Nat.le_trans (hlater.within g hg).left_le (h.ahead f hf)

end Statement.Traced

/-- what is found in rules, at every depth, stands where the lexemes of the whole have it -/
theorem traced_rules (nested : Bool) (tail : Nat) (ls : List Lexeme) :
    Traced tail ls (rules nested tail ls).2 := by
  fun_induction rules nested tail ls with
  | case1 nested tail ls hskip => exact .nil
  | case2 nested tail ls l r hskip st more hitem ih =>
    obtain ⟨xs, -, hls⟩ := skipTrivia_inv ls
    rw [hskip] at hls
    exact ((traced_statement nested tail l r).followed ih).of_suffix hls
  | case3 nested tail ls l r hskip st more n hitem ih =>
    obtain ⟨xs, -, hls⟩ := skipTrivia_inv ls
    rw [hskip] at hls
    exact ((traced_statement nested tail l r).followed ih).of_suffix hls
  | case4 nested tail ls l r hskip st more name prelude inner behind hitem below ih ihInner =>
    obtain ⟨xs, -, hls⟩ := skipTrivia_inv ls
    rw [hskip] at hls
    have hst := (traced_statement nested tail l r).entered hitem ihInner
    exact (hst.followed ih).of_suffix hls

/-! ## faults -/

/-- a fault stands between two characters of the source, or at an end, that fit its cause -/
def Fault.Stands (source : Text) (f : Fault) : Prop :=
  ∃ before behind, source = before ++ behind ∧ Text.bytes before = f.offset ∧
    f.cause.Fits before behind

theorem Fault.Stands.le {source : Text} {f : Fault} (h : f.Stands source) :
    f.offset ≤ Text.bytes source := by
  obtain ⟨before, behind, rfl, hoffset, -⟩ := h
  rw [Text.bytes_append]
  omega

theorem stands_of_within {source : Text} {f : Finding} (h : f.Within 0 (lexemes source)) :
    (f.fault source).Stands source := by
  obtain ⟨xs, ys, hlexemes, hleft, hfits⟩ := h
  have hsource : source = Lexeme.texts xs ++ Lexeme.texts ys := by
    rw [← texts_append, ← hlexemes, text_lexemes]
  refine ⟨_, _, hsource, ?_, hfits⟩
  show Text.bytes (Lexeme.texts xs) = Text.bytes source - f.left
  rw [hsource, Text.bytes_append, hleft]
  exact (Nat.add_sub_cancel _ _).symm

/-- a strict reading of a text without faults -/
theorem strict_of_nil {source : Text} (h : (parse true source).problems = []) :
    parse false source = ⟨[], (parse true source).result⟩ := by
  have hfaults : (rules false 0 (lexemes source)).2.map (Finding.fault source) = [] := h
  unfold parse
  dsimp only
  rw [hfaults]
  rfl

/-- a strict reading gives the first fault instead of a sheet -/
theorem strict_of_cons {source : Text} {first : Fault} {later : List Fault}
    (h : (parse true source).problems = first :: later) :
    parse false source = ⟨[], .error first⟩ := by
  have hfaults : (rules false 0 (lexemes source)).2.map (Finding.fault source) = first :: later := h
  unfold parse
  dsimp only
  rw [hfaults]
  rfl

/-- **Every fault is where it is said to be.**  The faults of a tolerant reading stand between
characters of the source that fit their causes, at every depth, and come in the order of their
offsets.  A strict reading gives the same sheet if there are none, and otherwise the first of them,
whose offset is the smallest. -/
theorem parse_faults (source : Text) :
    (∀ f ∈ (parse true source).problems,
      f.Stands source ∧ f.offset ≤ Text.bytes source) ∧
    (parse true source).problems.Pairwise (fun f g => f.offset ≤ g.offset) ∧
    ∃ sheet, (parse true source).result = .ok sheet ∧
      (parse false source).problems = [] ∧
      ((parse true source).problems = [] ∧ (parse false source).result = .ok sheet ∨
        ∃ first later, (parse true source).problems = first :: later ∧
          (parse false source).result = .error first ∧ ∀ f ∈ later, first.offset ≤ f.offset) := by
  have htraced := traced_rules false 0 (lexemes source)
  have hstands : ∀ f ∈ (parse true source).problems, f.Stands source :=
    List.forall_mem_map.2 fun f hf => stands_of_within (htraced.within f hf)
  have hordered : (parse true source).problems.Pairwise fun f g => f.offset ≤ g.offset :=
    List.pairwise_map.2 (htraced.ordered.imp fun hle => Nat.sub_le_sub_left hle _)
  refine ⟨fun f hf => ⟨hstands f hf, (hstands f hf).le⟩, hordered, _, rfl, ?_⟩
  cases hproblems : (parse true source).problems with
  | nil =>
    rw [strict_of_nil hproblems]
    exact ⟨rfl, .inl ⟨rfl, rfl⟩⟩
  | cons first later =>
    rw [strict_of_cons hproblems]
    rw [hproblems, List.pairwise_cons] at hordered
    exact ⟨rfl, .inr ⟨first, later, rfl, rfl, hordered.1⟩⟩

end PageTemplates.Css
