import PageTemplates.Css.Reference
import PageTemplates.Proofs.Extraction
import PageTemplates.Proofs.Parts
import PageTemplates.Proofs.Patterns
import PageTemplates.Proofs.Trimmed

/-!
# References in texts

How a text is cut at its `url(...)` references, and what stays when they are replaced.

* `Opens`                 a text ends with the first `url(` in it;
* `segments_of_opens`     the reference that is opened so is the first one of the text;
* `references_induction`  texts by their references, the first one first;
* `target_replaced`       a url that replaces one is read again;
* `Rewritten`             two texts that differ in their references only (`rewritten_retarget`);
* `Node.Rewritten`        the same of two rules, node by node (`Node.rewritten_retarget`).
-/

namespace PageTemplates.Css

/-! ## the first reference -/

/-- `url(` is written at the end of the text, and nowhere before -/
structure Opens (before keyword : Text) : Prop where
  first : Text.find? urlKeyword (Text.lower (before ++ keyword)) = some before.length
  length : keyword.length = 4

/-- a text between `url(` and the next `)` -/
def IsInner (inner : Text) : Prop := ∀ c ∈ inner, Segment.isClosing c = false

section
variable {before keyword inner : Text}

theorem Opens.lower_keyword (h : Opens before keyword) : Text.lower keyword = urlKeyword := by
  obtain ⟨_, hfront⟩ := Text.find?_spec h.first
  have hdrop : (Text.lower (before ++ keyword)).drop before.length = Text.lower keyword := by
    unfold Text.lower
    rw [List.map_append, ← List.length_map (f := Char.toLower), List.drop_left]
  rw [hdrop] at hfront
  exact (hfront.eq_of_length (by rw [Text.length_lower, h.length]; rfl)).symm

theorem find?_of_opens (h : Opens before keyword) (more : Text) :
    Text.find? urlKeyword (Text.lower (before ++ keyword ++ more)) = some before.length := by
  unfold Text.lower
  rw [List.map_append]
  exact Text.find?_append h.first _

/-- the reference that is opened and closed first is cut out, and the rest is cut in its turn -/
theorem segments_of_opens (h : Opens before keyword) (hinner : IsInner inner) (rest : Text) :
    segments (before ++ keyword ++ (inner ++ ')' :: rest))
      = .text before :: .reference keyword inner :: segments rest := by
  have hlength : before.length + 4 = (before ++ keyword).length := by
    rw [List.length_append, h.length]
  have hsince : Text.since Segment.isClosing (inner ++ ')' :: rest) = ')' :: rest :=
    Text.since_append_cons hinner rfl rest
  rw [segments, find?_of_opens h]
  dsimp only
  rw [hlength, List.drop_left, Text.upTo_append_cons hinner rfl, List.append_assoc, List.take_left,
    List.drop_left, ← h.length, List.take_left]
  split
  · next hnil =>
    rw [hsince] at hnil
    cases hnil
  · next rest' hrest =>
    rw [hsince] at hrest
    rw [(List.cons.inj hrest).2]

end

/-- a text has no reference, or a first one -/
theorem segments_cases (s : Text) : segments s = [.text s] ∨
    ∃ before keyword inner rest, Opens before keyword ∧ IsInner inner ∧
      s = before ++ keyword ++ (inner ++ ')' :: rest) := by
  cases hfind : Text.find? urlKeyword (Text.lower s) with
  | none =>
    rw [segments, hfind]
    exact .inl rfl
  | some i =>
    have hi : i + 4 ≤ s.length := by
      have h := Text.find?_add_length_le hfind
      rwa [Text.length_lower] at h
    cases hsince : Text.since Segment.isClosing (s.drop (i + 4)) with
    | nil =>
      rw [segments, hfind]
      dsimp only
      split
      · exact .inl rfl
      · next hrest =>
        rw [hsince] at hrest
        cases hrest
    | cons c rest =>
      have hclosing : Segment.isClosing c = true := Text.eq_true_of_since hsince
      obtain rfl : c = ')' := eq_of_beq hclosing
      have htake : s.take i ++ (s.drop i).take 4 = s.take (i + 4) := List.take_add.symm
      have hlength : (s.take i).length = i := List.length_take_of_le (by omega)
      refine .inr ⟨s.take i, (s.drop i).take 4, Text.upTo Segment.isClosing (s.drop (i + 4)), rest,
        ⟨?_, ?_⟩, fun c hc => Text.eq_false_of_mem_upTo hc, ?_⟩
      · rw [htake, hlength]
        unfold Text.lower
        rw [List.map_take]
        exact Text.find?_take hfind
      · rw [List.length_take, List.length_drop]
        omega
      · rw [htake, ← hsince, Text.upTo_append_since, List.take_append_drop]

/-- what holds of texts without references, and of a text if it holds of what follows its first
reference -/
@[elab_as_elim]
theorem references_induction {motive : Text → Prop}
    (plain : ∀ s, segments s = [.text s] → motive s)
    (reference : ∀ before keyword inner rest, Opens before keyword → IsInner inner → motive rest →
      motive (before ++ keyword ++ (inner ++ ')' :: rest))) (s : Text) : motive s := by
  rcases segments_cases s with h | ⟨before, keyword, inner, rest, hopens, hinner, rfl⟩
  · exact plain s h
  · exact reference before keyword inner rest hopens hinner
      (references_induction plain reference rest)
termination_by s.length
decreasing_by
  subst_vars
  simp only [List.length_append, List.length_cons]
  omega

/-! ## blanks in front -/

theorem not_mem_urlKeyword {c : Char} (h : blankChar c = true) : c.toLower ∉ urlKeyword := by
  have hupper : c.isUpper = false := by
    apply Bool.eq_false_iff.2
    intro hc
    have hletter := of_decide_eq_true hc
    simp only [blankChar, Bool.or_eq_true, Bool.and_eq_true, decide_eq_true_eq, beq_iff_eq] at h
    have hlow : 65 ≤ c.toNat := hletter.1
    have hhigh : c.toNat ≤ 90 := hletter.2
    omega
  have hsame : c.toLower = c := Text.toLower_eq_self hupper
  rw [hsame]
  intro hc
  have hno : urlKeyword.all (!blankChar ·) = true := by decide
  have hblank := List.all_eq_true.1 hno c hc
  rw [h] at hblank
  cases hblank

theorem not_mem_lower {blanks : Text} (h : blanks.isBlank = true) :
    ∀ c ∈ Text.lower blanks, c ∉ urlKeyword := by
  intro c hc
  obtain ⟨d, hd, rfl⟩ := List.mem_map.1 hc
  exact not_mem_urlKeyword (List.all_eq_true.1 h d hd)

theorem Opens.pad {before keyword : Text} (h : Opens before keyword) {blanks : Text}
    (hblanks : blanks.isBlank = true) : Opens (blanks ++ before) keyword := by
  refine ⟨?_, h.length⟩
  have hlower : Text.lower (blanks ++ before ++ keyword)
      = Text.lower blanks ++ Text.lower (before ++ keyword) := by
    unfold Text.lower
    rw [List.append_assoc, List.map_append]
  rw [hlower, Text.find?_append_of_not_mem (by decide) (not_mem_lower hblanks), h.first,
    Text.length_lower, List.length_append, Nat.add_comm]
  rfl

/-! ## what is replaced -/

/-- what stands in a reference that is replaced as `f` says -/
def replaced (f : Text → Option Text) (inner : Text) : Text :=
  match f (Segment.target inner).2 with
  | none => inner
  | some new => (Segment.target inner).1.getD '"' :: new ++ [(Segment.target inner).1.getD '"']

theorem write_reference (f : Text → Option Text) (keyword inner : Text) :
    Segment.write f (.reference keyword inner) = keyword ++ replaced f inner ++ [')'] := by
  unfold Segment.write replaced
  dsimp only
  cases f (Segment.target inner).2 with
  | none => rfl
  | some new => simp only [List.append_assoc, List.cons_append, List.nil_append]

section
variable {f : Text → Option Text}

theorem target_subset (inner : Text) : (Segment.target inner).2 ⊆ inner := by
  have htrim := Text.trim_subset inner
  unfold Segment.target
  split
  · exact List.nil_subset inner
  · next q s hs =>
    rw [hs] at htrim
    split
    · intro c hc
      exact htrim (List.mem_cons_of_mem q (List.dropLast_subset s hc))
    · exact htrim

/-- the quote around a reference is a quote -/
theorem quote_cases (inner : Text) : (Segment.target inner).1.getD '"' = '"' ∨
    (Segment.target inner).1.getD '"' = '\'' := by
  unfold Segment.target
  split
  · exact .inl rfl
  · split
    · next h => exact h.1
    · exact .inl rfl

theorem target_quoted {q : Char} (hq : q = '"' ∨ q = '\'') (new : Text) :
    Segment.target (q :: new ++ [q]) = (some q, new) := by
  have hblank : blankChar q = false := by rcases hq with rfl | rfl <;> decide
  have htrim : Text.trim (q :: new ++ [q]) = q :: (new ++ [q]) := by
    apply Text.trim_eq_self_iff.2
    constructor
    · intro c hc
      rw [← Option.some.inj hc]
      exact hblank
    · intro c hc
      rw [List.getLast?_concat] at hc
      rw [← Option.some.inj hc]
      exact hblank
  unfold Segment.target
  rw [htrim]
  dsimp only
  rw [if_pos ⟨hq, List.getLast?_concat⟩, List.dropLast_concat]

theorem target_replaced (f : Text → Option Text) (inner : Text) :
    (Segment.target (replaced f inner)).2
      = (f (Segment.target inner).2).getD (Segment.target inner).2 := by
  unfold replaced
  split
  · next h =>
    rw [h]
    rfl
  · next new h =>
    rw [h]
    exact congrArg Prod.snd (target_quoted (quote_cases inner) new)

theorem isInner_replaced {inner : Text} (h : IsInner inner)
    (hnew : ∀ new, f (Segment.target inner).2 = some new → IsInner new) :
    IsInner (replaced f inner) := by
  unfold replaced
  split
  · exact h
  · next new hf =>
    have hq : Segment.isClosing ((Segment.target inner).1.getD '"') = false := by
      rcases quote_cases inner with hq | hq <;> rw [hq] <;> decide
    intro c hc
    rcases List.mem_append.1 hc with hc | hc
    · rcases List.mem_cons.1 hc with rfl | hc
      · exact hq
      · exact hnew new hf c hc
    · rw [List.mem_singleton.1 hc]
      exact hq

theorem urls_of_opens {before keyword inner : Text} (h : Opens before keyword)
    (hinner : IsInner inner) (rest : Text) :
    urls (before ++ keyword ++ (inner ++ ')' :: rest))
      = (Segment.target inner).2 :: urls rest := by
  unfold urls
  rw [segments_of_opens h hinner]
  rfl

theorem retarget_of_opens {before keyword inner : Text} (h : Opens before keyword)
    (hinner : IsInner inner) (rest : Text) :
    retarget f (before ++ keyword ++ (inner ++ ')' :: rest))
      = before ++ keyword ++ (replaced f inner ++ ')' :: retarget f rest) := by
  unfold retarget
  rw [segments_of_opens h hinner, List.flatMap_cons, List.flatMap_cons, write_reference]
  simp only [Segment.write, List.append_assoc, List.singleton_append]

end

/-! ## what is kept -/

/-- a segment as it stands in its text -/
def Segment.source : Segment → Text
  | .text t => t
  | .reference keyword inner => keyword ++ inner ++ [')']

/-- a reference starts with `url(`, in any case, and ends at the next `)` -/
def Segment.Proper : Segment → Prop
  | .text _ => True
  | .reference keyword inner => Text.lower keyword = urlKeyword ∧ IsInner inner

/-- a text and what becomes of it when references are replaced as `f` says: it is cut at its
references, and everything between them stays -/
structure Rewritten (f : Text → Option Text) (s s' : Text) : Prop where
  source : (segments s).flatMap Segment.source = s
  proper : ∀ seg ∈ segments s, seg.Proper
  written : (segments s).flatMap (Segment.write f) = s'

theorem rewritten_retarget (f : Text → Option Text) (s : Text) : Rewritten f s (retarget f s) := by
  refine ⟨?_, ?_, rfl⟩
  · induction s using references_induction with
    | plain s h =>
      rw [h, List.flatMap_singleton]
      rfl
    | reference before keyword inner rest hopens hinner ih =>
      rw [segments_of_opens hopens hinner, List.flatMap_cons, List.flatMap_cons, ih]
      simp only [Segment.source, List.append_assoc, List.singleton_append]
  · induction s using references_induction with
    | plain s h =>
      intro seg hseg
      rw [h, List.mem_singleton] at hseg
      rw [hseg]
      trivial
    | reference before keyword inner rest hopens hinner ih =>
      rw [segments_of_opens hopens hinner, List.forall_mem_cons, List.forall_mem_cons]
      exact ⟨trivial, ⟨hopens.lower_keyword, hinner⟩, ih⟩

namespace Node

/-- a rule and what becomes of it when references are replaced as `f` says: in its declarations,
or in the prelude of an at-rule without declarations, and in the rules in its block -/
inductive Rewritten (f : Text → Option Text) : Node → Node → Prop where
  | sheet {rules rules' : List Node} (inner : List.Forall₂ (Rewritten f) rules rules') :
      Rewritten f (.sheet rules) (.sheet rules')
  | rule (selector : Text) {declarations declarations' : Text}
      (own : Css.Rewritten f declarations declarations') :
      Rewritten f (.rule selector declarations) (.rule selector declarations')
  | statement (name : Text) {prelude prelude' : Text} (own : Css.Rewritten f prelude prelude') :
      Rewritten f (.statement name prelude) (.statement name prelude')
  | group (name : Text) {prelude prelude' : Text} {rules rules' : List Node}
      (own : Css.Rewritten f prelude prelude') (inner : List.Forall₂ (Rewritten f) rules rules') :
      Rewritten f (.group name prelude rules) (.group name prelude' rules')
  | block (name prelude : Text) {declarations declarations' : Text}
      (own : Css.Rewritten f declarations declarations') :
      Rewritten f (.block name prelude declarations) (.block name prelude declarations')

mutual

theorem rewritten_retarget (f : Text → Option Text) : ∀ n : Node, n.Rewritten f (n.retarget f)
  | .sheet rules => .sheet (rewritten_retargetList f rules)
  | .rule selector declarations => .rule selector (Css.rewritten_retarget f declarations)
  | .statement name prelude => .statement name (Css.rewritten_retarget f prelude)
  | .group name prelude rules =>
    .group name (Css.rewritten_retarget f prelude) (rewritten_retargetList f rules)
  | .block name prelude declarations =>
    .block name prelude (Css.rewritten_retarget f declarations)

theorem rewritten_retargetList (f : Text → Option Text) : ∀ ns : List Node,
    List.Forall₂ (Rewritten f) ns (mapOwnList (fun m => m.setReferring (Css.retarget f m.referring)) ns)
  | [] => .nil
  | n :: ns => .cons (rewritten_retarget f n) (rewritten_retargetList f ns)

end

end Node

end PageTemplates.Css
