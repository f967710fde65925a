import PageTemplates.Proofs.References

/-!
# Targets of imports

The target of an `@import` is read in one way, as a string or as the first reference of the
prelude, and rewritten in another, as every reference of the rule.

* `isString`                        the way in which a target is read;
* `Refers`, `exists_string`         what a prelude looks like that is read in one way or the other;
* `importTarget?_retarget`          a target in a reference, when references are replaced;
* `importTarget?_retarget_string`   a string stays if no `url(` stands in it;
* `Node.importUrl?_retarget`        the target of an `@import` with its references replaced;
* `Node.walk_retarget`              every node of a rule stays in its place.
-/

namespace PageTemplates.Css

/-! ## targets -/

/-- whether the target in a prelude is a string -/
def isString (prelude : Text) : Bool :=
  match Text.trimStart prelude with
  | [] => false
  | q :: _ => q = '"' ∨ q = '\''

section
variable {f : Text → Option Text} {prelude u : Text}

theorem isString_cons {q : Char} {s : Text} (h : Text.trimStart prelude = q :: s) :
    isString prelude = decide (q = '"' ∨ q = '\'') := by
  unfold isString
  rw [h]

/-! ## references -/

/-- a prelude up to the `)` of its first reference, whose url is the target -/
structure Refers (blanks before keyword inner : Text) : Prop where
  blank : blanks.isBlank = true
  opens : Opens before keyword
  inner : IsInner inner
  first : ∃ c s, before ++ keyword = c :: s ∧ blankChar c = false ∧ ¬(c = '"' ∨ c = '\'')

theorem importTarget?_of_not_quote {c : Char} {s : Text} (h : Text.trimStart prelude = c :: s)
    (hc : ¬(c = '"' ∨ c = '\'')) : Node.importTarget? prelude = (urls (c :: s)).head? := by
  unfold Node.importTarget?
  rw [h]
  exact if_neg hc

theorem Refers.importTarget?_eq {blanks before keyword inner : Text}
    (h : Refers blanks before keyword inner) (rest : Text) :
    Node.importTarget? (blanks ++ (before ++ keyword ++ (inner ++ ')' :: rest)))
      = some (Segment.target inner).2 := by
  obtain ⟨c, s, hfirst, hblank, hquote⟩ := h.first
  have htrim : Text.trimStart (blanks ++ (before ++ keyword ++ (inner ++ ')' :: rest)))
      = c :: (s ++ (inner ++ ')' :: rest)) := by
    rw [Text.trimStart_append_of_isBlank h.blank, hfirst, List.cons_append]
    exact Text.trimStart_cons_of_not_blank (by rw [hblank]; exact Bool.false_ne_true) _
  rw [importTarget?_of_not_quote htrim hquote, ← List.cons_append, ← hfirst,
    urls_of_opens h.opens h.inner]
  rfl

/-- a target that is no string is the url of a reference -/
theorem exists_refers (hstring : isString prelude = false)
    (h : Node.importTarget? prelude = some u) : ∃ blanks before keyword inner rest,
      Refers blanks before keyword inner ∧ u = (Segment.target inner).2 ∧
      prelude = blanks ++ (before ++ keyword ++ (inner ++ ')' :: rest)) := by
  obtain ⟨blanks, hblanks, hprelude⟩ := Text.exists_blanks prelude
  cases htrim : Text.trimStart prelude with
  | nil =>
    unfold Node.importTarget? at h
    rw [htrim] at h
    cases h
  | cons c s =>
    have hblank : blankChar c = false := Text.first_trimStart prelude c (by rw [htrim]; rfl)
    rw [isString_cons htrim] at hstring
    have hquote := of_decide_eq_false hstring
    rw [importTarget?_of_not_quote htrim hquote] at h
    rcases segments_cases (c :: s) with hplain | ⟨before, keyword, inner, rest, hopens, hinner, hs⟩
    · unfold urls at h
      rw [hplain] at h
      cases h
    · obtain ⟨d, w, hw⟩ : ∃ d w, before ++ keyword = d :: w := by
        apply List.exists_cons_of_ne_nil
        intro hnil
        have hlength := congrArg List.length hnil
        rw [List.length_append, hopens.length] at hlength
        cases hlength
      have hcut := hs
      rw [hw] at hs
      obtain rfl : c = d := (List.cons.inj hs).1
      rw [hcut, urls_of_opens hopens hinner, List.head?_cons] at h
      exact ⟨blanks, before, keyword, inner, rest,
        ⟨hblanks, hopens, hinner, c, w, hw, hblank, hquote⟩, (Option.some.inj h).symm,
        by rw [← hcut, ← htrim, ← hprelude]⟩

/-- a target in a reference ends before a `)` -/
theorem isInner_of_importTarget? (hstring : isString prelude = false)
    (h : Node.importTarget? prelude = some u) : IsInner u := by
  obtain ⟨_, _, _, inner, _, hrefers, rfl, _⟩ := exists_refers hstring h
  exact fun c hc => hrefers.inner c (target_subset inner hc)

/-- the first reference stays the first one, with what replaces it -/
theorem importTarget?_retarget (hstring : isString prelude = false)
    (h : Node.importTarget? prelude = some u) (hnew : ∀ new, f u = some new → IsInner new) :
    Node.importTarget? (retarget f prelude) = some ((f u).getD u) := by
  obtain ⟨blanks, before, keyword, inner, rest, hrefers, rfl, rfl⟩ := exists_refers hstring h
  have hreplaced : Refers blanks before keyword (replaced f inner) :=
    ⟨hrefers.blank, hrefers.opens, isInner_replaced hrefers.inner hnew, hrefers.first⟩
  have hwhole : retarget f (blanks ++ (before ++ keyword ++ (inner ++ ')' :: rest)))
      = blanks ++ (before ++ keyword ++ (replaced f inner ++ ')' :: retarget f rest)) := by
    have hregroup (more : Text) :
        blanks ++ (before ++ keyword ++ more) = blanks ++ before ++ keyword ++ more := by
      simp only [List.append_assoc]
    rw [hregroup, hregroup, retarget_of_opens (hrefers.opens.pad hrefers.blank) hrefers.inner]
  rw [hwhole, hreplaced.importTarget?_eq, target_replaced]

/-! ## strings -/

/-- a target that is a string ends at the quote that it starts with -/
theorem exists_string (hstring : isString prelude = true) (h : Node.importTarget? prelude = some u) :
    ∃ blanks q s, Text.isBlank blanks = true ∧ (q = '"' ∨ q = '\'') ∧ (∀ c ∈ u, (c == q) = false) ∧
      prelude = blanks ++ q :: u ++ q :: s := by
  obtain ⟨blanks, hblanks, hprelude⟩ := Text.exists_blanks prelude
  obtain ⟨q, s, htrim⟩ : ∃ q s, Text.trimStart prelude = q :: s := by
    apply List.exists_cons_of_ne_nil
    intro hnil
    unfold isString at hstring
    rw [hnil] at hstring
    cases hstring
  rw [isString_cons htrim] at hstring
  have hq := of_decide_eq_true hstring
  unfold Node.importTarget? at h
  rw [htrim] at h
  dsimp only at h
  rw [if_pos hq] at h
  split at h
  · next hclosed =>
    obtain rfl := Option.some.inj h
    have hwhole := Text.upTo_append_since (· == q) s
    have hopen : ∀ c ∈ Text.upTo (· == q) s, (c == q) = false :=
      fun c hc => Text.eq_false_of_mem_upTo (p := (· == q)) hc
    cases hsince : Text.since (· == q) s with
    | nil =>
      rw [hsince, List.append_nil] at hwhole
      have hne := hopen q (by rw [hwhole]; exact hclosed)
      rw [beq_self_eq_true] at hne
      cases hne
    | cons d s' =>
      obtain rfl : d = q := eq_of_beq (Text.eq_true_of_since (p := (· == q)) hsince)
      refine ⟨blanks, d, s', hblanks, hq, hopen, ?_⟩
      rw [hprelude, htrim, List.append_assoc, List.cons_append, ← hsince, hwhole]
  · cases h

theorem importTarget?_string {blanks : Text} (hblanks : blanks.isBlank = true) {q : Char}
    (hq : q = '"' ∨ q = '\'') (hu : ∀ c ∈ u, (c == q) = false) (s : Text) :
    Node.importTarget? (blanks ++ q :: u ++ q :: s) = some u := by
  have hblank : ¬ blankChar q = true := by rcases hq with rfl | rfl <;> decide
  have htrim : Text.trimStart (blanks ++ q :: u ++ q :: s) = q :: (u ++ q :: s) := by
    rw [List.append_assoc, Text.trimStart_append_of_isBlank hblanks, List.cons_append]
    exact Text.trimStart_cons_of_not_blank hblank _
  have hmem : q ∈ u ++ q :: s := List.mem_append_right _ List.mem_cons_self
  unfold Node.importTarget?
  rw [htrim]
  dsimp only
  rw [if_pos hq, if_pos hmem, Text.upTo_append_cons hu (beq_self_eq_true q)]

/-- a string stays if no `url(` stands in it -/
theorem importTarget?_retarget_string (hstring : isString prelude = true)
    (h : Node.importTarget? prelude = some u) (hno : ¬ urlKeyword <:+: Text.lower u) :
    Node.importTarget? (retarget f prelude) = some u := by
  obtain ⟨blanks, q, s, hblanks, hq, hu, hprelude⟩ := exists_string hstring h
  rcases segments_cases prelude with hplain | ⟨before, keyword, inner, rest, hopens, hinner, hcut⟩
  · have hself : retarget f prelude = prelude := by
      unfold retarget
      rw [hplain, List.flatMap_singleton]
      rfl
    rw [hself]
    exact h
  · -- the first reference stands behind the string
    have hquote : q.toLower = q ∧ q ∉ urlKeyword := by rcases hq with rfl | rfl <;> decide
    have hfront : ¬ urlKeyword <:+: Text.lower (blanks ++ q :: u) := by
      have hlower : Text.lower (blanks ++ q :: u) = Text.lower blanks ++ q :: Text.lower u := by
        unfold Text.lower
        rw [List.map_append, List.map_cons, hquote.1]
      rw [hlower]
      intro hinfix
      exact hno (Text.infix_of_infix_cons hquote.2 (by decide)
        (Text.infix_of_infix_append (not_mem_lower hblanks) (by decide) hinfix))
    have hfind : Text.find? urlKeyword (Text.lower prelude) = some before.length := by
      rw [hcut]
      exact find?_of_opens hopens _
    have hbehind : (blanks ++ q :: u ++ [q]).length ≤ before.length := by
      have hlower : Text.lower prelude
          = Text.lower (blanks ++ q :: u) ++ q :: Text.lower s := by
        unfold Text.lower
        rw [hprelude, List.map_append, List.map_cons, hquote.1]
      rw [hlower, Text.find?_append_cons hquote.2 hfront] at hfind
      obtain ⟨j, _, hj⟩ := Option.map_eq_some_iff.1 hfind
      rw [Text.length_lower] at hj
      rw [List.length_append, List.length_singleton]
      omega
    have hstring' : blanks ++ q :: u ++ [q] <+: prelude := by
      rw [hprelude, List.append_cons _ q s]
      exact List.prefix_append _ s
    have hbefore : before <+: prelude := by
      rw [hcut, List.append_assoc]
      exact List.prefix_append before _
    obtain ⟨more, rfl⟩ := List.prefix_of_prefix_length_le hstring' hbefore hbehind
    have hwhole : retarget f prelude
        = blanks ++ q :: u ++ q ::
          (more ++ keyword ++ (replaced f inner ++ ')' :: retarget f rest)) := by
      rw [hcut, retarget_of_opens hopens hinner]
      simp only [List.append_assoc, List.cons_append, List.nil_append]
    rw [hwhole]
    exact importTarget?_string hblanks hq hu _

end

namespace Node

/-! ## imports -/

/-- the prelude of an at-rule -/
def prelude : Node → Text
  | .statement _ prelude => prelude
  | .group _ prelude _ => prelude
  | .block _ prelude _ => prelude
  | .sheet _ | .rule _ _ => []

/-- an at-rule around declarations: its references are those of the declarations -/
def isBlock : Node → Bool
  | .block _ _ _ => true
  | _ => false

section
variable {f : Text → Option Text} {n : Node} {u : Text}

theorem importTarget?_of_importUrl? (h : n.importUrl? = some u) :
    importTarget? n.prelude = some u := by
  unfold importUrl? at h
  split at h
  · cases n with
    | sheet | rule => cases h
    | statement | group | block => exact h
  · cases h

theorem importUrl?_retarget (h : n.importUrl? = some u) (f : Text → Option Text) :
    (n.retarget f).importUrl?
      = importTarget? (if n.isBlock then n.prelude else Css.retarget f n.prelude) := by
  have hat : n.isAt "import".toList = true := by
    by_contra hno
    unfold importUrl? at h
    rw [if_neg hno] at h
    cases h
  cases n with
  | sheet | rule => cases hat
  | statement | group | block => exact if_pos hat

end

mutual

/-- replacing references keeps the nodes in their places -/
theorem walk_retarget (f : Text → Option Text) : ∀ n : Node,
    (n.retarget f).walk = n.walk.map (retarget f)
  | .sheet rules => congrArg (_ :: ·) (walkList_retargetList f rules)
  | .group _ _ rules => congrArg (_ :: ·) (walkList_retargetList f rules)
  | .rule _ _ | .statement _ _ | .block _ _ _ => rfl

theorem walkList_retargetList (f : Text → Option Text) : ∀ ns : List Node,
    walkList (mapOwnList (fun m => m.setReferring (Css.retarget f m.referring)) ns)
      = (walkList ns).map (retarget f)
  | [] => rfl
  | n :: ns => by
    rw [walkList, List.map_append, ← walk_retarget f n, ← walkList_retargetList f ns]
    rfl

end

end Node

end PageTemplates.Css
