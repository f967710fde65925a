import PageTemplates.Proofs.Origins
import PageTemplates.Proofs.Rebasing

/-!
# Queries and fragments of references

In a file, a query or a fragment is no part of what a reference names, and it comes back as it is
when the url is rebased.  A reference to a remote base is joined to it with its query, whose
segments are walked as those of the path are.

* `Plain`                  the references in question;
* `foldl_walk_eq_iff`      segments that are all kept;
* `exists_join_suffix`     what a reference is resolved to with and without a query;
* `join_suffix`            when the query is kept.
-/

namespace PageTemplates.Url

/-- a reference to a named entry, without scheme, query and fragment -/
structure Plain (reference : Text) : Prop where
  scheme : hasScheme reference = false
  unmarked : ∀ c ∈ reference, isQuery c = false
  name : ∃ front last, reference.splitOn '/' = front ++ [last] ∧
    Path.IsPart (.text last) ∧ last ≠ Path.parent

/-! ## references with a query or a fragment behind them -/

section
variable {reference suffix : Text} (h : Plain reference)
  (hsuffix : ∃ c ∈ suffix.head?, isQuery c = true)
include h

theorem Plain.ne_nil : reference ≠ [] := by
  rintro rfl
  obtain ⟨front, last, hsplit, hpart, -⟩ := h.name
  have hlast := congrArg List.getLast? hsplit
  rw [List.getLast?_concat] at hlast
  exact hpart.1 (Option.some.inj hlast).symm

include hsuffix

/-- a colon behind the mark of a query ends no scheme -/
theorem Plain.hasScheme_append : hasScheme (reference ++ suffix) = false := by
  obtain ⟨c, hc, hmark⟩ := hsuffix
  obtain ⟨t, rfl⟩ := List.head?_eq_some_iff.1 hc
  apply Bool.eq_false_iff.2
  intro hscheme
  obtain ⟨s, rest, hs, heq⟩ := hasScheme_iff.1 hscheme
  rcases List.append_eq_append_iff.1 heq with ⟨u, rfl, hu⟩ | ⟨u, hreference, hu⟩
  · cases u with
    | nil =>
      obtain rfl : c = ':' := (List.cons.inj hu).1
      cases hmark
    | cons d u =>
      obtain rfl : c = d := (List.cons.inj hu).1
      have hchar := hs.schemeChar c (List.mem_append_right _ List.mem_cons_self)
      rcases Bool.or_eq_true_iff.1 hmark with hmark | hmark
      · rw [eq_of_beq hmark] at hchar
        cases hchar
      · rw [eq_of_beq hmark] at hchar
        cases hchar
  · cases u with
    | nil =>
      obtain rfl : ':' = c := (List.cons.inj hu).1
      cases hmark
    | cons d u =>
      obtain rfl : ':' = d := (List.cons.inj hu).1
      have hself := hasScheme_iff.2 ⟨s, u, hs, hreference⟩
      rw [h.scheme] at hself
      cases hself

omit hsuffix in
theorem Plain.head?_append : (reference ++ suffix).head? = reference.head? := by
  obtain ⟨c, s, rfl⟩ := List.exists_cons_of_ne_nil h.ne_nil
  rfl

/-- no slash comes into the front of a url -/
theorem Plain.startsWith_append :
    startsWith ['/', '/'] (reference ++ suffix) = startsWith ['/', '/'] reference := by
  obtain ⟨c, hc, hmark⟩ := hsuffix
  obtain ⟨t, rfl⟩ := List.head?_eq_some_iff.1 hc
  obtain ⟨d, s, rfl⟩ := List.exists_cons_of_ne_nil h.ne_nil
  have hslash : ('/' == c) = false := by
    rw [beq_eq_false_iff_ne]
    rintro rfl
    cases hmark
  unfold startsWith
  cases s with
  | nil => simp [List.isPrefixOf, hslash]
  | cons e s => simp [List.isPrefixOf]

theorem Plain.isFixed_append :
    Location.isFixed (reference ++ suffix) = Location.isFixed reference := by
  rw [Bool.eq_iff_iff, ← not_iff_not, Bool.not_eq_true, Bool.not_eq_true,
    Location.isFixed_eq_false_iff, Location.isFixed_eq_false_iff, h.head?_append, h.scheme,
    h.hasScheme_append hsuffix]
  exact and_congr_left' (iff_of_true (List.append_ne_nil_of_left_ne_nil h.ne_nil suffix) h.ne_nil)

/-- the mark is found where it stands -/
theorem Plain.cut_append :
    withoutQuery (reference ++ suffix) = reference ∧ query (reference ++ suffix) = suffix := by
  obtain ⟨c, hc, hmark⟩ := hsuffix
  obtain ⟨t, rfl⟩ := List.head?_eq_some_iff.1 hc
  exact ⟨Text.upTo_append_cons h.unmarked hmark t, Text.since_append_cons h.unmarked hmark t⟩

end

/-! ## segments of a query -/

theorem walk_name {segment : Text} (h : segment ≠ Path.here ∧ segment ≠ Path.parent)
    (stack : List Text) : walk stack segment = segment :: stack :=
  (if_neg h.1).trans (if_neg h.2)

/-- a segment that is no name leaves the stack no longer than it is -/
theorem length_walk_le {segment : Text} (h : ¬ (segment ≠ Path.here ∧ segment ≠ Path.parent))
    (stack : List Text) : (walk stack segment).length ≤ stack.length := by
  unfold walk
  split
  · exact Nat.le_refl _
  · next hhere =>
    split
    · rw [List.length_drop]
      exact Nat.sub_le _ _
    · next hparent => exact absurd ⟨hhere, hparent⟩ h

theorem walk_subset (stack : List Text) (segment : Text) :
    walk stack segment ⊆ segment :: stack := by
  unfold walk
  split
  · exact List.subset_cons_self _ _
  · split
    · exact List.subset_cons_of_subset _ (List.drop_subset 1 stack)
    · exact List.Subset.refl _

/-- what is left are segments of the path or of the stack -/
theorem foldl_walk_subset (segments stack : List Text) :
    segments.foldl walk stack ⊆ segments ++ stack := by
  induction segments generalizing stack with
  | nil => exact List.Subset.refl _
  | cons segment segments ih =>
    intro s hs
    rcases List.mem_append.1 (ih (walk stack segment) hs) with hs | hs
    · exact List.mem_cons_of_mem _ (List.mem_append_left _ hs)
    · rcases List.mem_cons.1 (walk_subset stack segment hs) with rfl | hs
      · exact List.mem_cons_self
      · exact List.mem_cons_of_mem _ (List.mem_append_right _ hs)

theorem length_foldl_walk_le (segments stack : List Text) :
    (segments.foldl walk stack).length ≤ segments.length + stack.length := by
  induction segments generalizing stack with
  | nil => exact Nat.le_add_left _ _
  | cons segment segments ih =>
    have hrest := ih (walk stack segment)
    rw [List.foldl_cons, List.length_cons]
    by_cases hname : segment ≠ Path.here ∧ segment ≠ Path.parent
    · rw [walk_name hname] at hrest ⊢
      rw [List.length_cons] at hrest
      omega
    · have hshort := length_walk_le hname stack
      omega

/-- segments are all kept if and only if they are names -/
theorem foldl_walk_eq_iff {segments stack : List Text} :
    segments.foldl walk stack = segments.reverse ++ stack ↔
      ∀ segment ∈ segments, segment ≠ Path.here ∧ segment ≠ Path.parent := by
  induction segments generalizing stack with
  | nil => exact iff_of_true rfl (List.forall_mem_nil _)
  | cons segment segments ih =>
    rw [List.foldl_cons, List.forall_mem_cons]
    by_cases hname : segment ≠ Path.here ∧ segment ≠ Path.parent
    · rw [walk_name hname, List.reverse_cons, List.append_assoc, List.singleton_append, ih]
      exact (and_iff_right hname).symm
    · refine iff_of_false (fun hkept => ?_) (fun hall => hname hall.1)
      have hshort := length_walk_le hname stack
      have hrest := length_foldl_walk_le segments (walk stack segment)
      have hlength := congrArg List.length hkept
      rw [List.length_append, List.length_reverse, List.length_cons] at hlength
      omega

/-! ## references to a remote base -/

/-- a segment with the mark of a query in it is a name -/
theorem ne_dots_of_mem {segment : Text} {c : Char} (hc : c ∈ segment) (hmark : isQuery c = true) :
    segment ≠ Path.here ∧ segment ≠ Path.parent := by
  have hdots (s : Text) (hs : ∀ d ∈ s, isQuery d = false) : segment ≠ s := by
    rintro rfl
    exact Bool.false_ne_true ((hs c hc).symm.trans hmark)
  exact ⟨hdots _ (by simp [Path.here, isQuery]), hdots _ (by simp [Path.parent, isQuery])⟩

/-- the mark stands in the first segment -/
theorem exists_splitOn_suffix {suffix : Text} (h : ∃ c ∈ suffix.head?, isQuery c = true) :
    ∃ first rest, suffix.splitOn '/' = first :: rest ∧ ∃ c ∈ first, isQuery c = true := by
  obtain ⟨c, hc, hmark⟩ := h
  obtain ⟨t, rfl⟩ := List.head?_eq_some_iff.1 hc
  obtain ⟨first, rest, ht⟩ := List.exists_cons_of_ne_nil (List.splitOn_ne_nil '/' t)
  have hslash : ¬ (c == '/') = true := by
    rw [beq_iff_eq]
    rintro rfl
    cases hmark
  refine ⟨c :: first, rest, ?_, c, List.mem_cons_self, hmark⟩
  rw [List.splitOn_cons_eq_if_modifyHead, if_neg hslash, ht, List.modifyHead_cons]

/-- the segments in front of the last one of a reference, from the origin on -/
theorem exists_before (base : Text) {reference last : Text} {front : List Text}
    (hsplit : reference.splitOn '/' = front ++ [last]) (hlast : last ≠ []) :
    ∃ before, (∀ segment ∈ before, '/' ∉ segment) ∧ ∀ url more, hasScheme url = false →
      startsWith ['/', '/'] url = false → url.head? = reference.head? →
      url.splitOn '/' = front ++ more →
        join base url = (split base).1
          ++ '/' :: Text.joinWith ['/'] ((before ++ more).foldl walk []).reverse := by
  have hfront : ∀ segment ∈ front, '/' ∉ segment := fun segment hmem =>
    Text.not_mem_of_mem_splitOn (hsplit ▸ List.mem_append_left [last] hmem)
  by_cases hslash : reference.head? = some '/'
  · -- a rooted reference starts with an empty segment
    obtain ⟨t, rfl⟩ := List.head?_eq_some_iff.1 hslash
    rw [List.splitOn_cons_eq_if_modifyHead, if_pos (beq_self_eq_true '/')] at hsplit
    cases front with
    | nil => exact absurd (List.cons.inj hsplit).1.symm hlast
    | cons first front =>
      refine ⟨front, (List.forall_mem_cons.1 hfront).2, fun url more hscheme hhost hhead hurl => ?_⟩
      obtain ⟨joined, hjoined, -, hrooted⟩ := @exists_joined base url hscheme hhost
      rw [hjoined, hrooted (hhead.trans hslash), segments, hurl]
      rfl
  · refine ⟨directoryOf (withoutQuery (split base).2) ++ front, ?_,
      fun url more hscheme hhost hhead hurl => ?_⟩
    · rw [List.forall_mem_append]
      refine ⟨fun segment hmem => ?_, hfront⟩
      exact Text.not_mem_of_mem_splitOn (List.mem_of_mem_drop (List.mem_of_mem_dropLast hmem))
    · obtain ⟨joined, hjoined, hrelative, -⟩ := @exists_joined base url hscheme hhost
      rw [hjoined, hrelative fun hrooted => hslash (hhead.symm.trans hrooted), List.append_assoc,
        ← hurl, ← segmentsOf_directory (withoutQuery_path (split_divided base).path)]
      rfl

/-- The last segment of a reference takes the query up to its first slash; what follows is walked
from there. -/
theorem exists_join_suffix (base : Text) {reference suffix : Text} (h : Plain reference)
    (hhost : startsWith ['/', '/'] reference = false)
    (hsuffix : ∃ c ∈ suffix.head?, isQuery c = true) :
    ∃ origin outer last first rest,
      suffix.splitOn '/' = first :: rest ∧ first ≠ [] ∧
      (∀ segment ∈ outer ++ (last ++ first) :: rest, '/' ∉ segment) ∧
      join base reference = origin ++ '/' :: Text.joinWith ['/'] (outer ++ [last]) ∧
      join base (reference ++ suffix) = origin ++ '/' :: Text.joinWith ['/']
        (rest.foldl walk ((last ++ first) :: outer.reverse)).reverse := by
  obtain ⟨front, last, hsplit, hpart, hparent⟩ := h.name
  obtain ⟨first, rest, hfirst, c, hc, hmark⟩ := exists_splitOn_suffix hsuffix
  obtain ⟨before, hbefore, hjoin⟩ := exists_before base hsplit hpart.1
  have hplain := hjoin reference [last] h.scheme hhost rfl hsplit
  have hmarked := hjoin (reference ++ suffix) ((last ++ first) :: rest) (h.hasScheme_append hsuffix)
    ((h.startsWith_append hsuffix).trans hhost) h.head?_append (Text.splitOn_append hsplit hfirst)
  rw [List.foldl_append, List.foldl_cons, List.foldl_nil, walk_name ⟨hpart.2.1, hparent⟩,
    List.reverse_cons] at hplain
  rw [List.foldl_append, List.foldl_cons,
    walk_name (ne_dots_of_mem (List.mem_append_right last hc) hmark)] at hmarked
  refine ⟨_, _, last, first, rest, hfirst, List.ne_nil_of_mem hc, ?_, hplain, ?_⟩
  · -- all texts have been cut at their slashes
    have hrest : ∀ segment ∈ first :: rest, '/' ∉ segment := fun segment hmem =>
      Text.not_mem_of_mem_splitOn (hfirst ▸ hmem)
    rw [List.forall_mem_cons] at hrest
    rw [List.forall_mem_append, List.forall_mem_cons, List.mem_append, not_or]
    refine ⟨fun segment hmem => ?_, ⟨hpart.2.2, hrest.1⟩, hrest.2⟩
    have hwalked := foldl_walk_subset _ _ (List.mem_reverse.1 hmem)
    rw [List.append_nil] at hwalked
    exact hbefore segment hwalked
  · rw [List.reverse_reverse]
    exact hmarked

theorem join_suffix_iff (base : Text) {reference suffix : Text} (h : Plain reference)
    (hhost : startsWith ['/', '/'] reference = false)
    (hsuffix : ∃ c ∈ suffix.head?, isQuery c = true) :
    join base (reference ++ suffix) = join base reference ++ suffix ↔
      ∀ segment ∈ (suffix.splitOn '/').drop 1, segment ≠ Path.here ∧ segment ≠ Path.parent := by
  obtain ⟨origin, outer, last, first, rest, hsplit, hfirst, hslash, hplain, hmarked⟩ :=
    exists_join_suffix base h hhost hsuffix
  have hkept : join base reference ++ suffix
      = origin ++ '/' :: Text.joinWith ['/'] (outer ++ (last ++ first) :: rest) := by
    rw [hplain, Text.joinWith_append, ← hsplit, Text.joinWith_splitOn, List.append_assoc,
      List.cons_append]
  have hne : Text.joinWith ['/'] (outer ++ (last ++ first) :: rest) ≠ [] := by
    obtain ⟨c, t, rfl⟩ := List.exists_cons_of_ne_nil hfirst
    refine List.ne_nil_of_mem (a := c) (Text.subset_joinWith ['/'] (s := last ++ c :: t) ?_ ?_)
    · exact List.mem_append_right _ List.mem_cons_self
    · exact List.mem_append_right _ List.mem_cons_self
  have hwalked : ∀ segment ∈ (rest.foldl walk ((last ++ first) :: outer.reverse)).reverse,
      '/' ∉ segment := by
    intro segment hmem
    apply hslash
    have hmem := foldl_walk_subset _ _ (List.mem_reverse.1 hmem)
    rw [List.mem_append, List.mem_cons, List.mem_reverse] at hmem
    rw [List.mem_append, List.mem_cons]
    tauto
  rw [hmarked, hkept, List.append_cancel_left_eq, List.cons.injEq, and_iff_right rfl,
    Text.joinWith_inj hwalked hslash hne, List.reverse_eq_iff, List.reverse_append,
    List.reverse_cons, List.append_assoc, List.singleton_append, foldl_walk_eq_iff, hsplit]
  rfl

/-- a reference with a host of its own is not walked -/
theorem join_hosted (base : Text) {reference : Text} (hscheme : hasScheme reference = false)
    (hhost : startsWith ['/', '/'] reference = true) :
    join base reference = scheme base ++ ':' :: reference := by
  unfold join
  rw [hscheme, hhost]
  rfl

/-! ## references from a file -/

section
variable {reference suffix : Text} (h : Plain reference)
  (hsuffix : ∃ c ∈ suffix.head?, isQuery c = true) (path siteRoot : Path)
include h hsuffix

theorem Plain.resolveUrl_append (hhost : startsWith ['/', '/'] reference = false) :
    (Location.file path).resolveUrl siteRoot (reference ++ suffix)
      = (Location.file path).resolveUrl siteRoot reference := by
  have hself : withoutQuery reference = reference := Text.upTo_eq_self h.unmarked
  unfold Location.resolveUrl
  rw [h.hasScheme_append hsuffix, h.startsWith_append hsuffix, h.scheme, hhost]
  simp only [(h.cut_append hsuffix).1, hself, Bool.false_eq_true, if_false]

theorem Plain.rebase?_append :
    (Location.file path).rebase? siteRoot (reference ++ suffix)
      = ((Location.file path).rebase? siteRoot reference).map (· ++ suffix) := by
  have hfixed := h.isFixed_append hsuffix
  cases hplain : Location.isFixed reference with
  | true =>
    rw [Location.rebase?_eq_none hplain, Location.rebase?_eq_none (hfixed.trans hplain)]
    rfl
  | false =>
    obtain ⟨-, -, hslash, -⟩ := Location.isFixed_eq_false_iff.1 hplain
    have hfile : (Location.file path).resolveUrl siteRoot reference = _ :=
      Location.resolveUrl_relative_file hplain path
    have hsame := h.resolveUrl_append hsuffix path siteRoot (Location.startsWith_slashes hslash)
    rw [Location.rebase?_file (hfixed.trans hplain) (hsame.trans hfile),
      Location.rebase?_file hplain hfile, (h.cut_append hsuffix).2,
      show query reference = [] from Text.since_eq_nil h.unmarked, List.append_nil]
    rfl

end

/-- **A query is kept if it has no dot segments.**  A query or a fragment behind a reference to a
remote base comes out as it is written if and only if no segment behind a slash in it is `.` or
`..`, or the reference has a host of its own.  As seen from a file, it is no part of what the
reference names, and is kept behind the url that the reference is rebased to, whatever it holds. -/
theorem join_suffix (base : Text) {reference suffix : Text} (h : Plain reference)
    (hsuffix : ∃ c ∈ suffix.head?, isQuery c = true) :
    (join base (reference ++ suffix) = join base reference ++ suffix ↔
      startsWith ['/', '/'] reference = true ∨
        ∀ segment ∈ (suffix.splitOn '/').drop 1, segment ≠ Path.here ∧ segment ≠ Path.parent) ∧
    ∀ siteRoot path,
      (startsWith ['/', '/'] reference = false →
        (Location.file path).resolveUrl siteRoot (reference ++ suffix)
          = (Location.file path).resolveUrl siteRoot reference) ∧
      (Location.file path).rebase? siteRoot (reference ++ suffix)
        = ((Location.file path).rebase? siteRoot reference).map (· ++ suffix) := by
  refine ⟨?_, fun siteRoot path => ⟨h.resolveUrl_append hsuffix path siteRoot,
    h.rebase?_append hsuffix path siteRoot⟩⟩
  cases hhost : startsWith ['/', '/'] reference with
  | true =>
    refine iff_of_true ?_ (.inl rfl)
    rw [join_hosted base h.scheme hhost, join_hosted base (h.hasScheme_append hsuffix)
      ((h.startsWith_append hsuffix).trans hhost), List.append_assoc, List.cons_append]
  | false =>
    rw [join_suffix_iff base h hhost hsuffix]
    exact (or_iff_right Bool.false_ne_true).symm

/-- a query with slashes but without dot segments, behind a reference with a colon and dots in it,
and a query that climbs in a file -/
theorem join_suffix_slashes :
    Plain "../img/./b:c.png".toList ∧ (∃ c ∈ "?v=a/.b/..c#/d".toList.head?, isQuery c = true) ∧
    join "https://x.org/css/a.css?/k".toList ("../img/./b:c.png".toList ++ "?v=a/.b/..c#/d".toList)
      = join "https://x.org/css/a.css?/k".toList "../img/./b:c.png".toList
        ++ "?v=a/.b/..c#/d".toList ∧
    (Location.file (.ofText "/site/css/a.css".toList)).rebase? (.ofText "/site".toList)
        ("../img/./b:c.png".toList ++ "?v=/../d".toList)
      = some "/img/b:c.png?v=/../d".toList := by
  have hplain : Plain "../img/./b:c.png".toList :=
    ⟨by decide, by simp [isQuery], ["..".toList, "img".toList, ".".toList], "b:c.png".toList,
      by decide, ⟨by decide, by decide, by decide⟩, by decide⟩
  have hmark : ∃ c ∈ "?v=a/.b/..c#/d".toList.head?, isQuery c = true := ⟨'?', rfl, rfl⟩
  have hclimbing : ∃ c ∈ "?v=/../d".toList.head?, isQuery c = true := ⟨'?', rfl, rfl⟩
  refine ⟨hplain, hmark, (join_suffix _ hplain hmark).1.2 (.inr (by decide)), ?_⟩
  rw [((join_suffix [] hplain hclimbing).2 _ _).2]
  decide

/-- the segments of a query climb over the path in front of it -/
theorem join_suffix_climbing : ¬ ∀ base reference suffix : Text, Plain reference →
    (∃ c ∈ suffix.head?, isQuery c = true) →
      join base (reference ++ suffix) = join base reference ++ suffix := by
  intro h
  have hplain : Plain "b.png".toList :=
    ⟨by decide, by simp [isQuery], [], "b.png".toList, by decide,
      ⟨by decide, by decide, by decide⟩, by decide⟩
  have hkept := h "https://x.org/css/a.css".toList "b.png".toList "?v=/../c".toList hplain
    ⟨'?', rfl, rfl⟩
  exact absurd hkept (by decide)

end PageTemplates.Url
