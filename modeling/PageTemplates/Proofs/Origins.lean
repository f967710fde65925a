import Mathlib.Data.List.TakeWhile
import PageTemplates.Path
import PageTemplates.Url
import PageTemplates.Proofs.Parts
import PageTemplates.Proofs.Patterns

/-!
# References inside an origin

A reference without a scheme that does not name a host is resolved below the origin of its base,
however far it climbs.

* `Divided`                 a url as its origin and its path;
* `Leads`                   the segments that are left when `.` and `..` have been followed;
* `segmentsOf_directory`    the segments of a reference behind those of a directory;
* `join_within_origin`      what a reference is resolved to.
-/

namespace PageTemplates.Url

/-- what stands between a scheme and a host -/
def hostMark : Text := "://".toList

/-! ## origins -/

/-- the origin ends at the first slash behind the first `://`, or at the first slash if there is no
`://`; without such a slash it is the whole url -/
inductive IsOrigin (base : Text) : Text → Prop
  | hosted {scheme host : Text}
      (first : ∀ s t, base = s ++ (hostMark ++ t) → scheme.length ≤ s.length)
      (unslashed : '/' ∉ host) : IsOrigin base (scheme ++ (hostMark ++ host))
  | plain {origin : Text} (unmarked : ¬ hostMark <:+: base) (unslashed : '/' ∉ origin) :
      IsOrigin base origin

/-- a url is its origin and a path, which is empty or starts with a slash -/
structure Divided (base origin path : Text) : Prop where
  whole : base = origin ++ path
  origin : IsOrigin base origin
  path : path = [] ∨ path.head? = some '/'

theorem not_mem_upTo_isSlash (s : Text) : '/' ∉ Text.upTo isSlash s := fun h =>
  absurd (Text.eq_false_of_mem_upTo h) (by decide)

theorem since_isSlash (s : Text) :
    Text.since isSlash s = [] ∨ (Text.since isSlash s).head? = some '/' := by
  cases h : Text.since isSlash s with
  | nil => exact .inl rfl
  | cons c t =>
    have hslash : isSlash c = true := Text.eq_true_of_since h
    have hc : c = '/' := eq_of_beq hslash
    exact .inr (congrArg some hc)

/-- no occurrence of a pattern stands in front of the one that is found -/
theorem le_length_of_find? {pat s t base : Text} {i : Nat} (h : Text.find? pat base = some i)
    (hbase : base = s ++ (pat ++ t)) : i ≤ s.length := by
  have hinside : pat <:+: s ++ pat := (List.suffix_append s pat).isInfix
  have hsome : Text.find? pat (s ++ pat) ≠ none := fun hnone =>
    Text.not_infix_of_find? hnone hinside
  obtain ⟨j, hj⟩ := Option.ne_none_iff_exists'.1 hsome
  have hlength := Text.find?_add_length_le hj
  have hfirst := Text.find?_append hj t
  rw [List.append_assoc, ← hbase, h] at hfirst
  obtain rfl : i = j := Option.some.inj hfirst
  rw [List.length_append] at hlength
  omega

theorem split_divided (base : Text) : Divided base (split base).1 (split base).2 := by
  unfold split authorityStart
  cases hfind : Text.find? "://".toList base with
  | none =>
    refine ⟨?_, .plain (Text.not_infix_of_find? hfind) (not_mem_upTo_isSlash base),
      since_isSlash base⟩
    exact (Text.upTo_append_since isSlash base).symm
  | some i =>
    have htake : base.take (i + 3) = base.take i ++ hostMark := by
      obtain ⟨t, ht⟩ := (Text.find?_spec hfind).2
      rw [List.take_add, ← ht]
      rfl
    refine ⟨?_, ?_, since_isSlash _⟩
    · show base = base.take (i + 3) ++ _ ++ _
      rw [List.append_assoc, Text.upTo_append_since, List.take_append_drop]
    · show IsOrigin base (base.take (i + 3) ++ Text.upTo isSlash (base.drop (i + 3)))
      rw [htake, List.append_assoc]
      refine .hosted (fun s t hbase => ?_) (not_mem_upTo_isSlash _)
      exact Nat.le_trans (List.length_take_le i base) (le_length_of_find? hfind hbase)

/-- an origin with a host is the origin of whatever stands behind it -/
theorem Divided.of_hosted {base origin path path' : Text} (h : Divided base origin path)
    (hmark : hostMark <:+: base) (hpath : path'.head? = some '/') :
    Divided (origin ++ path') origin path' := by
  refine ⟨rfl, ?_, .inr hpath⟩
  cases h.origin with
  | plain unmarked => exact absurd hmark unmarked
  | @hosted scheme host first unslashed =>
    refine .hosted (fun s t hjoined => ?_) unslashed
    apply Nat.le_of_not_lt
    intro hlt
    -- an earlier mark would end inside the origin, so that the base has it too
    have hmarked : s ++ hostMark <+: (scheme ++ (hostMark ++ host)) ++ path' :=
      ⟨t, by rw [hjoined, List.append_assoc]⟩
    have hshort : (s ++ hostMark).length ≤ (scheme ++ (hostMark ++ host)).length := by
      simp only [List.length_append]
      omega
    obtain ⟨u, hu⟩ := List.prefix_of_prefix_length_le hmarked (List.prefix_append _ path') hshort
    have hbase : base = s ++ (hostMark ++ (u ++ path)) := by
      rw [h.whole, ← hu]
      simp only [List.append_assoc]
    exact absurd (first s _ hbase) (by omega)

/-! ## segments -/

/-- The segments to which a path leads: `.` is dropped, and `..` removes the segment before it, if
there is one. -/
inductive Leads : List Text → List Text → Prop
  | nil : Leads [] []
  | here {path kept : List Text} (h : Leads path kept) : Leads (path ++ [Path.here]) kept
  | parent {path kept : List Text} (h : Leads path kept) : Leads (path ++ [Path.parent]) kept.dropLast
  | name {path kept : List Text} {segment : Text} (h : Leads path kept)
      (not_here : segment ≠ Path.here) (not_parent : segment ≠ Path.parent) :
      Leads (path ++ [segment]) (kept ++ [segment])

theorem leads_walk (path : List Text) : Leads path (path.foldl walk []).reverse := by
  induction path using List.reverseRecOn with
  | nil => exact .nil
  | append_singleton path segment ih =>
    rw [List.foldl_append, List.foldl_cons, List.foldl_nil]
    generalize path.foldl walk [] = stack at ih
    unfold walk
    split
    · next hhere =>
      rw [hhere]
      exact ih.here
    · next hhere =>
      split
      · next hparent =>
        rw [hparent, List.drop_one, ← List.dropLast_reverse]
        exact ih.parent
      · next hparent =>
        rw [List.reverse_cons]
        exact ih.name hhere hparent

/-- what is left are segments of the path, and all of them are names -/
theorem Leads.names {path kept : List Text} (h : Leads path kept) :
    ∀ segment ∈ kept, segment ∈ path ∧ segment ≠ Path.here ∧ segment ≠ Path.parent := by
  induction h with
  | nil => exact List.forall_mem_nil _
  | here _ ih => exact fun s hs => (ih s hs).imp_left (List.mem_append_left _)
  | parent _ ih =>
    exact fun s hs => (ih s (List.dropLast_subset _ hs)).imp_left (List.mem_append_left _)
  | name _ hhere hparent ih =>
    intro s hs
    rcases List.mem_append.1 hs with hs | hs
    · exact (ih s hs).imp_left (List.mem_append_left _)
    · rw [List.mem_singleton.1 hs]
      exact ⟨List.mem_append_right _ List.mem_cons_self, hhere, hparent⟩

/-- the segments of a path that starts with a slash -/
def segmentsOf (path : Text) : List Text := (path.splitOn '/').drop 1

/-- the segments of the directory of a path -/
def directoryOf (path : Text) : List Text := (segmentsOf path).dropLast

theorem leads_segments (path : Text) : Leads (segmentsOf path) (segments path) := leads_walk _

/-- a path without its last segment -/
theorem directory_eq {path : Text} (h : path = [] ∨ path.head? = some '/') :
    ∃ d : Text, directory path = d ++ ['/'] ∧ directoryOf path = segmentsOf d := by
  unfold directory
  cases hdrop : path.reverse.dropWhile (!isSlash ·) with
  | nil =>
    refine ⟨[], rfl, ?_⟩
    rcases h with rfl | hslash
    · rfl
    · have hmem : '/' ∈ path.reverse := List.mem_reverse.2 (List.mem_of_mem_head? hslash)
      cases List.dropWhile_eq_nil_iff.1 hdrop '/' hmem
  | cons c s =>
    have hslash : isSlash c = true := Text.eq_true_of_since hdrop
    have hc : c = '/' := eq_of_beq hslash
    have hwhole := List.takeWhile_append_dropWhile (p := (!isSlash ·)) (l := path.reverse)
    rw [hdrop, hc] at hwhole
    generalize hlast : path.reverse.takeWhile (!isSlash ·) = last at hwhole
    have hpath : path = s.reverse ++ '/' :: last.reverse := by
      have hreverse := congrArg List.reverse hwhole
      rw [List.reverse_reverse] at hreverse
      rw [← hreverse]
      simp
    have hnone : '/' ∉ last.reverse := by
      rw [List.mem_reverse, ← hlast]
      exact fun hmem => absurd (List.all_eq_true.1 List.all_takeWhile _ hmem) (by decide)
    refine ⟨s.reverse, (congrArg List.reverse (congrArg (· :: s) hc)).trans List.reverse_cons, ?_⟩
    obtain ⟨first, more, hs⟩ := List.exists_cons_of_ne_nil (List.splitOn_ne_nil '/' s.reverse)
    unfold directoryOf segmentsOf
    rw [hpath, List.splitOn_append_cons_self, List.splitOn_eq_singleton hnone, hs, List.cons_append,
      List.drop_one, List.tail_cons, List.dropLast_concat, List.drop_one, List.tail_cons]

/-- the segments of a reference stand behind those of the directory -/
theorem segmentsOf_directory {path : Text} (h : path = [] ∨ path.head? = some '/')
    (reference : Text) : segmentsOf (directory path ++ reference)
      = directoryOf path ++ reference.splitOn '/' := by
  obtain ⟨d, hdirectory, hd⟩ := directory_eq h
  obtain ⟨first, more, hs⟩ := List.exists_cons_of_ne_nil (List.splitOn_ne_nil '/' d)
  rw [hd, hdirectory, List.append_assoc, List.singleton_append]
  unfold segmentsOf
  rw [List.splitOn_append_cons_self, hs]
  rfl

theorem withoutQuery_path {path : Text} (h : path = [] ∨ path.head? = some '/') :
    withoutQuery path = [] ∨ (withoutQuery path).head? = some '/' := by
  rcases h with rfl | hslash
  · exact .inl rfl
  · obtain ⟨t, rfl⟩ := List.head?_eq_some_iff.1 hslash
    exact .inr rfl

/-! ## references -/

/-- the path whose segments are walked -/
theorem exists_joined {base reference : Text} (hscheme : hasScheme reference = false)
    (hhost : startsWith ['/', '/'] reference = false) :
    ∃ joined, join base reference
        = (split base).1 ++ '/' :: Text.joinWith ['/'] (segments joined) ∧
      (reference.head? ≠ some '/' →
        joined = directory (withoutQuery (split base).2) ++ reference) ∧
      (reference.head? = some '/' → joined = reference) := by
  unfold join
  rw [hscheme, hhost, if_neg Bool.false_ne_true, if_neg Bool.false_ne_true]
  refine ⟨_, rfl, fun hslash => if_neg ?_, fun hslash => if_pos ?_⟩
  · intro hprefix
    obtain ⟨t, rfl⟩ := List.isPrefixOf_iff_prefix.1 hprefix
    exact hslash rfl
  · obtain ⟨t, rfl⟩ := List.head?_eq_some_iff.1 hslash
    exact List.isPrefixOf_iff_prefix.2 ⟨t, rfl⟩

/-- **A reference stays in the origin of its base.**  Without a scheme and a host of its own it is
resolved to the origin and segments of which none is `.` or `..`.  They are those to which the
reference leads: a relative one from the directory of the base without its query, a rooted one from
the origin.  An origin with a host is that of the resolved url, too. -/
theorem join_within_origin (base : Text) {reference : Text} (hscheme : hasScheme reference = false)
    (hhost : startsWith ['/', '/'] reference = false) :
    ∃ origin path kept, Divided base origin path ∧
      join base reference = origin ++ '/' :: Text.joinWith ['/'] kept ∧
      (∀ segment ∈ kept, '/' ∉ segment ∧ segment ≠ Path.here ∧ segment ≠ Path.parent) ∧
      (reference.head? ≠ some '/' →
        Leads (directoryOf (withoutQuery path) ++ reference.splitOn '/') kept) ∧
      (reference.head? = some '/' → Leads (segmentsOf reference) kept) ∧
      (hostMark <:+: base →
        Divided (join base reference) origin ('/' :: Text.joinWith ['/'] kept)) := by
  have hdivided := split_divided base
  obtain ⟨joined, hjoined, hrelative, hrooted⟩ := exists_joined hscheme hhost
  have hleads := leads_segments joined
  refine ⟨_, _, segments joined, hdivided, hjoined, ?_, ?_, ?_, ?_⟩
  · intro segment hsegment
    obtain ⟨hmem, hname⟩ := hleads.names segment hsegment
    exact ⟨Text.not_mem_of_mem_splitOn (List.mem_of_mem_drop hmem), hname⟩
  · intro hslash
    rw [← segmentsOf_directory (withoutQuery_path hdivided.path), ← hrelative hslash]
    exact hleads
  · intro hslash
    rw [hrooted hslash] at hleads ⊢
    exact hleads
  · intro hmark
    rw [hjoined]
    exact hdivided.of_hosted hmark rfl

/-- a base with a slash in its query, and a reference that climbs over the root and back -/
theorem join_within_origin_climbing :
    hasScheme ".././../../b:c/./d/../e".toList = false ∧
    startsWith ['/', '/'] ".././../../b:c/./d/../e".toList = false ∧
    ∃ origin path kept, Divided "https://x.org/a/f.css?/g".toList origin path ∧
      join "https://x.org/a/f.css?/g".toList ".././../../b:c/./d/../e".toList
        = origin ++ '/' :: Text.joinWith ['/'] kept ∧
      Leads (directoryOf (withoutQuery path) ++ ".././../../b:c/./d/../e".toList.splitOn '/') kept ∧
      join "https://x.org/a/f.css?/g".toList ".././../../b:c/./d/../e".toList
        = "https://x.org/b:c/e".toList := by
  have hscheme : hasScheme ".././../../b:c/./d/../e".toList = false := by decide
  have hhost : startsWith ['/', '/'] ".././../../b:c/./d/../e".toList = false := by decide
  obtain ⟨origin, path, kept, hdivided, hjoined, -, hleads, -⟩ :=
    join_within_origin "https://x.org/a/f.css?/g".toList hscheme hhost
  exact ⟨hscheme, hhost, origin, path, kept, hdivided, hjoined, hleads (by decide), by decide⟩

end PageTemplates.Url
