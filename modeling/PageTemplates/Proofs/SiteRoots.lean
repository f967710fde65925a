import PageTemplates.Proofs.Origins
import PageTemplates.Proofs.Rebasing
import PageTemplates.Proofs.Spellings

/-!
# Urls that are rooted in the site

A url with one slash in front is a path below the site root, as seen from a file, and a path below
the origin, as seen from a remote base.  The walk from the origin stays at the origin where it meets
`..`; the walk from the site root leaves it.

* `Path.reached`           where a spelling leads from a directory (`normal_join_ofParts`);
* `Path.holds_reached_iff` when that is inside the directory;
* `resolveUrl_site`        what a rooted url stands for.
-/

namespace PageTemplates

namespace Path

/-- Where a spelling leads from a directory: its steps over the root of the spelling remove
components of the directory, innermost first, and go on over the root directory. -/
def reached (base : Path) (parts : List Part) : Path :=
  ⟨base.rooted, surplus (overshoots parts - base.parts.length)
    ++ (base.parts.take (base.parts.length - overshoots parts) ++ descent parts)⟩

theorem normal_join_ofParts {base : Path} (hbase : base.normal = base) (parts : List Part) :
    (base.join (ofParts false parts)).normal = base.reached parts := by
  have hwalked : base.parts.foldl walk [] = base.parts.reverse :=
    List.reverse_eq_iff.1 (congrArg Path.parts hbase)
  have hjoin : base.join (ofParts false parts)
      = ⟨base.rooted, base.parts ++ (ofParts false parts).parts⟩ := if_neg Bool.false_ne_true
  rw [hjoin]
  unfold normal reached
  rw [List.foldl_append, hwalked, foldl_walk_ofParts, ascend_eq, List.length_reverse,
    List.reverse_append, List.reverse_append, reverse_surplus, List.reverse_reverse,
    List.drop_reverse, List.reverse_reverse, List.append_assoc]

theorem holds_iff {base : Path} {parts : List Part} :
    base.Holds ⟨base.rooted, parts⟩ ↔ base.parts <+: parts := by
  constructor
  · rintro ⟨rest, hinside⟩
    exact ⟨rest, (Path.mk.inj hinside).2.symm⟩
  · rintro ⟨rest, rfl⟩
    exact ⟨rest, rfl⟩

/-- a spelling stays inside a directory, or comes back through the components that it has left -/
theorem holds_reached_iff {base : Path} {parts : List Part} : base.Holds (base.reached parts) ↔
    base.parts.drop (base.parts.length - overshoots parts)
      <+: surplus (overshoots parts - base.parts.length) ++ descent parts := by
  -- either some components are kept, or a step goes over the root directory
  have hparts : (base.reached parts).parts = base.parts.take (base.parts.length - overshoots parts)
      ++ (surplus (overshoots parts - base.parts.length) ++ descent parts) := by
    unfold reached
    rcases Nat.le_total (overshoots parts) base.parts.length with hle | hle
    · rw [Nat.sub_eq_zero_of_le hle]
      rfl
    · rw [Nat.sub_eq_zero_of_le hle]
      rfl
  have hholds : base.Holds (base.reached parts) ↔ base.parts <+: (base.reached parts).parts :=
    holds_iff
  rw [hholds, hparts]
  generalize base.parts.length - overshoots parts = kept
  have hbase := List.take_append_drop kept base.parts
  calc base.parts <+: _ ↔ base.parts.take kept ++ base.parts.drop kept <+: _ := by rw [hbase]
    _ ↔ _ := List.prefix_append_right_inj _

/-- without steps over its root, a spelling stays inside -/
theorem holds_reached {base : Path} {parts : List Part} (h : overshoots parts = 0) :
    base.Holds (base.reached parts) := by
  rw [holds_reached_iff, h, Nat.sub_zero, List.drop_length]
  exact List.nil_prefix

/-- a slash in front makes no difference to where a spelling leads -/
theorem reached_slash (base : Path) (s : Text) :
    base.reached (pieces ('/' :: s)) = base.reached (pieces s) := by
  have hpieces : pieces ('/' :: s) = .text [] :: pieces s := by
    unfold pieces
    rw [List.splitOn_cons_eq_if_modifyHead]
    rfl
  have hdescent : descent (.text [] :: pieces s) = descent (pieces s) := rfl
  have hovershoots : overshoots (.text [] :: pieces s) = overshoots (pieces s) := Nat.zero_add _
  unfold reached
  rw [hpieces, hdescent, hovershoots]

end Path

namespace Location

theorem resolveUrl_reached {siteRoot : Path} (hnormal : siteRoot.normal = siteRoot) {url : Text}
    (hslash : url.head? = some '/') (hsingle : Url.startsWith ['/', '/'] url = false)
    (path : Path) :
    (Location.file path).resolveUrl siteRoot url
      = .file (siteRoot.reached (Path.pieces (Url.withoutQuery url))) := by
  obtain ⟨t, rfl⟩ := List.head?_eq_some_iff.1 hslash
  have hrooted : Url.withoutQuery ('/' :: t) = '/' :: Url.withoutQuery t :=
    Text.upTo_append (s := ['/']) (List.forall_mem_singleton.2 rfl) t
  have hrelative : (Url.withoutQuery t).head? ≠ some '/' := by
    intro hdouble
    obtain ⟨r, hr⟩ := List.head?_eq_some_iff.1 hdouble
    have hwhole := Text.upTo_append_since Url.isQuery t
    rw [show Text.upTo Url.isQuery t = '/' :: r from hr] at hwhole
    have hprefix : ['/', '/'] <+: '/' :: t := ⟨_, congrArg ('/' :: ·) hwhole⟩
    exact Bool.false_ne_true (hsingle.symm.trans (List.isPrefixOf_iff_prefix.2 hprefix))
  unfold resolveUrl
  rw [Url.hasScheme_slash, hsingle, if_neg Bool.false_ne_true, if_neg Bool.false_ne_true]
  dsimp only
  rw [hrooted, Path.reached_slash]
  show ofPath (siteRoot.join (.ofText (Url.withoutQuery t))) = _
  have hspelled : Path.ofText (Url.withoutQuery t)
      = .ofParts false (Path.pieces (Url.withoutQuery t)) := by
    unfold Path.ofText
    rw [beq_false_of_ne hrelative]
  rw [hspelled]
  exact congrArg Location.file (Path.normal_join_ofParts hnormal _)

theorem resolveUrl_origin (base : Text) (siteRoot : Path) {url : Text}
    (hslash : url.head? = some '/') (hsingle : Url.startsWith ['/', '/'] url = false) :
    (Location.remote base).resolveUrl siteRoot url
      = .remote ((Url.split base).1 ++ '/' :: Text.joinWith ['/'] (Url.segments url)) := by
  obtain ⟨t, rfl⟩ := List.head?_eq_some_iff.1 hslash
  rw [← join_rooted base hsingle]
  unfold resolveUrl
  rw [Url.hasScheme_slash, hsingle]
  rfl

/-- **Where a url leads that is rooted in the site.**  As seen from any file it leads from the site
root, and every `..` that it meets over its own root removes a component of the site root.  It stays
in the site if it meets none there, or if it comes back through all components that it has left, and
only then.  As seen from a remote base no such step leaves the origin. -/
theorem resolveUrl_site {siteRoot : Path} (hroot : siteRoot.rooted = true)
    (hnormal : siteRoot.normal = siteRoot) {url : Text} (hslash : url.head? = some '/')
    (hsingle : Url.startsWith ['/', '/'] url = false) :
    let parts := Path.pieces (Url.withoutQuery url)
    (∀ path, (Location.file path).resolveUrl siteRoot url = .file (siteRoot.reached parts)) ∧
    (siteRoot.reached parts).rooted = true ∧
    (Path.overshoots parts = 0 → siteRoot.Holds (siteRoot.reached parts)) ∧
    (siteRoot.Holds (siteRoot.reached parts) ↔
      siteRoot.parts.drop (siteRoot.parts.length - Path.overshoots parts)
        <+: Path.surplus (Path.overshoots parts - siteRoot.parts.length)
          ++ Path.descent parts) ∧
    ∀ base, ∃ kept, (Location.remote base).resolveUrl siteRoot url
        = .remote ((Url.split base).1 ++ '/' :: Text.joinWith ['/'] kept) ∧
      ∀ segment ∈ kept, segment ≠ Path.here ∧ segment ≠ Path.parent := by
  refine ⟨resolveUrl_reached hnormal hslash hsingle, hroot, Path.holds_reached,
    Path.holds_reached_iff, fun base => ?_⟩
  refine ⟨_, resolveUrl_origin base siteRoot hslash hsingle, fun segment hmem => ?_⟩
  exact ((Url.leads_segments url).names segment hmem).2

/-- a url that leaves the site and comes back, with a query that climbs -/
theorem resolveUrl_site_returning :
    (Path.ofText "/www/site".toList).rooted = true ∧
    (Path.ofText "/www/site".toList).normal = .ofText "/www/site".toList ∧
    "/a/.././../site/b.css?/../..".toList.head? = some '/' ∧
    Url.startsWith ['/', '/'] "/a/.././../site/b.css?/../..".toList = false ∧
    (Path.ofText "/www/site".toList).Holds
      ((Path.ofText "/www/site".toList).reached (Path.pieces "/a/.././../site/b.css".toList)) ∧
    (Location.file (.ofText "/www/c.html".toList)).resolveUrl (.ofText "/www/site".toList)
        "/a/.././../site/b.css?/../..".toList
      = .file (.ofText "/www/site/b.css".toList) := by
  have hroot : (Path.ofText "/www/site".toList).rooted = true := by decide
  have hnormal : (Path.ofText "/www/site".toList).normal = .ofText "/www/site".toList := by decide
  have hslash : "/a/.././../site/b.css?/../..".toList.head? = some '/' := by decide
  have hsingle : Url.startsWith ['/', '/'] "/a/.././../site/b.css?/../..".toList = false := by
    decide
  obtain ⟨hfile, -, -, hinside, -⟩ := resolveUrl_site hroot hnormal hslash hsingle
  exact ⟨hroot, hnormal, hslash, hsingle, hinside.2 (by decide), (hfile _).trans (by decide)⟩

/-- a url that climbs over the site root is a file beside the site -/
theorem resolveUrl_site_leaving : ¬ ∀ (siteRoot path : Path) (url : Text), siteRoot.rooted = true →
    siteRoot.normal = siteRoot → url.head? = some '/' → Url.startsWith ['/', '/'] url = false →
      ∃ file, (Location.file path).resolveUrl siteRoot url = .file file ∧ siteRoot.Holds file := by
  intro h
  obtain ⟨file, hfile, parts, rfl⟩ := h (.ofText "/site".toList) (.ofText "/site/c.css".toList)
    "/../b.css".toList (by decide) (by decide) (by decide) (by decide)
  have hbeside : (Location.file (.ofText "/site/c.css".toList)).resolveUrl (.ofText "/site".toList)
      "/../b.css".toList = .file ⟨true, [.text "b.css".toList]⟩ := by decide
  have hsame := (Path.mk.inj (Location.file.inj (hbeside.symm.trans hfile))).2
  exact absurd (List.cons.inj hsame).1 (by decide)

end Location

end PageTemplates
