import PageTemplates.Proofs.ComponentStyles
import PageTemplates.Proofs.ImportTargets
import PageTemplates.Proofs.Rebasing

/-!
# Imports of moved rules

Where reading the target of an `@import` and rewriting the references of its rule agree, a moved
`@import` stands for the sheet that it stood for.

* `Movable`                the targets that a move keeps or replaces;
* `importUrl?_rebased`     what the target of a rebased `@import` stands for;
* `collectStyles_import`   the same of every `@import` that moves to a host;
* `Strays`                 an `@import` that stands for another sheet after its move.
-/

namespace PageTemplates

open Css

/-! ## what moved imports stand for -/

/-- the targets that a move keeps or replaces: a rooted one, unless `url(` stands in a string; and a
relative one in a reference of an at-rule without declarations, if the file lies below the site root
at texts that can stand in a reference -/
inductive Movable (parts : List Path.Part) (n : Node) (u : Text) : Prop where
  | rooted (slash : u.head? = some '/')
      (string : isString n.prelude = true → ¬ urlKeyword <:+: Text.lower u)
  | relative (nonempty : u ≠ []) (slash : u.head? ≠ some '/') (hash : u.head? ≠ some '#')
      (reference : isString n.prelude = false) (block : n.isBlock = false)
      (texts : List Text) (spelled : parts = texts.map .text)
      (plain : ∀ t ∈ texts, ∀ c ∈ t, Url.isQuery c = false ∧ Segment.isClosing c = false)

theorem isInner_siteUrl {texts : List Text} {u : Text} (hu : IsInner u)
    (htexts : ∀ t ∈ texts, ∀ c ∈ t, Segment.isClosing c = false) :
    IsInner ('/' :: Text.joinWith ['/'] texts ++ Url.query u) := by
  intro c hc
  rcases List.mem_append.1 hc with hc | hc
  · rcases List.mem_cons.1 hc with rfl | hc
    · rfl
    · rcases Text.mem_joinWith hc with hc | ⟨t, ht, hc⟩
      · rw [List.mem_singleton.1 hc]
        rfl
      · exact htexts t ht c hc
  · exact hu c ((List.dropWhile_sublist _).subset hc)

/-- the target of an `@import` after a move from `origin` stands for the file that it stood for -/
theorem importUrl?_rebased {siteRoot : Path} {origin : Location} (horigin : origin.Proper)
    {n : Node} {u : Text} (hu : n.importUrl? = some u) {parts : List Path.Part}
    (hp : origin.resolveUrl siteRoot u = .file ⟨siteRoot.rooted, siteRoot.parts ++ parts⟩)
    (hmovable : Movable parts n u) (target : Path) :
    ∃ v, (n.retarget (origin.rebase? siteRoot)).importUrl? = some v ∧
      (Location.file target).resolveUrl siteRoot v = origin.resolveUrl siteRoot u := by
  have htarget := Node.importTarget?_of_importUrl? hu
  rw [Node.importUrl?_retarget hu]
  cases hmovable with
  | rooted hslash hstring =>
    refine ⟨u, ?_, (Location.resolveUrl_rooted hslash hp target).trans hp.symm⟩
    have hkept : origin.rebase? siteRoot u = none := by
      obtain ⟨t, rfl⟩ := List.head?_eq_some_iff.1 hslash
      exact Location.rebase?_eq_none (Location.isFixed_slash t) origin siteRoot
    split
    · exact htarget
    · cases hquote : isString n.prelude with
      | true => exact importTarget?_retarget_string hquote htarget (hstring hquote)
      | false =>
        rw [importTarget?_retarget hquote htarget (by rw [hkept]; exact nofun), hkept]
        rfl
  | relative hne hslash hhash hreference hblock texts hspelled hplain =>
    subst hspelled
    have hscheme : Url.hasScheme u = false := by
      apply Bool.eq_false_iff.2
      intro hscheme
      rw [Location.resolveUrl_of_hasScheme hscheme] at hp
      cases hp
    have hfixed := Location.isFixed_eq_false_iff.2 ⟨hne, hscheme, hslash, hhash⟩
    have hv := Location.rebase?_file hfixed hp
    have hsite := Location.rebase?_below hv hp
    rw [Path.joinParts_texts] at hsite
    refine ⟨_, ?_, Location.resolveUrl_below horigin hv hp
      (fun t ht c hc => (hplain t ht c hc).1) target⟩
    have hinner := isInner_siteUrl (isInner_of_importTarget? hreference htarget)
      (fun t ht c hc => (hplain t ht c hc).2)
    rw [hblock, if_neg Bool.false_ne_true, importTarget?_retarget hreference htarget, hv]
    · rfl
    · intro new hnew
      rw [hv] at hnew
      rw [← Option.some.inj hnew, hsite]
      exact hinner

namespace Catalog
variable {c : Catalog} {host : SheetId} {h : Sheet}

/-- the rules that a host gains follow its own rules, in the order of `sources` -/
theorem getElem?_gathered {target : Location} {i : Nat} {s : Sheet} {rule : Node}
    (hi : (c.sources host)[i]? = some (s, rule)) (former : List Node) :
    (former ++ c.gathered host target)[former.length + i]?
      = some (rebaseRule c.siteRoot s.location target rule) := by
  rw [List.getElem?_append_right (Nat.le_add_right _ _), Nat.add_sub_cancel_left]
  unfold gathered
  rw [List.getElem?_map, hi]
  rfl

/-- **A moved import stands for the sheet that it stood for.**  Every rule that moves to a host
stands behind the rules of the host, node by node as it was.  An `@import` in it, at any depth, for
a file below the site root still has a target, and the target stands for that file: if the rule
stays at its location, or if the host is a file and the target is one that a move keeps or
replaces. -/
theorem collectStyles_import (loaded : c.Loaded) (hh : c.sheets[host]? = some h)
    {former : List Node} (hr : h.rules? = some former) {i : Nat} {s : Sheet} {rule : Node}
    (hi : (c.sources host)[i]? = some (s, rule)) (hs : s.location.Proper) :
    ∃ h' rules rule', (c.collectStyles host).sheets[host]? = some h' ∧
      h'.location = h.location ∧ h'.rules? = some rules ∧
      rules[former.length + i]? = some rule' ∧ rule'.walk.length = rule.walk.length ∧
      ∀ (j : Nat) (n : Node) (u : Text) (parts : List Path.Part), rule.walk[j]? = some n →
        n.importUrl? = some u →
        s.location.resolveUrl c.siteRoot u = .file ⟨c.siteRoot.rooted, c.siteRoot.parts ++ parts⟩ →
        s.location = h.location ∨ (∃ path, h.location = .file path) ∧ Movable parts n u →
        ∃ n' v, rule'.walk[j]? = some n' ∧ n'.importUrl? = some v ∧
          h.location.resolveUrl c.siteRoot v = s.location.resolveUrl c.siteRoot u := by
  refine ⟨_, _, _, getElem?_collectStyles_host loaded.sound hh hr, rfl, rfl,
    getElem?_gathered hi former, ?_⟩
  unfold rebaseRule
  split
  · next hsame =>
    refine ⟨rfl, ?_⟩
    intro j n u parts hj hu _ _
    exact ⟨n, u, hj, hu, by rw [hsame]⟩
  · next hne =>
    rw [Node.walk_retarget]
    refine ⟨List.length_map _, ?_⟩
    intro j n u parts hj hu hp hcase
    rcases hcase with hsame | ⟨⟨path, hpath⟩, hmovable⟩
    · exact absurd hsame hne
    · obtain ⟨v, hv, hresolve⟩ := importUrl?_rebased hs hu hp hmovable path
      rw [List.getElem?_map, hj, hpath]
      exact ⟨_, v, rfl, hv, hresolve⟩

/-- pages without markup, and the sheets that their sources are -/
def importing : Env where
  read _ := .ok []
  parseMarkup _ _ := .ok ⟨[], true⟩
  parseCss := Css.parse

/-- a host without rules, and the sheet of a component in another directory -/
def importer (source : String) : Session :=
  .prepared importing (.ofText "/site".toList) true
    [.inline [] (.file (.ofText "/site/x.html".toList)) false,
      .inline source.toList (.file (.ofText "/site/c/y.html".toList)) true]

/-- a relative reference in a group moves out of its directory -/
theorem collectStyles_import_nested :
    ∃ (s : Session) (h origin h' : Sheet) (rule rule' n' : Node) (rules : List Node) (v : Text),
    (importer "@media print \x7b @import url(a.css?v); a \x7b\x7d \x7d").run importing 1 = some s ∧
    s.catalog.sheets[0]? = some h ∧ (s.catalog.sources 0)[0]? = some (origin, rule) ∧
    (s.catalog.collectStyles 0).sheets[0]? = some h' ∧ h'.rules? = some rules ∧ rule' ∈ rules ∧
    rule'.walk[1]? = some n' ∧ n'.importUrl? = some v ∧
    h.location.resolveUrl s.catalog.siteRoot v = .file (.ofText "/site/c/a.css".toList) := by
  have hs : ((importer "@media print \x7b @import url(a.css?v); a \x7b\x7d \x7d").run importing
      1).map (fun s : Session =>
      s.catalog.sheets[0]?.bind fun h : Sheet =>
        (s.catalog.sources 0)[0]?.bind fun e : Sheet × Node => e.2.walk[1]?.map fun n : Node =>
        decide (s.catalog.siteRoot = .ofText "/site".toList ∧
          h.rules?.isSome = true ∧ h.location = .file (.ofText "/site/x.html".toList) ∧
          e.1.location = .file (.ofText "/site/c/y.html".toList) ∧
          n.importUrl? = some "a.css?v".toList ∧ isString n.prelude = false ∧ n.isBlock = false))
      = some (some true) := by decide +kernel
  obtain ⟨s, hrun, hs⟩ := Option.map_eq_some_iff.1 hs
  obtain ⟨h, hh, hs⟩ := Option.bind_eq_some_iff.1 hs
  obtain ⟨⟨origin, rule⟩, hsource, hs⟩ := Option.bind_eq_some_iff.1 hs
  obtain ⟨n, hn, hs⟩ := Option.map_eq_some_iff.1 hs
  obtain ⟨hroot, hrules, hhost, horigin, hu, hstring, hblock⟩ := of_decide_eq_true hs
  obtain ⟨former, hformer⟩ := Option.isSome_iff_exists.1 hrules
  have hproper : origin.location.Proper := by
    rw [horigin]
    exact Path.proper_ofText _
  obtain ⟨h', rules, rule', hh', _, hrules', hrule', _, himport⟩ :=
    collectStyles_import (.run _ _ _ _ _ s hrun) hh hformer hsource hproper
  have hresolve : origin.location.resolveUrl s.catalog.siteRoot "a.css?v".toList
      = .file (.ofText "/site/c/a.css".toList) := by
    rw [horigin, hroot]
    decide
  have hfile : Location.file (.ofText "/site/c/a.css".toList)
      = .file ⟨s.catalog.siteRoot.rooted,
        s.catalog.siteRoot.parts ++ ["c".toList, "a.css".toList].map .text⟩ := by
    rw [hroot]
    decide
  have hplain : (["c".toList, "a.css".toList].all fun t =>
      t.all fun c => Url.isQuery c == false && Segment.isClosing c == false) = true := by decide
  simp only [List.all_eq_true, Bool.and_eq_true, beq_iff_eq] at hplain
  obtain ⟨n', v, hn', hv, htarget⟩ := himport 1 n _ _ hn hu (hresolve.trans hfile)
    (.inr ⟨⟨_, hhost⟩,
      .relative (by decide) (by decide) (by decide) hstring hblock _ rfl hplain⟩)
  exact ⟨s, h, origin, h', rule, rule', n', rules, v, hrun, hh, hsource, hh', hrules',
    List.mem_of_getElem? hrule', hn', hv, htarget.trans hresolve⟩

/-- whether the `@import` of a sheet keeps its target in a move, though the target stands for a file
that was loaded, and at the host for another one -/
def Strays (source target file : String) : Prop :=
  ∃ (s : Session) (h origin : Sheet) (rule rule' : Node),
    (importer source).run importing 1 = some s ∧ .file (.ofText file.toList) ∈ s.reads ∧
    s.catalog.sheets[0]? = some h ∧ h.rules? = some [] ∧
    (s.catalog.sources 0)[0]? = some (origin, rule) ∧
    (s.catalog.collectStyles 0).sheets[0]?.bind Sheet.rules? = some [rule'] ∧
    rule.importUrl? = some target.toList ∧ rule'.importUrl? = some target.toList ∧
    origin.location.resolveUrl s.catalog.siteRoot target.toList = .file (.ofText file.toList) ∧
    h.location.resolveUrl s.catalog.siteRoot target.toList ≠ .file (.ofText file.toList)

theorem strays_of_run {source target file : String}
    (h : ((importer source).run importing 1).map (fun s : Session =>
      s.catalog.sheets[0]?.bind fun h : Sheet =>
        (s.catalog.sources 0)[0]?.bind fun e : Sheet × Node =>
        ((s.catalog.collectStyles 0).sheets[0]?.bind Sheet.rules?).map fun rules =>
        (decide (.file (.ofText file.toList) ∈ s.reads ∧ h.rules?.map List.length = some 0 ∧
          e.2.importUrl? = some target.toList ∧
          e.1.location.resolveUrl s.catalog.siteRoot target.toList = .file (.ofText file.toList) ∧
          h.location.resolveUrl s.catalog.siteRoot target.toList ≠ .file (.ofText file.toList)),
          rules.map Node.importUrl?))
      = some (some (true, [some target.toList]))) : Strays source target file := by
  obtain ⟨s, hrun, hs⟩ := Option.map_eq_some_iff.1 h
  obtain ⟨host, hhost, hs⟩ := Option.bind_eq_some_iff.1 hs
  obtain ⟨⟨origin, rule⟩, hsource, hs⟩ := Option.bind_eq_some_iff.1 hs
  obtain ⟨rules, hrules, hs⟩ := Option.map_eq_some_iff.1 hs
  obtain ⟨hall, hmoved⟩ := Prod.mk.inj hs
  obtain ⟨hread, hformer, hu, horigin, hother⟩ := of_decide_eq_true hall
  obtain ⟨rule', rfl, hv⟩ := List.map_eq_singleton_iff.1 hmoved
  obtain ⟨former, hformer, hlength⟩ := Option.map_eq_some_iff.1 hformer
  obtain rfl := List.length_eq_zero_iff.1 hlength
  exact ⟨s, host, origin, rule, rule', hrun, hread, hhost, hformer, hsource, hrules, hu, hv,
    horigin, hother⟩

/-- a string and a reference in front of declarations are not rewritten, though what they stand for
is loaded; a fragment is not replaced -/
theorem collectStyles_import_string :
    Strays "@import \"a.css\";" "a.css" "/site/c/a.css" ∧
    Strays "@import url(a.css) \x7b b: c \x7d" "a.css" "/site/c/a.css" ∧
    Strays "@import url(#a);" "#a" "/site/c" :=
  ⟨strays_of_run (by decide +kernel), strays_of_run (by decide +kernel),
    strays_of_run (by decide +kernel)⟩

end Catalog

end PageTemplates
