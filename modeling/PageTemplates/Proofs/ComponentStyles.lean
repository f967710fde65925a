import PageTemplates.Proofs.FontFaces
import PageTemplates.Proofs.References

/-!
# Component styles in their host

What `Catalog.collectStyles` does to a loaded catalog.

* `Readdressed`            a rule before and after it has changed its location;
* `Catalog.sources`        the rules that move, by the numbers of their sheets and in document
                           order, each with its sheet;
* `Catalog.StylesMoved`    a catalog before and after the move;
* `collectStyles_moved`    the move, an invalid host, and the move made twice.
-/

namespace PageTemplates

/-- a rule before and after it has moved from `origin` to `target`: as it was, or with nothing but
its references replaced -/
inductive Readdressed (siteRoot : Path) (origin target : Location) : Css.Node → Css.Node → Prop where
  | stayed (rule : Css.Node) (h : origin = target) : Readdressed siteRoot origin target rule rule
  | rebased {rule rule' : Css.Node} (h : origin ≠ target)
      (rewritten : rule.Rewritten (origin.rebase? siteRoot) rule') :
      Readdressed siteRoot origin target rule rule'

theorem readdressed_rebaseRule (siteRoot : Path) (origin target : Location) (rule : Css.Node) :
    Readdressed siteRoot origin target rule (rebaseRule siteRoot origin target rule) := by
  unfold rebaseRule
  split
  · next h => exact .stayed rule h
  · next h => exact .rebased h (Css.Node.rewritten_retarget _ rule)

namespace Sheet
variable {host : SheetId} {s : Sheet}

theorem withoutRules_of_source (hs : s.isSource host = true) (hr : s.rules?.isSome = true) :
    s.withoutRules host = { s with ast := some (.sheet []) } := by
  unfold withoutRules
  rw [hs, hr]
  rfl

theorem withoutRules_of_other (h : (s.isSource host && s.rules?.isSome) = false) :
    s.withoutRules host = s := by
  unfold withoutRules
  rw [h]
  rfl

theorem isSource_host (h : s.id = host) : s.isSource host = false := by
  unfold isSource
  rw [h, bne_self_eq_false, Bool.and_false, Bool.false_and]

end Sheet

namespace Catalog

/-- the rules of the component sheets that are loaded, each with its sheet; the host is none of
these sheets -/
def sources (c : Catalog) (host : SheetId) : List (Sheet × Css.Node) :=
  c.sheets.flatMap fun s => if s.isSource host then (s.rules?.getD []).map fun n => (s, n) else []

/-- the rules that move as they read at `target` -/
def gathered (c : Catalog) (host : SheetId) (target : Location) : List Css.Node :=
  (c.sources host).map fun e => rebaseRule c.siteRoot e.1.location target e.2

/-- the component sheets whose rules cannot move because they hold none -/
def ruleless (c : Catalog) (host : SheetId) : List Sheet :=
  c.sheets.filter fun s => s.isSource host && s.rules?.isNone

/-- the rules of the component sheets of `before` have moved to the sheet `host`: it gains every one
of them behind its own, their sheets hold a stylesheet without rules, any other sheet is as it was,
and a loaded component sheet that holds something else is an error -/
structure StylesMoved (before : Catalog) (host : SheetId) (after : Catalog) : Prop where
  length : after.sheets.length = before.sheets.length
  ordered : (before.sources host).Pairwise fun e e' => e.1.id ≤ e'.1.id
  hosted : ∀ (h : Sheet) (former : List Css.Node), before.sheets[host]? = some h →
    h.rules? = some former → ∃ gained,
      after.sheets[host]? = some { h with ast := some (.sheet (former ++ gained)) } ∧
      List.Forall₂ (fun e n => Readdressed before.siteRoot e.1.location h.location e.2 n)
        (before.sources host) gained
  emptied : ∀ (i : SheetId) (s : Sheet), before.sheets[i]? = some s → s.isSource host = true →
    s.rules?.isSome = true → after.sheets[i]? = some { s with ast := some (.sheet []) }
  kept : ∀ (i : SheetId) (s : Sheet), before.sheets[i]? = some s → i ≠ host →
    (s.isSource host && s.rules?.isSome) = false → after.sheets[i]? = some s
  entries : after.log.entries
    = before.log.entries ++ (before.ruleless host).map fun s => ⟨some s.file, .invalidStyleSource⟩
  errors : after.log.numErrors = before.log.numErrors + (before.ruleless host).length
  others : after = { before with sheets := after.sheets, log := after.log }

theorem sources_ordered {c : Catalog} (numbered : Numbered Sheet.id c.sheets) (host : SheetId) :
    (c.sources host).Pairwise fun e e' => e.1.id ≤ e'.1.id := by
  have hsheet {s : Sheet} {e : Sheet × Css.Node}
      (he : e ∈ if s.isSource host then (s.rules?.getD []).map fun n => (s, n) else []) :
      e.1 = s := by
    split at he
    · obtain ⟨n, _, rfl⟩ := List.mem_map.1 he
      rfl
    · cases he
  have hids : c.sheets.Pairwise fun s s' => s.id < s'.id := by
    have h : (c.sheets.map Sheet.id).Pairwise (· < ·) := by
      rw [numbered.map_eq_range]
      exact List.pairwise_lt_range
    exact List.pairwise_map.1 h
  unfold sources
  apply List.pairwise_flatMap.2
  constructor
  · intro s _
    apply List.pairwise_of_forall_mem_list
    intro e he e' he'
    rw [hsheet he, hsheet he']
  · apply hids.imp
    intro s s' hlt e he e' he'
    rw [hsheet he, hsheet he']
    exact Nat.le_of_lt hlt

theorem gathered_eq (c : Catalog) (host : SheetId) (target : Location) :
    c.sheets.flatMap (Sheet.movedRules c.siteRoot host target) = c.gathered host target := by
  unfold gathered sources
  rw [List.map_flatMap]
  congr 1
  funext s
  unfold Sheet.movedRules
  split
  · rw [List.map_map]
    rfl
  · rfl

section
variable {c : Catalog} {host : SheetId} {h : Sheet}

theorem collectStyles_of_some (hh : c.sheets[host]? = some h) (hr : h.rules?.isSome = true) :
    c.collectStyles host = { c with
      sheets := (c.sheets.map (Sheet.withoutRules host)).modify host
        (Sheet.append (c.gathered host h.location))
      log := (c.reportSheets (fun s => s.isSource host && s.rules?.isNone)
        .invalidStyleSource).log } := by
  have hvalid : ¬h.rules?.isNone = true := by
    rw [Option.isNone_eq_false_iff.2 hr]
    exact Bool.false_ne_true
  unfold collectStyles
  rw [hh]
  dsimp only
  rw [if_neg hvalid, gathered_eq, reportSheets_eq]
  rfl

theorem collectStyles_of_none (hh : c.sheets[host]? = some h) (hr : h.rules? = none) :
    c.collectStyles host = c.report h.file (.invalidHost .componentStyles) := by
  unfold collectStyles
  rw [hh]
  dsimp only
  rw [hr]
  rfl

/-- every sheet but the host is only relieved of its rules -/
theorem getElem?_collectStyles_of_ne (hh : c.sheets[host]? = some h) (hr : h.rules?.isSome = true)
    {i : SheetId} {s : Sheet} (hs : c.sheets[i]? = some s) (hi : i ≠ host) :
    (c.collectStyles host).sheets[i]? = some (s.withoutRules host) := by
  rw [collectStyles_of_some hh hr]
  show ((c.sheets.map _).modify host _)[i]? = _
  rw [List.getElem?_modify, List.getElem?_map, hs]
  exact congrArg some (if_neg (Ne.symm hi))

/-- the host keeps its rules and gains those of the other sheets -/
theorem getElem?_collectStyles_host (sound : c.Sound) (hh : c.sheets[host]? = some h)
    {former : List Css.Node} (hr : h.rules? = some former) :
    (c.collectStyles host).sheets[host]?
      = some { h with ast := some (.sheet (former ++ c.gathered host h.location)) } := by
  have hstay : h.withoutRules host = h := by
    apply Sheet.withoutRules_of_other
    rw [Sheet.isSource_host (sound.sheets host h hh)]
    rfl
  have happend : h.append (c.gathered host h.location)
      = { h with ast := some (.sheet (former ++ c.gathered host h.location)) } := by
    unfold Sheet.append
    rw [Sheet.rules?_eq_some.1 hr]
    rfl
  have hsome : h.rules?.isSome = true := by rw [hr]; rfl
  rw [collectStyles_of_some hh hsome]
  show ((c.sheets.map _).modify host _)[host]? = _
  rw [List.getElem?_modify_eq, List.getElem?_map, hh, Option.map_some, hstay, ← happend]
  rfl

theorem collectStyles_stylesMoved (sound : c.Sound) (hh : c.sheets[host]? = some h)
    (hr : h.rules?.isSome = true) : StylesMoved c host (c.collectStyles host) := by
  have hmoved := collectStyles_of_some hh hr
  have hentries : (c.collectStyles host).log.entries = c.log.entries
      ++ (c.ruleless host).map fun s => ⟨some s.file, .invalidStyleSource⟩ := by
    rw [hmoved]
    exact entries_reportSheets c _ rfl
  refine ⟨?_, sources_ordered sound.sheets host, ?_, ?_, ?_, hentries, ?_, ?_⟩
  · rw [hmoved]
    show ((c.sheets.map _).modify host _).length = _
    rw [List.length_modify, List.length_map]
  · intro h' former hh' hr'
    refine ⟨_, getElem?_collectStyles_host sound hh' hr', ?_⟩
    unfold gathered
    rw [List.forall₂_map_right_iff]
    exact List.forall₂_same.2 fun e _ => readdressed_rebaseRule _ _ _ e.2
  · intro i s hs hsource hrules
    have hi : i ≠ host := by
      rintro rfl
      rw [Sheet.isSource_host (sound.sheets i s hs)] at hsource
      cases hsource
    rw [getElem?_collectStyles_of_ne hh hr hs hi, Sheet.withoutRules_of_source hsource hrules]
  · intro i s hs hi hother
    rw [getElem?_collectStyles_of_ne hh hr hs hi, Sheet.withoutRules_of_other hother]
  · rw [numErrors_of_entries hentries, List.length_map]
    intro e he
    obtain ⟨s, _, rfl⟩ := List.mem_map.1 he
    rfl
  · rw [hmoved]

end

/-! ## the move made twice -/

namespace StylesMoved
variable {a b c : Catalog} {host : SheetId} {h : Sheet}

theorem rules?_host (first : StylesMoved a host b) (hh : a.sheets[host]? = some h)
    (hr : h.rules?.isSome = true) : ∃ h' former, b.sheets[host]? = some h' ∧
      h'.rules? = some former := by
  obtain ⟨former, hformer⟩ := Option.isSome_iff_exists.1 hr
  obtain ⟨gained, hh', _⟩ := first.hosted h former hh hformer
  exact ⟨_, _, hh', rfl⟩

/-- what still could move afterwards holds a stylesheet without rules -/
theorem rules?_source (first : StylesMoved a host b) (sound : b.Sound) {i : SheetId} {s' : Sheet}
    (hs' : b.sheets[i]? = some s') (hsource : s'.isSource host = true) :
    s'.rules? = none ∨ s'.rules? = some [] := by
  have hi : i ≠ host := by
    rintro rfl
    rw [Sheet.isSource_host (sound.sheets i s' hs')] at hsource
    cases hsource
  have hlt : i < a.sheets.length := first.length ▸ (List.getElem?_eq_some_iff.1 hs').1
  have hs : a.sheets[i]? = some a.sheets[i] := List.getElem?_eq_getElem hlt
  cases hmoves : a.sheets[i].isSource host && a.sheets[i].rules?.isSome with
  | true =>
    obtain ⟨hfrom, hrules⟩ := Bool.and_eq_true_iff.1 hmoves
    have he := first.emptied i _ hs hfrom hrules
    rw [hs'] at he
    rw [Option.some.inj he]
    exact .inr rfl
  | false =>
    have he := first.kept i _ hs hi hmoves
    rw [hs'] at he
    rw [← Option.some.inj he, hsource, Bool.true_and, Option.isSome_eq_false_iff,
      Option.isNone_iff_eq_none] at hmoves
    exact .inl hmoves

theorem sources_eq_nil (first : StylesMoved a host b) (sound : b.Sound) : b.sources host = [] := by
  unfold sources
  apply List.flatMap_eq_nil_iff.2
  intro s' hm
  obtain ⟨i, hs'⟩ := List.mem_iff_getElem?.1 hm
  split
  · next hsource =>
    rcases first.rules?_source sound hs' hsource with hr | hr <;>
    · rw [hr]
      rfl
  · rfl

/-- a second move to the same host changes no sheet -/
theorem again (first : StylesMoved a host b) (sound : b.Sound) {h : Sheet} {former : List Css.Node}
    (hh : b.sheets[host]? = some h) (hr : h.rules? = some former)
    (second : StylesMoved b host c) : c.sheets = b.sheets := by
  apply eq_of_getElem? second.length
  intro i s hs
  by_cases hi : i = host
  · subst hi
    obtain ⟨gained, hh', hgained⟩ := second.hosted h former hh hr
    rw [first.sources_eq_nil sound] at hgained
    obtain rfl := List.forall₂_nil_left_iff.1 hgained
    rw [hh', ← hs, hh, List.append_nil, ← Sheet.rules?_eq_some.1 hr]
  · cases hmoves : s.isSource host && s.rules?.isSome with
    | false => exact second.kept i s hs hi hmoves
    | true =>
      obtain ⟨hsource, hrules⟩ := Bool.and_eq_true_iff.1 hmoves
      rw [second.emptied i s hs hsource hrules]
      rcases first.rules?_source sound hs hsource with hnone | hnil
      · rw [hnone] at hrules
        cases hrules
      · rw [← Sheet.rules?_eq_some.1 hnil]

end StylesMoved

/-- **Component styles move to their host.**  In a loaded catalog every rule of every other component
sheet moves behind the rules of a host that holds a stylesheet; any other host is an error and
changes no sheet; and the same move made twice changes no sheet the second time. -/
theorem collectStyles_moved {c : Catalog} (loaded : c.Loaded) {host : SheetId} {h : Sheet}
    (hh : c.sheets[host]? = some h) :
    (h.rules?.isSome = true → StylesMoved c host (c.collectStyles host)) ∧
    (h.rules? = none → (c.collectStyles host).sheets = c.sheets ∧
      (c.collectStyles host).log.entries
        = c.log.entries ++ [⟨some h.file, .invalidHost .componentStyles⟩] ∧
      (c.collectStyles host).log.numErrors = c.log.numErrors + 1) ∧
    ((c.collectStyles host).collectStyles host).sheets = (c.collectStyles host).sheets := by
  have hinvalid (hr : h.rules? = none) : (c.collectStyles host).sheets = c.sheets ∧
      (c.collectStyles host).log.entries
        = c.log.entries ++ [⟨some h.file, .invalidHost .componentStyles⟩] ∧
      (c.collectStyles host).log.numErrors = c.log.numErrors + 1 := by
    rw [collectStyles_of_none hh hr]
    exact report_error rfl c h.file
  refine ⟨collectStyles_stylesMoved loaded.sound hh, hinvalid, ?_⟩
  cases hr : h.rules? with
  | none =>
    have hh' : (c.collectStyles host).sheets[host]? = some h := by
      rw [(hinvalid hr).1]
      exact hh
    rw [collectStyles_of_none hh' hr]
    rfl
  | some former =>
    have first := collectStyles_stylesMoved loaded.sound hh (by rw [hr]; rfl)
    have sound := (loaded.collectStyles c host).sound
    obtain ⟨h', former', hh', hr'⟩ := first.rules?_host hh (by rw [hr]; rfl)
    exact first.again sound hh' hr' (collectStyles_stylesMoved sound hh' (by rw [hr']; rfl))

/-- stylesheets, and a source that is read as a bare rule -/
def layered : Env where
  read _ := .ok []
  parseMarkup _ _ := .ok ⟨[], true⟩
  parseCss _ source := ⟨[], .ok <|
    if source = "bare".toList then .rule "b".toList []
    else if source = "p".toList then .sheet [.rule "p".toList "x".toList, .rule "q".toList []]
    else .sheet [.group "media".toList "print".toList [.rule "r".toList "url(s.png)".toList]]⟩

/-- a host that is a component sheet itself, a sheet without rules, and three sheets of which the
middle one stays -/
def layers : List Call :=
  [.inline "p".toList (.file ⟨true, [.text "a".toList]⟩) true,
    .inline "bare".toList (.file ⟨true, [.text "b".toList]⟩) true,
    .inline "url".toList (.file ⟨true, [.text "c".toList, .text "d".toList]⟩) true,
    .inline "p".toList (.file ⟨true, [.text "b".toList]⟩) false,
    .inline "p".toList (.file ⟨true, [.text "b".toList]⟩) true]

/-- the rules of the last sheet move although the host has rules of the same text -/
theorem collectStyles_moved_layered : ∃ s h,
    (Session.prepared layered ⟨true, []⟩ true layers).run layered 0 = some s ∧
    s.catalog.sheets[0]? = some h ∧ h.rules?.isSome = true ∧
    StylesMoved s.catalog 0 (s.catalog.collectStyles 0) ∧
    (s.catalog.sources 0).map (fun e => (e.1.id, e.2.render))
      = [(2, "@media print \x7b\nr \x7b url(s.png) \x7d\n\x7d".toList),
        (4, "p \x7b x \x7d".toList), (4, "q \x7b\x7d".toList)] ∧
    (s.catalog.ruleless 0).map Sheet.id = [1] ∧
    ((s.catalog.collectStyles 0).collectStyles 0).sheets = (s.catalog.collectStyles 0).sheets := by
  have hs : ((Session.prepared layered ⟨true, []⟩ true layers).run layered 0).map (fun s =>
      s.catalog.sheets[0]?.map fun h => decide (h.rules?.isSome = true ∧
        (s.catalog.sources 0).map (fun e => (e.1.id, e.2.render))
          = [(2, "@media print \x7b\nr \x7b url(s.png) \x7d\n\x7d".toList),
            (4, "p \x7b x \x7d".toList), (4, "q \x7b\x7d".toList)] ∧
        (s.catalog.ruleless 0).map Sheet.id = [1]))
      = some (some true) := by decide
  obtain ⟨s, hrun, hs⟩ := Option.map_eq_some_iff.1 hs
  obtain ⟨h, hh, hs⟩ := Option.map_eq_some_iff.1 hs
  obtain ⟨hrules, hsources, hruleless⟩ := of_decide_eq_true hs
  obtain ⟨hmoved, _, hagain⟩ := collectStyles_moved (.run _ _ _ _ _ s hrun) hh
  exact ⟨s, h, hrun, hh, hrules, hmoved hrules, hsources, hruleless, hagain⟩

end Catalog

end PageTemplates
