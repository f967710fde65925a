import PageTemplates.Proofs.Extraction
import PageTemplates.Proofs.Sound

/-!
# Font faces in their host

What `Catalog.collectFonts` does to a loaded catalog, said by places and not by the functions that
do it.

* `firstsByText`          the nodes whose text no node before them has;
* `Sheet.faces`           the outermost font faces of a loaded stylesheet, in document order;
* `Catalog.faces`         those of all sheets, each with its urls rebased;
* `Sheet.Relieved`        a sheet with its font faces taken out and rules put at its end;
* `Catalog.FontsMoved`    a catalog before and after the move;
* `collectFonts_moved`    the move, an invalid host, and the move made twice.
-/

namespace PageTemplates

/-! ## the first of each text -/

/-- the nodes whose text no node before them has -/
def firstsByText (ns : List Css.Node) : List Css.Node :=
  (ns.zipIdx.filter fun e => !((ns.take e.2).map Css.Node.render).contains e.1.render).map Prod.fst

theorem firstsByText_concat (ns : List Css.Node) (n : Css.Node) :
    firstsByText (ns ++ [n])
      = firstsByText ns ++ if n.render ∈ ns.map Css.Node.render then [] else [n] := by
  unfold firstsByText
  rw [List.zipIdx_append, List.filter_append, List.map_append, Nat.zero_add]
  have hbefore (e : Css.Node × Nat) (he : e ∈ ns.zipIdx) :
      (!(((ns ++ [n]).take e.2).map Css.Node.render).contains e.1.render)
        = !((ns.take e.2).map Css.Node.render).contains e.1.render := by
    have hlt : e.2 < ns.length := List.snd_lt_of_mem_zipIdx he
    rw [List.take_append_of_le_length (Nat.le_of_lt hlt)]
  rw [List.filter_congr hbefore, List.zipIdx_singleton, List.filter_singleton]
  congr 1
  show List.map _ (bif !(((ns ++ [n]).take ns.length).map _).contains n.render then _ else _) = _
  rw [List.take_left]
  by_cases h : n.render ∈ ns.map Css.Node.render
  · rw [if_pos h, List.contains_iff_mem.2 h]
    rfl
  · have hno : (ns.map Css.Node.render).contains n.render = false :=
      Bool.eq_false_iff.2 fun hc => h (List.contains_iff_mem.1 hc)
    rw [if_neg h, hno]
    rfl

theorem firstsByText_sublist (ns : List Css.Node) : (firstsByText ns).Sublist ns := by
  have h := (List.filter_sublist (l := ns.zipIdx)
    (p := fun e => !((ns.take e.2).map Css.Node.render).contains e.1.render)).map Prod.fst
  rw [List.zipIdx_map_fst] at h
  exact h

theorem nodup_firstsByText (ns : List Css.Node) :
    ((firstsByText ns).map Css.Node.render).Nodup := by
  induction ns using List.reverseRecOn with
  | nil => exact List.nodup_nil
  | append_singleton ns n ih =>
    rw [firstsByText_concat, List.map_append]
    by_cases h : n.render ∈ ns.map Css.Node.render
    · rw [if_pos h, List.map_nil, List.append_nil]
      exact ih
    · rw [if_neg h]
      apply List.nodup_append.2
      refine ⟨ih, List.nodup_singleton _, ?_⟩
      intro a ha b hb hab
      obtain rfl := List.mem_singleton.1 hb
      exact h (((firstsByText_sublist ns).map _).subset (hab ▸ ha))

/-- every text stays, with the first node that has it -/
theorem exists_mem_firstsByText {n : Css.Node} {ns : List Css.Node} (h : n ∈ ns) :
    ∃ m ∈ firstsByText ns, m.render = n.render := by
  induction ns using List.reverseRecOn generalizing n with
  | nil => cases h
  | append_singleton ns k ih =>
    have hold {n : Css.Node} (h : n ∈ ns) :
        ∃ m ∈ firstsByText (ns ++ [k]), m.render = n.render := by
      obtain ⟨m, hm, htext⟩ := ih h
      rw [firstsByText_concat]
      exact ⟨m, List.mem_append_left _ hm, htext⟩
    rcases List.mem_append.1 h with h | h
    · exact hold h
    · obtain rfl := List.mem_singleton.1 h
      by_cases hseen : n.render ∈ ns.map Css.Node.render
      · obtain ⟨k, hk, htext⟩ := List.mem_map.1 hseen
        obtain ⟨m, hm, htext'⟩ := hold hk
        exact ⟨m, hm, htext'.trans htext⟩
      · rw [firstsByText_concat, if_neg hseen]
        exact ⟨n, List.mem_append_right _ List.mem_cons_self, rfl⟩

theorem firstsByText_of_nodup {ns : List Css.Node} (h : (ns.map Css.Node.render).Nodup) :
    firstsByText ns = ns := by
  induction ns using List.reverseRecOn with
  | nil => rfl
  | append_singleton ns n ih =>
    rw [List.map_append, List.nodup_append] at h
    obtain ⟨hns, _, hne⟩ := h
    have hnew : n.render ∉ ns.map Css.Node.render := by
      intro hm
      exact hne _ hm n.render (List.mem_singleton.2 rfl) rfl
    rw [firstsByText_concat, ih hns, if_neg hnew]

theorem firstOfEachText_of_mem {seen : List Text} {n : Css.Node} (h : n.render ∈ seen)
    (ns : List Css.Node) : firstOfEachText seen (n :: ns) = firstOfEachText seen ns := if_pos h

theorem firstOfEachText_of_not_mem {seen : List Text} {n : Css.Node} (h : n.render ∉ seen)
    (ns : List Css.Node) :
    firstOfEachText seen (n :: ns) = n :: firstOfEachText (n.render :: seen) ns := if_neg h

theorem firstOfEachText_concat (seen : List Text) (ns : List Css.Node) (n : Css.Node) :
    firstOfEachText seen (ns ++ [n]) = firstOfEachText seen ns
      ++ if n.render ∈ seen ++ ns.map Css.Node.render then [] else [n] := by
  induction ns generalizing seen with
  | nil =>
    rw [List.map_nil, List.append_nil]
    rfl
  | cons m ns ih =>
    have hmiddle : n.render ∈ m.render :: (seen ++ ns.map Css.Node.render)
        ↔ n.render ∈ seen ++ (m :: ns).map Css.Node.render := List.perm_middle.symm.mem_iff
    by_cases h : m.render ∈ seen
    · have hseen : n.render ∈ seen ++ ns.map Css.Node.render
          ↔ n.render ∈ seen ++ (m :: ns).map Css.Node.render := by
        rw [← hmiddle, List.mem_cons]
        apply (or_iff_right_of_imp _).symm
        intro he
        exact List.mem_append_left _ (he ▸ h)
      rw [List.cons_append, firstOfEachText_of_mem h, firstOfEachText_of_mem h, ih]
      simp only [hseen]
    · rw [List.cons_append, firstOfEachText_of_not_mem h, firstOfEachText_of_not_mem h, ih]
      simp only [List.cons_append, hmiddle]

theorem firstOfEachText_eq (ns : List Css.Node) : firstOfEachText [] ns = firstsByText ns := by
  induction ns using List.reverseRecOn with
  | nil => rfl
  | append_singleton ns n ih =>
    rw [firstOfEachText_concat, firstsByText_concat, ih, List.nil_append]

/-! ## font faces -/

theorem isFontFace_own (n : Css.Node) : isFontFace n.own = isFontFace n := by
  cases n <;> rfl

theorem isFontFace_retarget (f : Text → Option Text) (n : Css.Node) :
    isFontFace (n.retarget f) = isFontFace n := by
  cases n <;> rfl

/-- whether no font face stands on a path -/
def isClear (path : List Css.Node) : Bool := !path.any isFontFace

theorem isFontFace_rebaseRule (siteRoot : Path) (origin target : Location) (n : Css.Node) :
    isFontFace (rebaseRule siteRoot origin target n) = isFontFace n := by
  unfold rebaseRule
  split
  · rfl
  · exact isFontFace_retarget _ n

namespace Sheet

theorem rules?_eq_some {s : Sheet} {rules : List Css.Node} :
    s.rules? = some rules ↔ s.ast = some (.sheet rules) := by
  unfold rules?
  constructor
  · intro h
    obtain ⟨n, hn, hr⟩ := Option.bind_eq_some_iff.1 h
    cases n with
    | sheet rules' =>
      cases hr
      exact hn
    | _ => cases hr
  · intro h
    rw [h]
    rfl

/-- the outermost font faces of a loaded stylesheet, in document order -/
def faces (s : Sheet) : List Css.Node :=
  if s.isLoaded then
    ((Css.Node.placesList (s.rules?.getD [])).filter (Css.Place.isOutermost isFontFace)).map
      Css.Place.node
  else []

theorem isFontFace_of_mem_faces {s : Sheet} {n : Css.Node} (h : n ∈ s.faces) :
    isFontFace n = true := by
  unfold faces at h
  split at h
  · obtain ⟨e, he, rfl⟩ := List.mem_map.1 h
    exact (Bool.and_eq_true_iff.1 (List.mem_filter.1 he).2).1
  · cases h

theorem fontFaces_eq (siteRoot : Path) (target : Location) (s : Sheet) :
    s.fontFaces siteRoot target = s.faces.map (rebaseRule siteRoot s.location target) := by
  unfold fontFaces faces
  cases hl : s.isLoaded with
  | false => rfl
  | true =>
    cases hr : s.rules? with
    | none => rfl
    | some rules =>
      show List.map _ (s.ast.toList.flatMap (Css.Node.found isFontFace)) = List.map _ _
      rw [rules?_eq_some.1 hr, Option.toList_some, List.flatMap_singleton, Css.Node.found,
        Css.Node.found_eq isFontFace_own]
      rfl

theorem withoutFontFaces_of_none {s : Sheet} (h : s.rules? = none) : s.withoutFontFaces = s := by
  unfold withoutFontFaces
  rw [h, Option.isSome_none, Bool.and_false]
  rfl

theorem withoutFontFaces_of_some {s : Sheet} {rules : List Css.Node} (hl : s.isLoaded = true)
    (h : s.rules? = some rules) :
    s.withoutFontFaces
      = { s with ast := some (.sheet (Css.Node.prunedList isFontFace rules)) } := by
  unfold withoutFontFaces
  rw [h, hl, rules?_eq_some.1 h]
  rfl

/-- what becomes of a sheet: rules lose their font faces, with all that stands in them, and gain
`more`; every other rule keeps its path and its order; a sheet without rules is unchanged -/
inductive Relieved (more : List Css.Node) (s : Sheet) : Sheet → Prop where
  | unchanged (h : s.rules? = none) : Relieved more s s
  | relieved (rules rest : List Css.Node) (loaded : s.isLoaded = true) (h : s.rules? = some rules)
      (kept : Css.Node.paths rest = (Css.Node.paths rules).filter isClear) :
      Relieved more s { s with ast := some (.sheet (rest ++ more)) }

namespace Relieved
variable {more : List Css.Node} {s s' s'' : Sheet}

theorem withoutFontFaces (hs : s.Stated) : s.Relieved [] s.withoutFontFaces := by
  cases hr : s.rules? with
  | none =>
    rw [withoutFontFaces_of_none hr]
    exact .unchanged hr
  | some rules =>
    have hloaded : s.isLoaded = true := by
      apply decide_eq_true
      apply hs.2
      rw [rules?_eq_some.1 hr]
      rfl
    rw [withoutFontFaces_of_some hloaded hr, ← List.append_nil (Css.Node.prunedList _ _)]
    exact .relieved rules _ hloaded hr (Css.Node.paths_pruned isFontFace_own rules)

theorem append (h : s.Relieved [] s') (more : List Css.Node) (hr : s.rules?.isSome = true) :
    s.Relieved more (s'.append more) := by
  cases h with
  | unchanged h =>
    rw [h] at hr
    cases hr
  | relieved rules rest loaded h kept =>
    have happend : Sheet.append more { s with ast := some (.sheet (rest ++ [])) }
        = { s with ast := some (.sheet (rest ++ more)) } := by
      rw [List.append_nil]
      rfl
    rw [happend]
    exact .relieved rules rest loaded h kept

theorem any_eq_false {rules rest : List Css.Node}
    (h : Css.Node.paths rest = (Css.Node.paths rules).filter isClear) :
    ∀ path ∈ Css.Node.paths rest, path.any isFontFace = false := by
  intro path hpath
  rw [h] at hpath
  have hclear : (!path.any isFontFace) = true := (List.mem_filter.1 hpath).2
  rw [Bool.not_eq_true'] at hclear
  exact hclear

/-- a second time changes nothing -/
theorem again (h : s.Relieved more s') (hmore : ∀ n ∈ more, isFontFace n = true)
    (h' : s'.Relieved more s'') : s'' = s' := by
  cases h with
  | unchanged h =>
    cases h' with
    | unchanged => rfl
    | relieved rules rest loaded h' kept =>
      rw [h] at h'
      cases h'
  | relieved rules rest loaded h kept =>
    cases h' with
    | unchanged => rfl
    | relieved rules' rest' loaded' h' kept' =>
      obtain rfl : rest ++ more = rules' := Option.some.inj h'
      have hmoved : (Css.Node.paths more).filter isClear = [] :=
        Css.Node.filter_paths_eq_nil isFontFace_own hmore
      have hstay : (Css.Node.paths rest).filter isClear = Css.Node.paths rest := by
        rw [kept, List.filter_filter]
        simp only [Bool.and_self]
      rw [Css.Node.paths_append, List.filter_append, hmoved, hstay, List.append_nil] at kept'
      rw [Css.Node.eq_of_paths_eq kept']

end Relieved

end Sheet

namespace Catalog

/-- the font faces of all sheets in their order, as they read at `target` -/
def faces (c : Catalog) (target : Location) : List Css.Node :=
  c.sheets.flatMap fun s => s.faces.map (rebaseRule c.siteRoot s.location target)

theorem isFontFace_of_mem_faces {c : Catalog} {target : Location} {n : Css.Node}
    (h : n ∈ c.faces target) : isFontFace n = true := by
  obtain ⟨s, _, h⟩ := List.mem_flatMap.1 h
  obtain ⟨m, hm, rfl⟩ := List.mem_map.1 h
  rw [isFontFace_rebaseRule]
  exact Sheet.isFontFace_of_mem_faces hm

/-- the rules that the sheet with a number gains -/
def gain (c : Catalog) (host : SheetId) (target : Location) (i : SheetId) : List Css.Node :=
  if i = host then firstsByText (c.faces target) else []

theorem isFontFace_of_mem_gain {c : Catalog} {host : SheetId} {target : Location} {i : SheetId}
    {n : Css.Node} (h : n ∈ c.gain host target i) : isFontFace n = true := by
  unfold gain at h
  split at h
  · exact isFontFace_of_mem_faces ((firstsByText_sublist _).subset h)
  · cases h

/-- the loaded sheets that hold no stylesheet -/
def shapeless (c : Catalog) : List Sheet := c.sheets.filter fun s => s.isLoaded && s.rules?.isNone

/-- the font faces of `before` have moved to the sheet `host` at `target`: every sheet is relieved
of them, the host gains the first of each text, and a loaded sheet without rules is an error -/
structure FontsMoved (before : Catalog) (host : SheetId) (target : Location) (after : Catalog) :
    Prop where
  length : after.sheets.length = before.sheets.length
  relieved : ∀ (i : SheetId) (s : Sheet), before.sheets[i]? = some s →
    ∃ s', after.sheets[i]? = some s' ∧ s.Relieved (before.gain host target i) s'
  failed : ∀ (i : SheetId) (s : Sheet), before.sheets[i]? = some s → s.status = .failed →
    after.sheets[i]? = some s
  below : ∀ (i : SheetId) (s : Sheet) (rules : List Css.Node), after.sheets[i]? = some s →
    s.rules? = some rules → ∀ n ∈ Css.Node.walkList rules, isFontFace n = true →
      i = host ∧ ∃ face ∈ rules, isFontFace face = true ∧ n ∈ face.walk
  entries : after.log.entries
    = before.log.entries ++ before.shapeless.map fun s => ⟨some s.file, .invalidFontSource⟩
  errors : after.log.numErrors = before.log.numErrors + before.shapeless.length
  others : after = { before with sheets := after.sheets, log := after.log }

theorem numErrors_of_entries {log log' : Log} {es : List Entry}
    (h : log'.entries = log.entries ++ es) (hes : ∀ e ∈ es, e.severity = .error) :
    log'.numErrors = log.numErrors + es.length := by
  have hall : es.filter (fun e => e.severity = .error) = es := by
    apply List.filter_eq_self.2
    intro e he
    exact decide_eq_true (hes e he)
  unfold Log.numErrors Log.withSeverity
  rw [h, List.filter_append, hall, List.length_append]

/-- a single error changes nothing but the log -/
theorem report_error {problem : Problem} (h : problem.severity = .error) (c : Catalog)
    (file : Text) : (c.report file problem).sheets = c.sheets ∧
      (c.report file problem).log.entries = c.log.entries ++ [⟨some file, problem⟩] ∧
      (c.report file problem).log.numErrors = c.log.numErrors + 1 := by
  have hentries : (c.report file problem).log.entries
      = c.log.entries ++ [⟨some file, problem⟩] :=
    congrArg Log.entries (report_of_error h c.log (some file))
  exact ⟨rfl, hentries, numErrors_of_entries hentries (List.forall_mem_singleton.2 h)⟩

theorem collectFonts_of_some {c : Catalog} {host : SheetId} {h : Sheet}
    (hh : c.sheets[host]? = some h) (hr : h.rules?.isSome = true) :
    c.collectFonts host = { c with
      sheets := (c.sheets.map Sheet.withoutFontFaces).modify host
        (Sheet.append (firstsByText (c.faces h.location)))
      log := (c.reportSheets (fun s => s.isLoaded && s.rules?.isNone)
        .invalidFontSource).log } := by
  have hvalid : ¬h.rules?.isNone = true := by
    rw [Option.isNone_eq_false_iff.2 hr]
    exact Bool.false_ne_true
  have hfaces : c.sheets.flatMap (Sheet.fontFaces c.siteRoot h.location) = c.faces h.location := by
    unfold faces
    congr 1
    funext s
    exact Sheet.fontFaces_eq c.siteRoot h.location s
  unfold collectFonts
  rw [hh]
  dsimp only
  rw [if_neg hvalid, hfaces, firstOfEachText_eq, reportSheets_eq]
  rfl

section
variable {c : Catalog} {host : SheetId} {h : Sheet}

theorem collectFonts_relieved (sound : c.Sound) (hh : c.sheets[host]? = some h)
    (hr : h.rules?.isSome = true) (i : SheetId) (s : Sheet) (hs : c.sheets[i]? = some s) :
    ∃ s', (c.collectFonts host).sheets[i]? = some s' ∧
      s.Relieved (c.gain host h.location i) s' := by
  have hfree := Sheet.Relieved.withoutFontFaces (sound.stated s (List.mem_of_getElem? hs))
  rw [collectFonts_of_some hh hr]
  show ∃ s', ((c.sheets.map _).modify host _)[i]? = some s' ∧ _
  rw [List.getElem?_modify, List.getElem?_map, hs]
  refine ⟨_, rfl, ?_⟩
  show s.Relieved _ (if host = i then _ else _)
  by_cases hi : host = i
  · subst hi
    have hsame : h = s := Option.some.inj (hh.symm.trans hs)
    rw [if_pos rfl, gain, if_pos rfl]
    exact hfree.append _ (hsame ▸ hr)
  · rw [if_neg hi, gain, if_neg (Ne.symm hi)]
    exact hfree

end

/-! ## the move made twice -/

namespace FontsMoved
variable {a b c : Catalog} {host : SheetId} {target : Location}

/-- a second move to the same host changes no sheet -/
theorem again (first : FontsMoved a host target b) (second : FontsMoved b host target c)
    (hfaces : b.faces target = firstsByText (a.faces target)) : c.sheets = b.sheets := by
  have hgain (i : SheetId) : b.gain host target i = a.gain host target i := by
    unfold gain
    rw [hfaces, firstsByText_of_nodup (nodup_firstsByText _)]
  apply eq_of_getElem? second.length
  intro i s' hs'
  obtain ⟨s, _, hrel⟩ := getElem?_origin first.length first.relieved hs'
  obtain ⟨s'', hs'', hrel'⟩ := second.relieved i s' hs'
  rw [hgain] at hrel'
  rw [hs'', hrel.again (fun n => isFontFace_of_mem_gain) hrel']

end FontsMoved

end Catalog

end PageTemplates
