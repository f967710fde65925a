import PageTemplates.Proofs.CompiledNodes
import PageTemplates.Proofs.ComponentStyles
import PageTemplates.Proofs.Hosting
import PageTemplates.Proofs.Integrity
import PageTemplates.Proofs.Programs

/-!
# What hosts show

The rules that a host has taken in are text of some compiled `style`, as long as its own `style`
element stands in a body.  An element outside of all others stands in none; a host there only takes
rules out of the other sheets.

* `Catalog.intake`          the rules that a host takes in, as they read there;
* `Catalog.rules_collect`   they are in the host when everything has been moved;
* `Catalog.styled_compileBodies`   what the sheet of a style in a body comes to;
* `Compiler.compile_hosts`  the hosts of a compiled project.
-/

namespace PageTemplates

/-! ## texts -/

namespace Text

theorem infix_joinWith (sep : Text) {parts : List Text} {s : Text} (h : s ∈ parts) :
    s <:+: joinWith sep parts := by
  induction parts with
  | nil => cases h
  | cons t rest ih =>
    cases rest with
    | nil => exact (List.mem_singleton.1 h).symm ▸ List.infix_refl _
    | cons u rest =>
      rw [joinWith_cons_cons]
      rcases List.mem_cons.1 h with rfl | h
      · exact ⟨[], sep ++ joinWith sep (u :: rest), by rw [List.nil_append, List.append_assoc]⟩
      · exact (ih h).trans (List.suffix_append _ _).isInfix

theorem isBlank_of_infix {s t : Text} (h : s <:+: t) (ht : t.isBlank = true) :
    s.isBlank = true :=
  List.all_eq_true.2 fun c hc => List.all_eq_true.1 ht c (h.subset hc)

end Text

namespace Css.Node

theorem renderList_eq_map (rules : List Node) : renderList rules = rules.map render := by
  induction rules with
  | nil => rfl
  | cons n ns ih => rw [renderList, ih, List.map_cons]

/-- a rule is written as it is into the text of its sheet -/
theorem infix_render_sheet {n : Node} {rules : List Node} (h : n ∈ rules) :
    n.render <:+: (sheet rules).render := by
  rw [render, renderList_eq_map]
  exact Text.infix_joinWith _ (List.mem_map_of_mem h)

end Css.Node

/-! ## rules that have moved -/

namespace Catalog

/-- the host of a kind -/
def host? (c : Catalog) (h : Host) : Option SheetId := c.templates.findSome? (·.host? h)

/-- the catalog with the font faces in their host -/
def withFonts (c : Catalog) : Catalog := (c.host? .inlineFonts).elim c c.collectFonts

/-- the rules for a host, if it holds a stylesheet -/
def forHost (c : Catalog) (host : SheetId) (rules : Location → List Css.Node) : List Css.Node :=
  match c.sheets[host]? with
  | none => []
  | some s => if s.rules?.isSome then rules s.location else []

/-- the rules that a host takes in, as they read there -/
def intake (c : Catalog) (host : SheetId) : Host → List Css.Node
  | .inlineFonts => c.forHost host c.faces
  | .componentStyles => c.withFonts.forHost host (c.withFonts.gathered host)

theorem mem_forHost {c : Catalog} {host : SheetId} {rules : Location → List Css.Node}
    {rule : Css.Node} (h : rule ∈ c.forHost host rules) :
    ∃ s former, c.sheets[host]? = some s ∧ s.rules? = some former ∧ rule ∈ rules s.location := by
  unfold forHost at h
  split at h
  · cases h
  · next s hs =>
    split at h
    · next hr =>
      obtain ⟨former, hformer⟩ := Option.isSome_iff_exists.1 hr
      exact ⟨s, former, hs, hformer, h⟩
    · cases h

variable {c : Catalog}

theorem collect_eq (c : Catalog) :
    c.collect = (c.host? .componentStyles).elim c.withFonts c.withFonts.collectStyles := rfl

theorem Loaded.withFonts (h : c.Loaded) : c.withFonts.Loaded := by
  unfold Catalog.withFonts
  cases c.host? .inlineFonts with
  | none => exact h
  | some host => exact h.collectFonts c host

theorem components_collectFonts (c : Catalog) (host : SheetId) :
    (c.collectFonts host).components = c.components := by
  unfold collectFonts
  split
  · rfl
  · split
    · rfl
    · rw [reportSheets_eq]
      rfl

theorem components_collectStyles (c : Catalog) (host : SheetId) :
    (c.collectStyles host).components = c.components := by
  unfold collectStyles
  split
  · rfl
  · split
    · rfl
    · rw [reportSheets_eq]
      rfl

theorem components_collect (c : Catalog) : c.collect.components = c.components := by
  have hfonts : c.withFonts.components = c.components := by
    unfold withFonts
    cases c.host? .inlineFonts with
    | none => rfl
    | some host => exact components_collectFonts c host
  rw [collect_eq]
  cases c.host? .componentStyles with
  | none => exact hfonts
  | some host => exact (components_collectStyles _ host).trans hfonts

/-- a sheet of the page keeps its rules when those of the component sheets move -/
theorem rules_collectStyles (sound : c.Sound) {i : SheetId} {s : Sheet} {rules : List Css.Node}
    (hs : c.sheets[i]? = some s) (hpage : s.fromComponent = false) (hr : s.rules? = some rules)
    (host : SheetId) : ∃ more, (c.collectStyles host).sheets[i]?.bind Sheet.ast
      = some (.sheet (rules ++ more)) := by
  have hkept : c.sheets[i]?.bind Sheet.ast = some (.sheet (rules ++ [])) := by
    rw [hs, List.append_nil]
    exact Sheet.rules?_eq_some.1 hr
  cases hh : c.sheets[host]? with
  | none =>
    have hsame : c.collectStyles host = c := by
      unfold collectStyles
      rw [hh]
    rw [hsame]
    exact ⟨[], hkept⟩
  | some h =>
    cases hformer : h.rules? with
    | none =>
      rw [collectStyles_of_none hh hformer]
      exact ⟨[], hkept⟩
    | some former =>
      by_cases hi : i = host
      · subst hi
        obtain rfl := Option.some.inj (hs.symm.trans hh)
        obtain rfl := Option.some.inj (hr.symm.trans hformer)
        rw [getElem?_collectStyles_host sound hs hr]
        exact ⟨_, rfl⟩
      · have hstay : s.withoutRules host = s := by
          apply Sheet.withoutRules_of_other
          rw [Sheet.isSource, hpage]
          rfl
        rw [getElem?_collectStyles_of_ne hh (by rw [hformer]; rfl) hs hi, hstay, ← hs]
        exact ⟨[], hkept⟩

/-- what a host has taken in is in it when everything has been moved -/
theorem rules_collect (loaded : c.Loaded) {h : Host} {host : SheetId}
    (hhost : c.host? h = some host)
    (hpage : ∀ s, c.sheets[host]? = some s → s.fromComponent = false) {rule : Css.Node}
    (hrule : rule ∈ c.intake host h) :
    ∃ rules, c.collect.sheets[host]?.bind Sheet.ast = some (.sheet rules) ∧
      rule.render ∈ rules.map Css.Node.render := by
  rw [collect_eq]
  cases h with
  | inlineFonts =>
    obtain ⟨s, former, hs, hformer, hrule⟩ := mem_forHost hrule
    have hfonts : c.withFonts = c.collectFonts host := by
      unfold withFonts
      rw [hhost]
      rfl
    obtain ⟨s', hs', hrelieved⟩ :=
      collectFonts_relieved loaded.sound hs (by rw [hformer]; rfl) host s hs
    rw [← hfonts] at hs'
    cases hrelieved with
    | unchanged hnone =>
      rw [hnone] at hformer
      cases hformer
    | relieved rules rest =>
      -- of font faces with equal text the first one is there
      obtain ⟨m, hm, htext⟩ := exists_mem_firstsByText hrule
      have hgain : rule.render ∈ (rest ++ c.gain host s.location host).map Css.Node.render := by
        rw [gain, if_pos rfl, ← htext]
        exact List.mem_map_of_mem (List.mem_append_right _ hm)
      cases c.host? .componentStyles with
      | none =>
        refine ⟨_, ?_, hgain⟩
        show c.withFonts.sheets[host]?.bind Sheet.ast = _
        rw [hs']
        rfl
      | some other =>
        obtain ⟨more, hmore⟩ :=
          rules_collectStyles loaded.withFonts.sound hs' (hpage s hs) rfl other
        refine ⟨_, hmore, ?_⟩
        rw [List.map_append]
        exact List.mem_append_left _ hgain
  | componentStyles =>
    obtain ⟨s, former, hs, hformer, hrule⟩ := mem_forHost hrule
    rw [hhost]
    refine ⟨former ++ c.withFonts.gathered host s.location, ?_,
      List.mem_map_of_mem (List.mem_append_right _ hrule)⟩
    show (c.withFonts.collectStyles host).sheets[host]?.bind Sheet.ast = _
    rw [getElem?_collectStyles_host loaded.withFonts.sound hs hformer]
    rfl

/-! ## compiled styles -/

/-- the text of a sheet is in the nodes of every component whose body holds a style with it -/
theorem styled_compileBodies (h : c.Sound) {d : Component} (hd : d ∈ c.components) {id : SheetId}
    (hid : id ∈ BodyNode.stylesOf d.body) :
    ∃ d' ∈ c.compileBodies.components, d'.body = d.body ∧
      ∀ ast, c.sheets[id]?.bind Sheet.ast = some ast → Text.isBlank ast.render = false →
        OutputNode.Styled d'.nodes ast.render := by
  obtain ⟨t, ht, hdt⟩ := List.mem_flatMap.1 ((mem_schedule h d).2 hd)
  have hfinished := finished_of_declared h (List.mem_filter.1 ht).1 hdt
  refine ⟨c.finished d, ?_, ?_, fun ast hast hblank => ?_⟩
  · rw [compileBodies_eq h]
    exact List.mem_map_of_mem hd
  · rw [hfinished]
  · rw [hfinished]
    exact Scope.styled_compile d.body hid hast hblank

end Catalog

namespace Compiler

/-- **Hosts show what they take in.**  In a compiled project a host stands in the body of some
component, unless its `style` element stands outside of all others in the entry template.  Whatever
rules it takes in, every one of them with any text is written into a `style` tag of that component.
-/
theorem compile_hosts {c : Compiler} {fuel : Nat} {entry : Path} {r : Compilation}
    (hcompile : c.compile fuel entry = some r) :
    ∃ s, c.load fuel entry = some s ∧ r = c.finish s ∧
      ∀ h host, s.catalog.host? h = some host → host ∉ c.looseSheets entry →
        ∃ d ∈ r.program.components, host ∈ BodyNode.stylesOf d.body ∧
          ∀ rule ∈ s.catalog.intake host h, Text.isBlank rule.render = false →
            ∃ css, OutputNode.Styled d.nodes css ∧ rule.render <:+: css := by
  obtain ⟨s, hload, rfl⟩ := Option.map_eq_some_iff.1 hcompile
  refine ⟨s, hload, rfl, fun h host hhost hloose => ?_⟩
  have hloaded : s.catalog.Loaded :=
    .run c.env c.siteRoot c.lints [.main (.ofPath entry)] fuel s hload
  obtain ⟨t, ht, hrecorded⟩ := List.exists_of_findSome?_eq_some hhost
  obtain ⟨body, hbody, hstyle⟩ := (load_hosts hload ⟨t, ht, hrecorded⟩).resolve_left hloose
  obtain ⟨d, hd, rfl⟩ := List.mem_map.1 hbody
  obtain ⟨d', hd', hsame, hstyled⟩ := Catalog.styled_compileBodies hloaded.collect.sound
    ((Catalog.components_collect s.catalog).symm ▸ hd) hstyle
  rw [c.components_finish s]
  refine ⟨d', hd', hsame ▸ hstyle, fun rule hrule hblank => ?_⟩
  have hpage (sheet : Sheet) (hsheet : s.catalog.sheets[host]? = some sheet) :
      sheet.fromComponent = false := by
    obtain ⟨_, sheet', hsheet', hpage⟩ := (Session.run_integral c.env c.siteRoot c.lints
      [.main (.ofPath entry)] fuel s hload).hosts t ht h host hrecorded
    rwa [Option.some.inj (hsheet.symm.trans hsheet')]
  obtain ⟨rules, hast, hmem⟩ := Catalog.rules_collect hloaded hhost hpage hrule
  obtain ⟨n, hn, htext⟩ := List.mem_map.1 hmem
  have hinfix : rule.render <:+: (Css.Node.sheet rules).render :=
    htext ▸ Css.Node.infix_render_sheet hn
  refine ⟨_, hstyled _ hast ?_, hinfix⟩
  by_contra hno
  rw [Text.isBlank_of_infix hinfix (eq_true_of_ne_false hno)] at hblank
  cases hblank

/-- a page with a font face in every style that is not empty -/
def lettered (page : List Html.Node) : Compiler where
  env := {
    read _ := .ok []
    parseMarkup _ _ := .ok ⟨page, true⟩
    parseCss _ source := ⟨[], .ok <| .sheet <|
      if source = [] then [] else [.block "font-face".toList [] source]⟩ }
  parseData _ := .error []
  siteRoot := ⟨true, []⟩
  lints := true

def fontHost : Html.Node := .element "style".toList (.ofList [("inline-fonts".toList, [])]) []

def fontStyle : Html.Node := .element "style".toList .empty [.text ⟨"a".toList, false⟩]

/-- the host behind the style -/
def within : Compiler := lettered [.element "html".toList .empty [fontStyle, fontHost]]

/-- the host beside the page -/
def beside : Compiler := lettered [fontHost, .element "html".toList .empty [fontStyle]]

/-- a host in `html` shows the font face that it has taken in -/
theorem compile_hosts_within : ∃ r, within.compile 1 ⟨true, [.text "p".toList]⟩ = some r ∧
    ∃ d ∈ r.program.components, 1 ∈ BodyNode.stylesOf d.body ∧
      ∃ css, OutputNode.Styled d.nodes css ∧ "@font-face \x7b a \x7d".toList <:+: css := by
  have hs : (within.load 1 ⟨true, [.text "p".toList]⟩).map (fun s => (s.catalog.host? .inlineFonts,
        (s.catalog.intake 1 .inlineFonts).map Css.Node.render))
      = some (some 1, ["@font-face \x7b a \x7d".toList]) := by decide
  obtain ⟨s, hload, hs⟩ := Option.map_eq_some_iff.1 hs
  obtain ⟨hhost, hintake⟩ := Prod.mk.inj hs
  have hcompile : within.compile 1 ⟨true, [.text "p".toList]⟩ = some (within.finish s) := by
    unfold compile
    rw [hload]
    rfl
  obtain ⟨s', hload', -, hall⟩ := compile_hosts hcompile
  obtain rfl := Option.some.inj (hload.symm.trans hload')
  obtain ⟨d, hd, hstyle, hrules⟩ := hall .inlineFonts 1 hhost (by decide)
  obtain ⟨rule, rest, hrule, htext, -⟩ := List.map_eq_cons_iff.1 hintake
  have hblank : Text.isBlank rule.render = false := by
    rw [htext]
    decide
  obtain ⟨css, hcss, hinfix⟩ := hrules rule (hrule ▸ List.mem_cons_self) hblank
  exact ⟨_, hcompile, d, hd, hstyle, css, hcss, htext ▸ hinfix⟩

/-- a host beside `html` takes the font face in, and nothing shows it -/
theorem compile_hosts_beside : ∃ s r, beside.load 1 ⟨true, [.text "p".toList]⟩ = some s ∧
    beside.compile 1 ⟨true, [.text "p".toList]⟩ = some r ∧
    s.catalog.host? .inlineFonts = some 0 ∧
    s.catalog.sheets.map (fun sheet => sheet.faces.map Css.Node.render)
      = [[], ["@font-face \x7b a \x7d".toList]] ∧
    r.program.sheets.map (fun sheet => sheet.faces.map Css.Node.render)
      = [["@font-face \x7b a \x7d".toList], []] ∧
    (∀ d ∈ r.program.components, 0 ∉ BodyNode.stylesOf d.body) ∧
    ∀ d ∈ r.program.components, ∀ css, ¬OutputNode.Styled d.nodes css := by
  have hs : (beside.load 1 ⟨true, [.text "p".toList]⟩).map (fun s => (s.catalog.host? .inlineFonts,
        s.catalog.sheets.map fun sheet => sheet.faces.map Css.Node.render))
      = some (some 0, [[], ["@font-face \x7b a \x7d".toList]]) := by decide
  -- the names in scope are sorted, which only the kernel evaluates
  have hr : (beside.compile 1 ⟨true, [.text "p".toList]⟩).map (fun r =>
        (r.program.sheets.map fun sheet => sheet.faces.map Css.Node.render,
          r.program.components.map fun d =>
            (BodyNode.stylesOf d.body, OutputNode.namesOf d.nodes)))
      = some ([["@font-face \x7b a \x7d".toList], []], [([1], ["html".toList])]) := by
    decide +kernel
  obtain ⟨s, hload, hs⟩ := Option.map_eq_some_iff.1 hs
  obtain ⟨r, hcompile, hr⟩ := Option.map_eq_some_iff.1 hr
  obtain ⟨hhost, hbefore⟩ := Prod.mk.inj hs
  obtain ⟨hafter, hcomponents⟩ := Prod.mk.inj hr
  have hall (d : Component) (hd : d ∈ r.program.components) :
      BodyNode.stylesOf d.body = [1] ∧ OutputNode.namesOf d.nodes = ["html".toList] := by
    have hm : (BodyNode.stylesOf d.body, OutputNode.namesOf d.nodes)
        ∈ r.program.components.map fun d =>
          (BodyNode.stylesOf d.body, OutputNode.namesOf d.nodes) := List.mem_map.2 ⟨d, hd, rfl⟩
    rw [hcomponents] at hm
    exact Prod.mk.inj (List.mem_singleton.1 hm)
  refine ⟨s, r, hload, hcompile, hhost, hbefore, hafter, fun d hd hid => ?_, ?_⟩
  · rw [(hall d hd).1] at hid
    exact absurd hid (by decide)
  · rintro d hd css ⟨binds, children, htag, -⟩
    have hname : styleName ∈ OutputNode.namesOf d.nodes := List.mem_filterMap.2 ⟨_, htag, rfl⟩
    rw [(hall d hd).2] at hname
    exact absurd hname (by decide)

end Compiler

end PageTemplates
