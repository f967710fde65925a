import PageTemplates.Program

/-!
# Lints and compilation

Whether a log is open to lints decides what is written down and nothing else: each operation on a
session or on a catalog, done where lints have been left out, gives what it gives elsewhere with
the lints left out.

* `Log.withoutLints`       a log that is closed to lints, without those that it holds;
* `Log.report_withoutLints`   the one place where a lint is told from other problems;
* `Session.run_withoutLints`  loading, from the operations of a session and the walk of discovery;
* `SameButLints`           what two compilations have in common that differ in their lints;
* `compile_lints`          the compilations of one entry with and without lints.
-/

namespace PageTemplates

/-! ## logs -/

namespace Log

/-- the log without its lints, and closed to further ones -/
def withoutLints (log : Log) : Log := ⟨false, log.entries.filter fun e => e.severity ≠ .lint⟩

theorem report_withoutLints (log : Log) (file : Option Text) (p : Problem) :
    log.withoutLints.report file p = (log.report file p).withoutLints := by
  have hconcat : (log.entries ++ [(⟨file, p⟩ : Entry)]).filter (fun e => e.severity ≠ .lint)
      = log.entries.filter (fun e => e.severity ≠ .lint)
        ++ [(⟨file, p⟩ : Entry)].filter (fun e => e.severity ≠ .lint) := List.filter_append _ _
  unfold report
  by_cases hlint : p.severity = .lint
  · -- a lint is left out, be it recorded or not
    have hnone : [(⟨file, p⟩ : Entry)].filter (fun e => e.severity ≠ .lint) = [] :=
      List.filter_cons_of_neg fun h => of_decide_eq_true h hlint
    rw [if_pos ⟨hlint, rfl⟩]
    split
    · rfl
    · unfold withoutLints
      rw [hconcat, hnone, List.append_nil]
  · have hone : [(⟨file, p⟩ : Entry)].filter (fun e => e.severity ≠ .lint) = [⟨file, p⟩] :=
      List.filter_cons_of_pos (decide_eq_true hlint)
    rw [if_neg fun h => hlint h.1, if_neg fun h => hlint h.1]
    unfold withoutLints
    rw [hconcat, hone]

theorem reportAll_withoutLints (log : Log) (file : Option Text) (ps : List Problem) :
    log.withoutLints.reportAll file ps = (log.reportAll file ps).withoutLints := by
  induction ps generalizing log with
  | nil => rfl
  | cons p ps ih => rw [reportAll_cons, report_withoutLints, ih, reportAll_cons]

theorem withSeverity_withoutLints (log : Log) {s : Severity} (h : s ≠ .lint) :
    log.withoutLints.withSeverity s = log.withSeverity s := by
  unfold withSeverity withoutLints
  rw [List.filter_filter]
  apply List.filter_congr
  intro e _
  by_cases he : e.severity = s
  · simp [he, h]
  · simp [he]

end Log

/-! ## registrations -/

def Catalog.withoutLints (c : Catalog) : Catalog := { c with log := c.log.withoutLints }

namespace Session

def withoutLints (s : Session) : Session := s.mapCatalog Catalog.withoutLints

variable {α : Type} (env : Env) (s : Session)

/-- a result and the session after it without lints -/
def hushed (r : α × Session) : α × Session := (r.1, r.2.withoutLints)

theorem report_withoutLints (file : Text) (p : Problem) :
    s.withoutLints.report file p = (s.report file p).withoutLints :=
  congrArg (fun log => s.mapCatalog fun c => { c with log })
    (s.catalog.log.report_withoutLints (some file) p)

theorem registerTemplate_withoutLints (l : Location) (usedFrom : Text) (isMain : Bool) :
    s.withoutLints.registerTemplate l usedFrom isMain
      = hushed (s.registerTemplate l usedFrom isMain) := by
  have hfind : s.withoutLints.catalog.template? l = s.catalog.template? l := rfl
  unfold registerTemplate
  rw [hfind]
  split <;> rfl

theorem useMain_withoutLints (l : Location) :
    s.withoutLints.useMain l = hushed (s.useMain l) := by
  have hnote : s.withoutLints.note (.main l) = (s.note (.main l)).withoutLints := rfl
  have hmain : (s.note (.main l)).withoutLints.catalog.main = (s.note (.main l)).catalog.main := rfl
  have hregister := registerTemplate_withoutLints (s.note (.main l)) l "<entry>".toList true
  unfold useMain
  rw [hnote]
  dsimp only
  rw [hmain]
  cases (s.note (.main l)).catalog.main with
  | some id => rfl
  | none =>
    dsimp only
    rw [hregister]
    rfl

theorem useTemplate_withoutLints (reference : Text) (origin : Location) :
    s.withoutLints.useTemplate reference origin = hushed (s.useTemplate reference origin) :=
  registerTemplate_withoutLints (s.note _) _ _ _

theorem registerSheet_withoutLints (l : Location) (usedFrom : Text) :
    s.withoutLints.registerSheet l usedFrom = hushed (s.registerSheet l usedFrom) := by
  have hfind : s.withoutLints.catalog.sharedSheet? l = s.catalog.sharedSheet? l := rfl
  unfold registerSheet
  rw [hfind]
  split <;> rfl

theorem importSheet_withoutLints (url : Text) (origin : Location) :
    s.withoutLints.importSheet url origin = hushed (s.importSheet url origin) :=
  registerSheet_withoutLints (s.note _) _ _

theorem importSheets_withoutLints (urls : List Text) (origin : Location) :
    s.withoutLints.importSheets urls origin = hushed (s.importSheets urls origin) := by
  induction urls generalizing s with
  | nil => rfl
  | cons url urls ih =>
    simp only [importSheets, importSheet_withoutLints, hushed, ih]

theorem parseSheet_withoutLints (source file : Text) :
    s.withoutLints.parseSheet env source file = hushed (s.parseSheet env source file) := by
  unfold parseSheet
  have hproblems : s.withoutLints.mapCatalog
        (·.reportAll file ((env.parseCss true source).problems.map .cssProblem))
      = (s.mapCatalog
          (·.reportAll file ((env.parseCss true source).problems.map .cssProblem))).withoutLints :=
    congrArg (fun log => s.mapCatalog fun c => { c with log })
      (s.catalog.log.reportAll_withoutLints (some file) _)
  dsimp only
  rw [hproblems]
  split
  · rfl
  · rw [report_withoutLints]
    rfl

theorem finishSheet_withoutLints (id : SheetId) (l : Location) (ast : Option Css.Node) :
    s.withoutLints.finishSheet id l ast = (s.finishSheet id l ast).withoutLints := by
  cases ast with
  | none => rfl
  | some ast =>
    unfold finishSheet
    dsimp only
    rw [importSheets_withoutLints]
    rfl

theorem inlineSheet_withoutLints (source : Text) (origin : Location) (fromComponent : Bool) :
    s.withoutLints.inlineSheet env source origin fromComponent
      = hushed (s.inlineSheet env source origin fromComponent) := by
  unfold inlineSheet
  dsimp only
  rw [show (s.withoutLints.note (.inline source origin fromComponent)).registerInline origin
      fromComponent = ((s.note (.inline source origin fromComponent)).registerInline origin
        fromComponent).withoutLints from rfl,
    parseSheet_withoutLints]
  exact congrArg (Prod.mk _) (finishSheet_withoutLints _ _ origin _)

end Session

/-! ## discovery -/

namespace Declarations
open Session

variable (env : Env) (o : Origin) (s : Session)

theorem report_withoutLints (p : Problem) :
    report o p s.withoutLints = (report o p s).withoutLints :=
  Session.report_withoutLints s _ p

theorem declare_withoutLints (name : Text) (params : Attributes) :
    declare o name params s.withoutLints = hushed (declare o name params s) := by
  unfold declare
  dsimp only
  rw [show s.withoutLints.catalog.templates = s.catalog.templates from rfl]
  split
  · rfl
  · split
    · rw [report_withoutLints]
      rfl
    · rfl

/-- a walk that lints do not influence -/
def Indifferent (walk : ComponentId → Session → List BodyNode × Session) : Prop :=
  ∀ id s, walk id s.withoutLints = hushed (walk id s)

theorem declareBody_withoutLints {walk : ComponentId → Session → List BodyNode × Session}
    (hwalk : Indifferent walk) (name : Text) (params : Attributes) :
    declareBody o name params walk s.withoutLints
      = (declareBody o name params walk s).withoutLints := by
  unfold declareBody
  rw [declare_withoutLints]
  generalize declare o name params s = r
  obtain ⟨id, s'⟩ := r
  cases id with
  | none => rfl
  | some id =>
    dsimp only [hushed]
    rw [hwalk]
    rfl

theorem component_withoutLints {walk : ComponentId → Session → List BodyNode × Session}
    (hwalk : Indifferent walk) (attributes : Attributes) :
    component o attributes walk s.withoutLints = (component o attributes walk s).withoutLints := by
  unfold component
  split
  · exact report_withoutLints o s _
  · exact declareBody_withoutLints o s hwalk _ _

theorem importTemplate_withoutLints (attributes : Attributes) (owner : Option ComponentId) :
    importTemplate o attributes owner s.withoutLints
      = (importTemplate o attributes owner s).withoutLints := by
  unfold importTemplate
  split
  · exact report_withoutLints o s _
  · rw [useTemplate_withoutLints]
    cases owner <;> rfl

theorem stylesheetLink_withoutLints (attributes : Attributes) (owner : Option ComponentId) :
    stylesheetLink o attributes owner s.withoutLints
      = hushed (stylesheetLink o attributes owner s) := by
  unfold stylesheetLink
  split
  · exact congrArg (Prod.mk _) (report_withoutLints o s _)
  · rw [importSheet_withoutLints]
    dsimp only [hushed]
    split
    · rfl
    · cases owner with
      | none => rfl
      | some id => cases o.isMain <;> rfl

theorem testDataLink_withoutLints (attributes : Attributes) :
    testDataLink o attributes s.withoutLints = (testDataLink o attributes s).withoutLints := by
  unfold testDataLink
  split
  · exact report_withoutLints o s _
  · rw [show s.withoutLints.catalog.templates = s.catalog.templates from rfl]
    split
    · rfl
    · split
      · exact report_withoutLints o s _
      · rfl

theorem link_withoutLints (attributes : Attributes) (owner : Option ComponentId) :
    link o attributes owner s.withoutLints = hushed (link o attributes owner s) := by
  unfold link
  dsimp only
  split
  · exact stylesheetLink_withoutLints o s attributes owner
  · split
    · exact congrArg (Prod.mk _) (testDataLink_withoutLints o s attributes)
    · rfl

theorem markHost_withoutLints (sheet : SheetId) (h : Host) :
    markHost o sheet h s.withoutLints = (markHost o sheet h s).withoutLints := by
  unfold markHost
  split
  · exact report_withoutLints o s _
  · rw [show s.withoutLints.catalog.templates = s.catalog.templates from rfl]
    split
    · rfl
    · split
      · exact report_withoutLints o s _
      · rfl

theorem markHosts_withoutLints (attributes : Attributes) (sheet : SheetId) (hosts : List Host) :
    markHosts o attributes sheet hosts s.withoutLints
      = (markHosts o attributes sheet hosts s).withoutLints := by
  unfold markHosts
  induction hosts.filter (fun h => attributes.contains h.marker) generalizing s with
  | nil => rfl
  | cons h hosts ih => rw [List.foldl_cons, List.foldl_cons, markHost_withoutLints, ih]

theorem style_withoutLints (attributes : Attributes) (children : List Html.Node) :
    style env o attributes children s.withoutLints
      = hushed (style env o attributes children s) := by
  unfold style
  split
  · exact congrArg (Prod.mk _) (report_withoutLints o s _)
  · next source _ =>
    rw [inlineSheet_withoutLints]
    generalize s.inlineSheet env source o.location (!o.isMain) = r
    exact congrArg (Prod.mk _) (markHosts_withoutLints o (addSheet o r.1 r.2) attributes r.1 _)

mutual
theorem bodyNode_withoutLints (owner : ComponentId) (n : Html.Node) (s : Session) :
    bodyNode env o owner n s.withoutLints = hushed (bodyNode env o owner n s) := by
  cases n with
  | text run => rfl
  | fragment children _ =>
    rw [bodyNode, bodyNode]
    exact bodyNodes_withoutLints owner children s
  | element name attributes children =>
    have hchildren := bodyNodes_withoutLints owner children
    rw [bodyNode, bodyNode]
    cases Role.ofName name with
    | importing =>
      exact congrArg (Prod.mk _) (importTemplate_withoutLints o s attributes (some owner))
    | component =>
      exact congrArg (Prod.mk _) (component_withoutLints o s
        (fun id s => bodyNodes_withoutLints id children s) attributes)
    | style => exact style_withoutLints env o s attributes children
    | page =>
      dsimp only
      rw [hchildren]
      rfl
    | other =>
      dsimp only
      rw [hchildren]
      rfl
    | link =>
      dsimp only
      rw [link_withoutLints]
      generalize link o attributes (some owner) s = r
      obtain ⟨fate, s'⟩ := r
      cases fate with
      | gone => rfl
      | inlined sheet more => rfl
      | kept =>
        dsimp only [hushed]
        rw [hchildren]
        rfl
theorem bodyNodes_withoutLints (owner : ComponentId) (ns : List Html.Node) (s : Session) :
    bodyNodes env o owner ns s.withoutLints = hushed (bodyNodes env o owner ns s) := by
  cases ns with
  | nil => rfl
  | cons n ns =>
    rw [bodyNodes, bodyNodes, bodyNode_withoutLints owner n s]
    dsimp only [hushed]
    rw [bodyNodes_withoutLints owner ns]
    rfl
end

theorem topElement_withoutLints (name : Text) (attributes : Attributes)
    (children : List Html.Node) : topElement env o name attributes children s.withoutLints
      = (topElement env o name attributes children s).withoutLints := by
  have hwalk : Indifferent fun id s => bodyNodes env o id children s :=
    fun id s => bodyNodes_withoutLints env o id children s
  unfold topElement
  cases Role.ofName name with
  | importing => exact importTemplate_withoutLints o s attributes none
  | component => exact component_withoutLints o s hwalk attributes
  | link => exact congrArg Prod.snd (link_withoutLints o s attributes none)
  | style => exact congrArg Prod.snd (style_withoutLints env o s attributes children)
  | page =>
    dsimp only
    split
    · exact report_withoutLints o s _
    · refine declareBody_withoutLints o s ?_ name .empty
      intro id s
      dsimp only
      rw [bodyNodes_withoutLints]
      rfl
  | other =>
    dsimp only
    split
    · rw [report_withoutLints]
      exact declareBody_withoutLints o _ hwalk name attributes
    · exact declareBody_withoutLints o s hwalk name attributes

mutual
theorem topNode_withoutLints (n : Html.Node) (s : Session) :
    topNode env o n s.withoutLints = (topNode env o n s).withoutLints := by
  cases n with
  | fragment children _ =>
    rw [topNode, topNode]
    exact topNodes_withoutLints children s
  | text run =>
    rw [topNode, topNode]
    split
    · rfl
    · exact report_withoutLints o s _
  | element name attributes children =>
    rw [topNode, topNode]
    exact topElement_withoutLints env o s name attributes children
theorem topNodes_withoutLints (ns : List Html.Node) (s : Session) :
    topNodes env o ns s.withoutLints = (topNodes env o ns s).withoutLints := by
  cases ns with
  | nil => rfl
  | cons n ns => rw [topNodes, topNodes, topNode_withoutLints n s, topNodes_withoutLints ns]
end

theorem discover_withoutLints (f : Html.Fragment) :
    discover env o f s.withoutLints = (discover env o f s).withoutLints := by
  unfold discover
  dsimp only
  split
  · rw [report_withoutLints, topNodes_withoutLints]
  · rw [topNodes_withoutLints]

end Declarations

/-! ## runs -/

namespace Session
variable (env : Env) (s : Session)

theorem loadTemplate_withoutLints (t : Template) :
    s.withoutLints.loadTemplate env t = (s.loadTemplate env t).withoutLints := by
  have hread : ({ s.withoutLints with reads := s.withoutLints.reads ++ [t.location] } : Session)
      = ({ s with reads := s.reads ++ [t.location] } : Session).withoutLints := rfl
  unfold loadTemplate
  rw [hread]
  dsimp only
  generalize ({ s with reads := s.reads ++ [t.location] } : Session) = s'
  have mark (status : Status) :
      s'.withoutLints.mapCatalog (·.modifyTemplate t.id fun t => { t with status })
        = (s'.mapCatalog (·.modifyTemplate t.id fun t => { t with status })).withoutLints := rfl
  split
  · rw [mark .failed, report_withoutLints]
  · rw [mark .loaded, Declarations.discover_withoutLints]

theorem loadSheet_withoutLints (sheet : Sheet) :
    s.withoutLints.loadSheet env sheet = (s.loadSheet env sheet).withoutLints := by
  have hread : ({ s.withoutLints with reads := s.withoutLints.reads ++ [sheet.location] } : Session)
      = ({ s with reads := s.reads ++ [sheet.location] } : Session).withoutLints := rfl
  unfold loadSheet
  rw [hread]
  dsimp only
  split
  · rw [finishSheet_withoutLints, report_withoutLints]
  · rw [parseSheet_withoutLints]
    exact finishSheet_withoutLints _ _ _ _

theorem step_withoutLints : s.withoutLints.step env = (s.step env).map withoutLints := by
  unfold step
  rw [show s.withoutLints.queue = s.queue from rfl]
  split
  · rfl
  · next job queue _ =>
    apply congrArg some
    cases job with
    | template id =>
      unfold perform
      rw [show ({ s.withoutLints with queue } : Session).catalog.templates
        = ({ s with queue } : Session).catalog.templates from rfl]
      dsimp only
      split
      · exact loadTemplate_withoutLints env { s with queue } _
      · rfl
    | sheet id =>
      unfold perform
      rw [show ({ s.withoutLints with queue } : Session).catalog.sheets
        = ({ s with queue } : Session).catalog.sheets from rfl]
      dsimp only
      split
      · exact loadSheet_withoutLints env { s with queue } _
      · rfl

theorem run_withoutLints (fuel : Nat) :
    s.withoutLints.run env fuel = (s.run env fuel).map withoutLints := by
  induction fuel generalizing s with
  | zero =>
    rw [run, run, show s.withoutLints.queue = s.queue from rfl]
    split <;> rfl
  | succ fuel ih =>
    rw [run, run, step_withoutLints]
    cases s.step env with
    | none => rfl
    | some s' => exact ih s'

end Session

/-! ## loaded catalogs -/

namespace Catalog
variable (c : Catalog)

theorem report_withoutLints (file : Text) (p : Problem) :
    c.withoutLints.report file p = (c.report file p).withoutLints :=
  congrArg (fun log => { c with log }) (c.log.report_withoutLints (some file) p)

theorem reportAll_withoutLints (file : Text) (ps : List Problem) :
    c.withoutLints.reportAll file ps = (c.reportAll file ps).withoutLints :=
  congrArg (fun log => { c with log }) (c.log.reportAll_withoutLints (some file) ps)

theorem reportSheets_withoutLints (p : Sheet → Bool) (problem : Problem) :
    c.withoutLints.reportSheets p problem = (c.reportSheets p problem).withoutLints := by
  unfold reportSheets
  rw [show c.withoutLints.sheets = c.sheets from rfl]
  generalize c.sheets.filter p = sheets
  induction sheets generalizing c with
  | nil => rfl
  | cons sheet sheets ih => rw [List.foldl_cons, List.foldl_cons, report_withoutLints, ih]

theorem collectFonts_withoutLints (host : SheetId) :
    c.withoutLints.collectFonts host = (c.collectFonts host).withoutLints := by
  unfold collectFonts
  rw [show c.withoutLints.sheets = c.sheets from rfl]
  split
  · rfl
  · split
    · exact report_withoutLints c _ _
    · dsimp only
      rw [reportSheets_withoutLints]
      rfl

theorem collectStyles_withoutLints (host : SheetId) :
    c.withoutLints.collectStyles host = (c.collectStyles host).withoutLints := by
  unfold collectStyles
  rw [show c.withoutLints.sheets = c.sheets from rfl]
  split
  · rfl
  · split
    · exact report_withoutLints c _ _
    · dsimp only
      rw [reportSheets_withoutLints]
      rfl

theorem collect_withoutLints : c.withoutLints.collect = c.collect.withoutLints := by
  unfold collect
  rw [show c.withoutLints.templates = c.templates from rfl]
  dsimp only
  cases c.templates.findSome? Template.fontHost with
  | none =>
    cases c.templates.findSome? Template.styleHost with
    | none => rfl
    | some host => exact collectStyles_withoutLints c host
  | some fonts =>
    cases c.templates.findSome? Template.styleHost with
    | none => exact collectFonts_withoutLints c fonts
    | some host =>
      show (c.withoutLints.collectFonts fonts).collectStyles host = _
      rw [collectFonts_withoutLints, collectStyles_withoutLints]
      rfl

theorem compileComponent_withoutLints (shared : TemplateNames) (file : Text) (d : Component) :
    compileComponent shared file c.withoutLints d
      = (compileComponent shared file c d).withoutLints := by
  unfold compileComponent
  dsimp only
  rw [reportAll_withoutLints]
  rfl

theorem compileTemplate_withoutLints (t : Template) :
    c.withoutLints.compileTemplate t = (c.compileTemplate t).withoutLints := by
  unfold compileTemplate
  split
  · rfl
  · dsimp only
    rw [show c.withoutLints.components = c.components from rfl,
      show c.withoutLints.templates = c.templates from rfl, reportAll_withoutLints]
    generalize c.components.filter _ = ds
    generalize c.reportAll t.file _ = c'
    induction ds generalizing c' with
    | nil => rfl
    | cons d ds ih => rw [List.foldl_cons, List.foldl_cons, compileComponent_withoutLints, ih]

theorem compileBodies_withoutLints :
    c.withoutLints.compileBodies = c.compileBodies.withoutLints := by
  unfold compileBodies
  rw [show c.withoutLints.templates = c.templates from rfl]
  generalize c.templates = ts
  induction ts generalizing c with
  | nil => rfl
  | cons t ts ih => rw [List.foldl_cons, List.foldl_cons, compileTemplate_withoutLints, ih]

end Catalog

/-! ## compilations -/

/-- two compilations that agree in everything but the lints in their logs; the second has none -/
structure SameButLints (p q : Compilation) : Prop where
  reads : q.reads = p.reads
  main : q.program.main = p.program.main
  templates : q.program.templates = p.program.templates
  sheets : q.program.sheets = p.program.sheets
  components : q.program.components = p.program.components
  testData : q.program.testData = p.program.testData
  entries : q.program.log.entries = p.program.log.entries.filter fun e => e.severity ≠ .lint
  numErrors : q.program.log.numErrors = p.program.log.numErrors
  numWarnings : q.program.log.numWarnings = p.program.log.numWarnings

theorem SameButLints.of_log {p q : Compilation} (hreads : q.reads = p.reads)
    (h : q.program = { p.program with log := p.program.log.withoutLints }) : SameButLints p q := by
  obtain ⟨program, reads⟩ := q
  subst hreads h
  exact ⟨rfl, rfl, rfl, rfl, rfl, rfl, rfl,
    congrArg List.length (p.program.log.withSeverity_withoutLints (by decide)),
    congrArg List.length (p.program.log.withSeverity_withoutLints (by decide))⟩

namespace Compiler
variable (env : Env) (parseData : Text → Except Text Json) (siteRoot : Path)

theorem testData_withoutLints (c : Catalog) :
    (⟨env, parseData, siteRoot, false⟩ : Compiler).testData c.withoutLints =
      let r := (⟨env, parseData, siteRoot, true⟩ : Compiler).testData c
      (r.1, r.2.1.withoutLints, r.2.2) := by
  have hmain : (c.withoutLints.main.bind fun id => c.withoutLints.templates[id]?)
      = c.main.bind fun id => c.templates[id]? := rfl
  unfold testData
  rw [hmain]
  cases c.main.bind fun id => c.templates[id]? with
  | none => rfl
  | some t =>
    dsimp only
    cases t.testData with
    | none => rfl
    | some l =>
      dsimp only
      cases env.read l with
      | error e =>
        dsimp only
        rw [Catalog.report_withoutLints]
      | ok source =>
        dsimp only
        cases parseData source with
        | ok value => rfl
        | error e =>
          dsimp only
          rw [Catalog.report_withoutLints]

theorem finish_sameButLints (s : Session) :
    SameButLints ((⟨env, parseData, siteRoot, true⟩ : Compiler).finish s)
      ((⟨env, parseData, siteRoot, false⟩ : Compiler).finish s.withoutLints) := by
  have hcat : s.withoutLints.catalog.collect.compileBodies
      = s.catalog.collect.compileBodies.withoutLints := by
    rw [← Catalog.compileBodies_withoutLints, ← Catalog.collect_withoutLints]
    rfl
  have hdata := testData_withoutLints env parseData siteRoot s.catalog.collect.compileBodies
  unfold finish
  rw [hcat, hdata]
  exact .of_log rfl rfl

/-- **Lints do not influence compilation.**  With and without lints the same entry is compiled from
the same reads into the same program, or in neither case within so many jobs; the entries of the
log without lints are those of the other one that are no lints, and errors and warnings are as
many. -/
theorem compile_lints (fuel : Nat) (entry : Path) :
    Option.Rel SameButLints ((⟨env, parseData, siteRoot, true⟩ : Compiler).compile fuel entry)
      ((⟨env, parseData, siteRoot, false⟩ : Compiler).compile fuel entry) := by
  have hload : (⟨env, parseData, siteRoot, false⟩ : Compiler).load fuel entry
      = ((⟨env, parseData, siteRoot, true⟩ : Compiler).load fuel entry).map
        Session.withoutLints := by
    unfold load
    rw [← Session.run_withoutLints]
    show ((Session.start siteRoot true).withoutLints.useMain _).2.run env fuel = _
    rw [Session.useMain_withoutLints]
    rfl
  unfold compile
  rw [hload]
  cases (⟨env, parseData, siteRoot, true⟩ : Compiler).load fuel entry with
  | none => exact .none
  | some s => exact .some (finish_sameButLints env parseData siteRoot s)

end Compiler

end PageTemplates
