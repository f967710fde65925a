import PageTemplates.Catalog
import PageTemplates.Css.Reference

/-!
# A loading session

A session is a catalog with the jobs that are still to be done, first come first served, and the
locations that have been read.  A template or a shared sheet is put into the catalog and into the
queue in one step, at its first mention; every later mention is only recorded.

* `Session.useMain`, `Session.useTemplate`   registration of templates;
* `Session.importSheet`                      registration of sheets by url;
* `Session.inlineSheet`                      the body of a `<style>`, parsed at once.

Each of them is a `Call`, and a session keeps the history of its calls.  Reading and parsing are
given by an `Env`; the session is a function of it.
-/

namespace PageTemplates

/-- how resources are read and parsed -/
structure Env where
  read : Location → Except ResourceError Text
  parseMarkup : (source file : Text) → Except ResourceError Html.Fragment
  parseCss : Css.Parser

inductive Job where
  | template (id : TemplateId)
  | sheet (id : SheetId)
deriving DecidableEq

/-- a request for a resource, from outside or out of a file that is being loaded -/
inductive Call where
  | main (location : Location)
  | template (reference : Text) (origin : Location)
  | sheet (url : Text) (origin : Location)
  | inline (source : Text) (origin : Location) (fromComponent : Bool)
deriving DecidableEq

structure Session where
  catalog : Catalog
  /-- the jobs to be done, the next one first -/
  queue : List Job
  /-- the locations read so far, in order -/
  reads : List Location
  /-- the calls made so far, in order; a history that no step looks at -/
  calls : List Call

namespace Session

def start (siteRoot : Path) (lints : Bool) : Session := ⟨.empty siteRoot lints, [], [], []⟩

def mapCatalog (s : Session) (f : Catalog → Catalog) : Session := { s with catalog := f s.catalog }

def note (s : Session) (c : Call) : Session := { s with calls := s.calls ++ [c] }

def report (s : Session) (file : Text) (p : Problem) : Session :=
  s.mapCatalog (·.report file p)

/-! ## templates -/

def registerTemplate (s : Session) (l : Location) (usedFrom : Text) (isMain : Bool) :
    TemplateId × Session :=
  match s.catalog.template? l with
  | some t => (t.id, s.mapCatalog (·.modifyTemplate t.id (Template.mention usedFrom)))
  | none =>
    let id := s.catalog.templates.length
    (id, { s with
      catalog := { s.catalog with
        templates := s.catalog.templates ++ [.register id l usedFrom isMain] }
      queue := s.queue ++ [.template id] })

/-- registers the entry template; only the first call does -/
def useMain (s : Session) (l : Location) : TemplateId × Session :=
  let s := s.note (.main l)
  match s.catalog.main with
  | some id => (id, s)
  | none =>
    let r := s.registerTemplate l "<entry>".toList true
    (r.1, r.2.mapCatalog fun c => { c with main := some r.1 })

/-- the template that `reference` names as seen from `origin` -/
def useTemplate (s : Session) (reference : Text) (origin : Location) : TemplateId × Session :=
  (s.note (.template reference origin)).registerTemplate (origin.resolvePath reference)
    origin.toText false

/-! ## stylesheets -/

def registerSheet (s : Session) (l : Location) (usedFrom : Text) : SheetId × Session :=
  match s.catalog.sharedSheet? l with
  | some sheet => (sheet.id, s.mapCatalog (·.modifySheet sheet.id (Sheet.mention usedFrom)))
  | none =>
    let id := s.catalog.sheets.length
    (id, { s with
      catalog := { s.catalog with
        sheets := s.catalog.sheets ++ [.register id l usedFrom false false] }
      queue := s.queue ++ [.sheet id] })

/-- the sheet that `url` names as seen from `origin` -/
def importSheet (s : Session) (url : Text) (origin : Location) : SheetId × Session :=
  (s.note (.sheet url origin)).registerSheet (origin.resolveUrl s.catalog.siteRoot url)
    origin.toText

def importSheets (s : Session) (urls : List Text) (origin : Location) : List SheetId × Session :=
  match urls with
  | [] => ([], s)
  | url :: urls =>
    let first := s.importSheet url origin
    let others := first.2.importSheets urls origin
    (first.1 :: others.1, others.2)

/-- the stylesheet in `source`, with its problems reported -/
def parseSheet (env : Env) (s : Session) (source file : Text) : Option Css.Node × Session :=
  let outcome := env.parseCss true source
  let s := s.mapCatalog (·.reportAll file (outcome.problems.map .cssProblem))
  match outcome.result with
  | .ok ast => (some ast, s)
  | .error f => (none, s.report file (.cssFailure f))

/-- stores what was parsed and registers the sheets that it imports -/
def finishSheet (s : Session) (id : SheetId) (l : Location) : Option Css.Node → Session
  | none => s.mapCatalog (·.modifySheet id fun sheet => { sheet with status := .failed })
  | some ast =>
    let r := s.importSheets ast.importUrls l
    r.2.mapCatalog (·.modifySheet id fun sheet =>
      { sheet with ast := some ast, imports := r.1, status := .loaded })

/-- a new sheet that is never shared and never read -/
def registerInline (s : Session) (origin : Location) (fromComponent : Bool) : Session :=
  s.mapCatalog fun c =>
    { c with
      sheets := c.sheets ++ [.register c.sheets.length origin origin.toText true fromComponent] }

/-- a sheet of its own with the body of a `<style>` that stands at `origin` -/
def inlineSheet (env : Env) (s : Session) (source : Text) (origin : Location)
    (fromComponent : Bool) : SheetId × Session :=
  let id := s.catalog.sheets.length
  let s := (s.note (.inline source origin fromComponent)).registerInline origin fromComponent
  let r := s.parseSheet env source origin.toText
  (id, r.2.finishSheet id origin r.1)

/-- makes a call from outside -/
def call (env : Env) (s : Session) : Call → Session
  | .main l => (s.useMain l).2
  | .template reference origin => (s.useTemplate reference origin).2
  | .sheet url origin => (s.importSheet url origin).2
  | .inline source origin fromComponent => (s.inlineSheet env source origin fromComponent).2

end Session

end PageTemplates
