import PageTemplates.Compile
import PageTemplates.Config
import PageTemplates.Html.Tree
import PageTemplates.Json.Basic
import PageTemplates.Loading
import PageTemplates.PageLinks
import PageTemplates.StyleHosts

/-!
# Programs

The compiled form of a project, and how it comes about: load everything that the entry template
refers to, move rules into host sheets, compile the bodies, read the test data.

* `Compiler.compile`    the program of an entry template; `none` if `fuel` jobs did not load it;
* `Program.pageLinks`   the stylesheet links that a page needs.
-/

namespace PageTemplates

structure Program where
  main : Option TemplateId
  templates : List Template
  sheets : List Sheet
  components : List Component
  log : Log
  testData : Option Json

namespace Program

def template? (p : Program) (l : Location) : Option Template :=
  p.templates.find? fun t => t.location = l

/-- the declaration of a name in a template -/
def lookup? (p : Program) (t : Template) (name : Text) : Option Component :=
  (t.tags.get? name).bind fun id => p.components[id]?

/-- the `html` declaration of the entry template -/
def html? (p : Program) : Option Component := do
  let t ← p.templates[← p.main]?
  p.lookup? t "html".toList

def linkWalk (p : Program) : LinkWalk :=
  ⟨p.components, fun id => (p.templates[id]?.map Template.links).getD []⟩

def pageLinks (p : Program) (root : ComponentId) : List Link := p.linkWalk.pageLinks root

end Program

/-- a program, and the locations that were read for it in order -/
structure Compilation where
  program : Program
  reads : List Location

/-- how projects are compiled -/
structure Compiler where
  env : Env
  /-- reads test data, or says what is wrong with it -/
  parseData : Text → Except Text Json
  siteRoot : Path
  lints : Bool

namespace Compiler

def ofOptions (env : Env) (parseData : Text → Except Text Json) (o : Options) : Compiler :=
  ⟨env, parseData, (Path.ofText o.siteRoot).normal, o.lints⟩

/-- the loaded session of an entry template -/
def load (c : Compiler) (fuel : Nat) (entry : Path) : Option Session :=
  ((Session.start c.siteRoot c.lints).useMain (.ofPath entry)).2.run c.env fuel

/-- the test data of the entry template, what is wrong with it, and what was read for it -/
def testData (c : Compiler) (cat : Catalog) : Option Json × Catalog × List Location :=
  match cat.main.bind fun id => cat.templates[id]? with
  | none => (none, cat, [])
  | some t =>
    match t.testData with
    | none => (none, cat, [])
    | some l =>
      match c.env.read l with
      | .error e => (none, cat.report t.file (.resource e), [l])
      | .ok source =>
        match c.parseData source with
        | .ok value => (some value, cat, [l])
        | .error reason => (none, cat.report t.file (.resource (.testData l.toText reason)), [l])

/-- the program of a loaded session -/
def finish (c : Compiler) (s : Session) : Compilation :=
  let (data, cat, reads) := c.testData s.catalog.collect.compileBodies
  ⟨⟨cat.main, cat.templates, cat.sheets, cat.components, cat.log, data⟩, s.reads ++ reads⟩

def compile (c : Compiler) (fuel : Nat) (entry : Path) : Option Compilation :=
  (c.load fuel entry).map c.finish

end Compiler

end PageTemplates
