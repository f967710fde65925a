import PageTemplates.Component
import PageTemplates.Log

/-!
# The catalog of a project

Every template, sheet and component that has been registered, in the order of registration, so
that the number of each is its place in the list; and what has been reported so far.

* `Catalog.template?`, `Catalog.sharedSheet?`   what is registered for a location;
* `Template.mention`, `Sheet.mention`           a further place that refers to a resource.
-/

namespace PageTemplates

inductive Status where
  /-- registered and not read yet -/
  | pending
  | loaded
  /-- the resource could not be read or understood; the object stays and is empty -/
  | failed
deriving DecidableEq

def Status.name : Status → String
  | .pending => "pending"
  | .loaded => "loaded"
  | .failed => "failed"

structure Template where
  id : TemplateId
  location : Location
  /-- every place that refers to the template -/
  usedFrom : List Text
  isMain : Bool
  /-- the declared components by name -/
  tags : NameMap ComponentId
  /-- the templates that the whole file imports -/
  imports : List TemplateId
  sheets : List SheetId
  fontHost : Option SheetId
  styleHost : Option SheetId
  testData : Option Location
  /-- stylesheet links outside of every component -/
  links : List Link
  status : Status

namespace Template

def register (id : TemplateId) (location : Location) (usedFrom : Text) (isMain : Bool) : Template :=
  { id, location, usedFrom := [usedFrom], isMain, tags := .empty, imports := [], sheets := []
    fontHost := none, styleHost := none, testData := none, links := [], status := .pending }

def file (t : Template) : Text := t.location.toText

def mention (usedFrom : Text) (t : Template) : Template :=
  { t with usedFrom := t.usedFrom ++ [usedFrom] }

def host? (t : Template) : Host → Option SheetId
  | .inlineFonts => t.fontHost
  | .componentStyles => t.styleHost

def setHost (h : Host) (sheet : SheetId) (t : Template) : Template :=
  match h with
  | .inlineFonts => { t with fontHost := some sheet }
  | .componentStyles => { t with styleHost := some sheet }

end Template

structure Sheet where
  id : SheetId
  location : Location
  /-- whether the sheet is the body of a `<style>`; such a sheet is never shared -/
  inline : Bool
  usedFrom : List Text
  /-- what was read; nothing before loading and after a failure -/
  ast : Option Css.Node
  /-- declared by another template than the main one -/
  fromComponent : Bool
  /-- the sheets that this one imports -/
  imports : List SheetId
  status : Status

namespace Sheet

def register (id : SheetId) (location : Location) (usedFrom : Text) (inline fromComponent : Bool) :
    Sheet :=
  { id, location, inline, usedFrom := [usedFrom], ast := none, fromComponent, imports := []
    status := .pending }

def file (s : Sheet) : Text := s.location.toText

def mention (usedFrom : Text) (s : Sheet) : Sheet :=
  { s with usedFrom := s.usedFrom ++ [usedFrom] }

/-- the top-level rules, if the sheet holds a stylesheet -/
def rules? (s : Sheet) : Option (List Css.Node) := s.ast.bind Css.Node.rules?

end Sheet

structure Catalog where
  /-- the directory of rooted stylesheet urls -/
  siteRoot : Path
  templates : List Template
  sheets : List Sheet
  components : List Component
  log : Log
  main : Option TemplateId

namespace Catalog

def empty (siteRoot : Path) (lints : Bool) : Catalog := ⟨siteRoot, [], [], [], .empty lints, none⟩

def template? (c : Catalog) (l : Location) : Option Template :=
  c.templates.find? fun t => t.location = l

theorem template?_eq_some {c : Catalog} {l : Location} {t : Template} (h : c.template? l = some t) :
    t ∈ c.templates ∧ t.location = l :=
  ⟨List.mem_of_find?_eq_some h,
    of_decide_eq_true (@List.find?_some _ (fun t : Template => t.location = l) _ _ h)⟩

/-- the sheet that every reference to the location shares -/
def sharedSheet? (c : Catalog) (l : Location) : Option Sheet :=
  c.sheets.find? fun s => !s.inline && s.location = l

def modifyTemplate (c : Catalog) (id : TemplateId) (f : Template → Template) : Catalog :=
  { c with templates := c.templates.modify id f }

def modifySheet (c : Catalog) (id : SheetId) (f : Sheet → Sheet) : Catalog :=
  { c with sheets := c.sheets.modify id f }

def modifyComponent (c : Catalog) (id : ComponentId) (f : Component → Component) : Catalog :=
  { c with components := c.components.modify id f }

def report (c : Catalog) (file : Text) (p : Problem) : Catalog :=
  { c with log := c.log.report (some file) p }

def reportAll (c : Catalog) (file : Text) (ps : List Problem) : Catalog :=
  { c with log := c.log.reportAll (some file) ps }

/-- a component that `template` declares; its name is not yet known to the template -/
def addComponent (c : Catalog) (template : TemplateId) (name : Text) (params : Attributes) :
    Catalog :=
  { c with components := c.components ++ [.declare c.components.length template name params] }

end Catalog

end PageTemplates
