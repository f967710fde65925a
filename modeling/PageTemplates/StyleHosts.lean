import PageTemplates.Catalog
import PageTemplates.Css.Reference

/-!
# Moving rules into host sheets

Rules of a loaded catalog change their sheet.  `Catalog.collectFonts` moves the `@font-face` rules
of all sheets into a host sheet, the first of those with equal text.  `Catalog.collectStyles` moves
all rules of component sheets into a host sheet.  A rule that changes its location has its urls
rebased.
-/

namespace PageTemplates

/-- a rule on its way from one location to another -/
def rebaseRule (siteRoot : Path) (origin target : Location) (rule : Css.Node) : Css.Node :=
  if origin = target then rule else rule.retarget (origin.rebase? siteRoot)

def isFontFace (n : Css.Node) : Bool := n.isAt "font-face".toList

/-- the nodes whose text differs from that of every node before them -/
def firstOfEachText (seen : List Text) : List Css.Node → List Css.Node
  | [] => []
  | n :: ns =>
    if n.render ∈ seen then firstOfEachText seen ns
    else n :: firstOfEachText (n.render :: seen) ns

namespace Sheet

def isLoaded (s : Sheet) : Bool := s.status = .loaded

/-! ## font faces -/

/-- the font faces of a loaded stylesheet -/
def fontFaces (siteRoot : Path) (target : Location) (s : Sheet) : List Css.Node :=
  if s.isLoaded && s.rules?.isSome then
    (s.ast.toList.flatMap (Css.Node.found isFontFace)).map (rebaseRule siteRoot s.location target)
  else []

def withoutFontFaces (s : Sheet) : Sheet :=
  if s.isLoaded && s.rules?.isSome then { s with ast := s.ast.map (Css.Node.pruned isFontFace) }
  else s

/-! ## component styles -/

def isSource (host : SheetId) (s : Sheet) : Bool := s.fromComponent && s.id != host && s.isLoaded

def movedRules (siteRoot : Path) (host : SheetId) (target : Location) (s : Sheet) :
    List Css.Node :=
  if s.isSource host then (s.rules?.getD []).map (rebaseRule siteRoot s.location target) else []

def withoutRules (host : SheetId) (s : Sheet) : Sheet :=
  if s.isSource host && s.rules?.isSome then { s with ast := some (.sheet []) } else s

/-- rules at the end of the sheet -/
def append (more : List Css.Node) (s : Sheet) : Sheet :=
  { s with ast := s.ast.map (Css.Node.append more) }

end Sheet

namespace Catalog

/-- a problem for each of the sheets that satisfy `p` -/
def reportSheets (c : Catalog) (p : Sheet → Bool) (problem : Problem) : Catalog :=
  (c.sheets.filter p).foldl (fun c s => c.report s.file problem) c

def collectFonts (c : Catalog) (host : SheetId) : Catalog :=
  match c.sheets[host]? with
  | none => c
  | some h =>
    if h.rules?.isNone then c.report h.file (.invalidHost .inlineFonts)
    else
      let fonts := c.sheets.flatMap (Sheet.fontFaces c.siteRoot h.location)
      let c := c.reportSheets (fun s => s.isLoaded && s.rules?.isNone) .invalidFontSource
      { c with sheets := c.sheets.map Sheet.withoutFontFaces }.modifySheet host
        (Sheet.append (firstOfEachText [] fonts))

def collectStyles (c : Catalog) (host : SheetId) : Catalog :=
  match c.sheets[host]? with
  | none => c
  | some h =>
    if h.rules?.isNone then c.report h.file (.invalidHost .componentStyles)
    else
      let moved := c.sheets.flatMap (Sheet.movedRules c.siteRoot host h.location)
      let c := c.reportSheets (fun s => s.isSource host && s.rules?.isNone) .invalidStyleSource
      { c with sheets := c.sheets.map (Sheet.withoutRules host) }.modifySheet host
        (Sheet.append moved)

/-- collects whatever a template has declared a host for, font faces first -/
def collect (c : Catalog) : Catalog :=
  let fontHost := c.templates.findSome? Template.fontHost
  let styleHost := c.templates.findSome? Template.styleHost
  let c := fontHost.elim c c.collectFonts
  styleHost.elim c c.collectStyles

end Catalog

end PageTemplates
