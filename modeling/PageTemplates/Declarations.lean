import PageTemplates.Html.Names
import PageTemplates.Session

/-!
# What a template declares

A walk through the tree of a freshly parsed template.  At the top level every element declares a
component, apart from the directives `import`, `component`, `link` and `style` and the page
itself, `html`.  Inside a body the directives are carried out and taken away, and what is left is
the body of the component.  A `component` inside a body is a declaration of its own.

* `Declarations.bodyNodes`   the body of a component;
* `Declarations.topNodes`    the top level of a file;
* `Declarations.discover`    a whole file.
-/

namespace PageTemplates

/-- the template whose tree is walked -/
structure Origin where
  template : TemplateId
  location : Location
  isMain : Bool

namespace Declarations

/-- what an element is for -/
inductive Role where
  | importing
  | component
  | link
  | style
  | page
  | other
deriving DecidableEq

def Role.ofName (name : Text) : Role :=
  if name = "import".toList then .importing
  else if name = "component".toList then .component
  else if name = "link".toList then .link
  else if name = "style".toList then .style
  else if name = "html".toList then .page
  else .other

def report (o : Origin) (p : Problem) (s : Session) : Session := s.report o.location.toText p

def modifyTemplate (o : Origin) (f : Template → Template) (s : Session) : Session :=
  s.mapCatalog (·.modifyTemplate o.template f)

/-- at the end of the list, unless it is there already -/
def addOnce (n : Nat) (ns : List Nat) : List Nat := if n ∈ ns then ns else ns ++ [n]

/-! ## declarations -/

/-- a new component of the template; a name that is taken is refused -/
def declare (o : Origin) (name : Text) (params : Attributes) (s : Session) :
    Option ComponentId × Session :=
  let name := Text.lower name
  match s.catalog.templates[o.template]? with
  | none => (none, s)
  | some t =>
    if t.tags.contains name then (none, report o (.duplicateComponent name) s)
    else
      let id := s.catalog.components.length
      (some id, modifyTemplate o (fun t => { t with tags := t.tags.insert name id })
        (s.mapCatalog (·.addComponent o.template name params)))

/-- declares a component and gives it the body that `walk` finds; `walk` is told the number of
the component, and does not run if the declaration is refused -/
def declareBody (o : Origin) (name : Text) (params : Attributes)
    (walk : ComponentId → Session → List BodyNode × Session) (s : Session) : Session :=
  match declare o name params s with
  | (none, s) => s
  | (some id, s) =>
    let r := walk id s
    r.2.mapCatalog (·.modifyComponent id fun c => { c with body := r.1 })

/-- a `component` element -/
def component (o : Origin) (attributes : Attributes)
    (walk : ComponentId → Session → List BodyNode × Session) (s : Session) : Session :=
  match attributes.get? "name".toList with
  | none => report o .unnamedComponent s
  | some name => declareBody o name (attributes.without ["name".toList]) walk s

/-! ## references -/

/-- an `import` element; it belongs to the component `owner`, or to the whole file -/
def importTemplate (o : Origin) (attributes : Attributes) (owner : Option ComponentId)
    (s : Session) : Session :=
  match attributes.get? "src".toList with
  | none => report o .importWithoutSrc s
  | some src =>
    let r := s.useTemplate src o.location
    match owner with
    | some id =>
      r.2.mapCatalog (·.modifyComponent id fun c => { c with imports := addOnce r.1 c.imports })
    | none => modifyTemplate o (fun t => { t with imports := addOnce r.1 t.imports }) r.2

def addSheet (o : Origin) (sheet : SheetId) (s : Session) : Session :=
  modifyTemplate o (fun t => { t with sheets := addOnce sheet t.sheets }) s

/-- what becomes of a `link` element -/
inductive LinkFate where
  | gone
  /-- it stays where it is -/
  | kept
  /-- the sheet stands in its place -/
  | inlined (sheet : SheetId) (attributes : Attributes)

def stylesheetLink (o : Origin) (attributes : Attributes) (owner : Option ComponentId)
    (s : Session) : LinkFate × Session :=
  match attributes.get? "href".toList with
  | none => (.gone, report o .stylesheetWithoutHref s)
  | some href =>
    let r := s.importSheet href o.location
    let s := addSheet o r.1 r.2
    if attributes.contains "inline".toList then
      (.inlined r.1 (attributes.without ["rel".toList, "href".toList, "inline".toList]), s)
    else
      let link : Link := ⟨r.1, href, attributes⟩
      match owner with
      | some id =>
        if o.isMain then (.kept, s)
        else
          (.gone, s.mapCatalog fun c =>
            c.modifyComponent id fun c => { c with links := c.links ++ [link] })
      | none => (.gone, modifyTemplate o (fun t => { t with links := t.links ++ [link] }) s)

def testDataLink (o : Origin) (attributes : Attributes) (s : Session) : Session :=
  match attributes.get? "href".toList with
  | none => report o .testDataWithoutHref s
  | some href =>
    match s.catalog.templates[o.template]? with
    | none => s
    | some t =>
      if t.testData.isSome then report o (.extraTestData href) s
      else modifyTemplate o (fun t => { t with testData := some (o.location.resolvePath href) }) s

def link (o : Origin) (attributes : Attributes) (owner : Option ComponentId) (s : Session) :
    LinkFate × Session :=
  let rel := attributes.get? "rel".toList
  if rel = some "stylesheet".toList then stylesheetLink o attributes owner s
  else if rel = some "test-data".toList then (.gone, testDataLink o attributes s)
  else (.kept, s)

/-! ## styles -/

/-- the text of nodes that are all text -/
def textOf? : List Html.Node → Option Text
  | [] => some []
  | .text run :: ns => (textOf? ns).map (run.text ++ ·)
  | _ :: _ => none

/-- makes a sheet the host of rules from all over the project -/
def markHost (o : Origin) (sheet : SheetId) (h : Host) (s : Session) : Session :=
  if !o.isMain then report o (.misplacedHost h) s
  else
    match s.catalog.templates[o.template]? with
    | none => s
    | some t =>
      if (t.host? h).isSome then report o (.duplicateHost h) s
      else modifyTemplate o (Template.setHost h sheet) s

def markHosts (o : Origin) (attributes : Attributes) (sheet : SheetId) (hosts : List Host)
    (s : Session) : Session :=
  (hosts.filter fun h => attributes.contains h.marker).foldl (fun s h => markHost o sheet h s) s

/-- a `style` element and what stands in its place -/
def style (env : Env) (o : Origin) (attributes : Attributes) (children : List Html.Node)
    (s : Session) : List BodyNode × Session :=
  match textOf? children with
  | none => ([], report o .elementInStyle s)
  | some source =>
    let r := s.inlineSheet env source o.location !o.isMain
    let s := addSheet o r.1 r.2
    let s := markHosts o attributes r.1 [.inlineFonts, .componentStyles] s
    ([.style r.1 (attributes.without [Host.inlineFonts.marker, Host.componentStyles.marker])], s)

/-! ## walks -/

mutual
/-- what a node leaves in the body of the component `owner` -/
def bodyNode (env : Env) (o : Origin) (owner : ComponentId) :
    Html.Node → Session → List BodyNode × Session
  | .fragment children _, s => bodyNodes env o owner children s
  | .text run, s => ([.text run], s)
  | .element name attributes children, s =>
    match Role.ofName name with
    | .importing => ([], importTemplate o attributes (some owner) s)
    | .component => ([], component o attributes (fun id s => bodyNodes env o id children s) s)
    | .style => style env o attributes children s
    | .link =>
      match link o attributes (some owner) s with
      | (.gone, s) => ([], s)
      | (.inlined sheet attributes, s) => ([.style sheet attributes], s)
      | (.kept, s) =>
        let r := bodyNodes env o owner children s
        ([.element name attributes r.1], r.2)
    | .page | .other =>
      let r := bodyNodes env o owner children s
      ([.element name attributes r.1], r.2)
def bodyNodes (env : Env) (o : Origin) (owner : ComponentId) :
    List Html.Node → Session → List BodyNode × Session
  | [], s => ([], s)
  | n :: ns, s =>
    let first := bodyNode env o owner n s
    let others := bodyNodes env o owner ns first.2
    (first.1 ++ others.1, others.2)
end

/-- an element at the top level of a file -/
def topElement (env : Env) (o : Origin) (name : Text) (attributes : Attributes)
    (children : List Html.Node) (s : Session) : Session :=
  match Role.ofName name with
  | .importing => importTemplate o attributes none s
  | .component => component o attributes (fun id s => bodyNodes env o id children s) s
  | .link => (link o attributes none s).2
  | .style => (style env o attributes children s).2
  | .page =>
    if !o.isMain then report o .misplacedHtml s
    else
      declareBody o name .empty
        (fun id s =>
          let r := bodyNodes env o id children s
          ([.element name attributes r.1], r.2)) s
  | .other =>
    let s := if Html.isStandard name then report o (.shadowsElement name) s else s
    declareBody o name attributes (fun id s => bodyNodes env o id children s) s

mutual
def topNode (env : Env) (o : Origin) : Html.Node → Session → Session
  | .fragment children _, s => topNodes env o children s
  | .text run, s =>
    if run.isBlank then s else report o (.strayText (Text.trim run.text)) s
  | .element name attributes children, s => topElement env o name attributes children s
def topNodes (env : Env) (o : Origin) : List Html.Node → Session → Session
  | [], s => s
  | n :: ns, s => topNodes env o ns (topNode env o n s)
end

/-- registers everything that the tree of a template declares and refers to -/
def discover (env : Env) (o : Origin) (f : Html.Fragment) (s : Session) : Session :=
  let s := if o.isMain && !f.hasDoctype then report o .missingDoctype s else s
  topNodes env o f.children s

end Declarations

end PageTemplates
