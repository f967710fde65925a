import PageTemplates.Html.Names
import PageTemplates.Namespace

/-!
# Compiling bodies

The body of a component is compiled against a `Scope`.  An element is a use of a component when
its name means another component than the one at hand, and a plain tag otherwise.  `if` and
`repeat` become wrappers, `repeat` the outer one.  A style becomes a `<style>` tag with the text
of its sheet; styles with equal bindings and nothing but blank text between them become one tag.

* `Scope.nodes`             a list of siblings;
* `Catalog.compileBodies`   all components of a catalog.

Every function gives the problems that it meets, in order, along with its result.
-/

namespace PageTemplates

/-- what a body is compiled against -/
structure Scope where
  self : ComponentId
  components : List Component
  sheets : List Sheet
  names : Namespace

/-- the attributes that become wrappers -/
def directiveNames : List Text := ["if".toList, "repeat".toList]

/-! ## attributes -/

/-- a binding per attribute -/
def plainBinds (attributes : Attributes) : Bindings × List Problem :=
  (.ofList (attributes.entries.map fun e => (e.1, .ofText e.2)),
    attributes.entries.flatMap fun e => Problem.ofPlaceholders e.2)

/-- a binding per parameter: the attribute of that name, or the default -/
def componentBinds (element : Text) (params attributes : Attributes) : Bindings × List Problem :=
  let given := attributes.entries.filter fun e => params.contains e.1
  (.ofList (given.map (fun e => (e.1, Binding.ofText e.2))
      ++ params.entries.map fun e => (e.1, .text e.2)),
    attributes.entries.flatMap fun e =>
      if params.contains e.1 then Problem.ofPlaceholders e.2
      else [.unknownParameter element e.1])

/-! ## directives -/

def wrapCondition (element : Text) (attributes : Attributes) (n : OutputNode) :
    OutputNode × List Problem :=
  match attributes.get? "if".toList with
  | none => (n, [])
  | some value =>
    match Condition.ofText value with
    | .ok e => (.cond e [n], [])
    | .error e => (n, [.directive element e])

def wrapRepetition (element : Text) (attributes : Attributes) (n : OutputNode) :
    OutputNode × List Problem :=
  match attributes.get? "repeat".toList with
  | none => (n, [])
  | some value =>
    match Repetition.ofText value with
    | .ok r => (.repetition r [n], [])
    | .error e => (n, [.directive element e])

def wrap (element : Text) (attributes : Attributes) (n : OutputNode) : OutputNode × List Problem :=
  let inner := wrapCondition element attributes n
  let outer := wrapRepetition element attributes inner.1
  (outer.1, inner.2 ++ outer.2)

/-! ## text and styles -/

def Fragment.node : Fragment → OutputNode
  | .text t => .text ⟨t, false⟩
  | .expression e => .expression e

/-- text that is verbatim, or stands in a verbatim element, has no placeholders -/
def compileText (verbatim : Bool) (run : Run) : List OutputNode × List Problem :=
  if verbatim || run.verbatim then ([.text ⟨run.text, true⟩], [])
  else ((Placeholder.fragments run.text).map Fragment.node, Problem.ofPlaceholders run.text)

def styleName : Text := "style".toList

/-- adds `css` to the last sibling that is not blank text, if it is a style with these bindings;
the newest sibling stands first -/
def foldStyle (binds : Bindings) (css : OutputNode) : List OutputNode → Option (List OutputNode)
  | [] => none
  | n :: ns =>
    if n.isBlankText then (foldStyle binds css ns).map (n :: ·)
    else
      match n with
      | .tag name binds' children =>
        if name = styleName ∧ binds' = binds then some (.tag name binds' (children ++ [css]) :: ns)
        else none
      | _ => none

/-- a style behind its siblings, newest first -/
def compileStyle (sheets : List Sheet) (sheet : SheetId) (attributes : Attributes)
    (done : List OutputNode) : List OutputNode × List Problem :=
  match sheets[sheet]?.bind Sheet.ast with
  | none => (done, [])
  | some ast =>
    let rendered := ast.render
    if Text.isBlank rendered then (done, [])
    else
      let binds := plainBinds (attributes.without directiveNames)
      let css : OutputNode := .text ⟨rendered, true⟩
      let fresh :=
        let wrapped := wrap styleName attributes (.tag styleName binds.1 [css])
        (wrapped.1 :: done, binds.2 ++ wrapped.2)
      if directiveNames.any attributes.contains then fresh
      else
        match foldStyle binds.1 css done with
        | some done => (done, binds.2)
        | none => fresh

/-! ## elements -/

/-- the component that an element name stands for, unless it is the one at hand -/
def Scope.target? (c : Scope) (name : Text) : Option Component :=
  match c.names.get? name with
  | some (.component id) => if id = c.self then none else c.components[id]?
  | _ => none

/-- what is reported of a plain element -/
def plainProblems (name : Text) : List Problem :=
  if Html.isDeprecated name then [.deprecatedElement name]
  else if Html.isStandard name then []
  else [.unknownElement name]

def scriptName : Text := "script".toList

mutual
/-- a node behind its siblings, newest first; `verbatim` is set inside of `script` -/
def Scope.node (c : Scope) (verbatim : Bool) :
    BodyNode → List OutputNode → List OutputNode × List Problem
  | .text run, done =>
    let r := compileText verbatim run
    (r.1.reverse ++ done, r.2)
  | .style sheet attributes, done => compileStyle c.sheets sheet attributes done
  | .element name attributes children, done =>
    let plain := attributes.without directiveNames
    let n : OutputNode × List Problem :=
      match c.target? name with
      | some target =>
        let binds := componentBinds name target.params plain
        let below := c.nodes false children []
        (.custom target.id name binds.1 below.1.reverse, binds.2 ++ below.2)
      | none =>
        let binds := plainBinds plain
        let below := c.nodes (name = scriptName) children []
        (.tag name binds.1 below.1.reverse, plainProblems name ++ binds.2 ++ below.2)
    let wrapped := wrap name attributes n.1
    (wrapped.1 :: done, n.2 ++ wrapped.2)
def Scope.nodes (c : Scope) (verbatim : Bool) :
    List BodyNode → List OutputNode → List OutputNode × List Problem
  | [], done => (done, [])
  | n :: ns, done =>
    let first := c.node verbatim n done
    let others := c.nodes verbatim ns first.1
    (others.1, first.2 ++ others.2)
end

def Scope.compile (c : Scope) (body : List BodyNode) : List OutputNode × List Problem :=
  let r := c.nodes false body []
  (r.1.reverse, r.2)

/-! ## catalogs -/

namespace Catalog

/-- compiles one component with what its template shares -/
def compileComponent (shared : TemplateNames) (file : Text) (cat : Catalog) (c : Component) :
    Catalog :=
  let names := shared.forComponent c cat.templates
  let r := Scope.compile ⟨c.id, cat.components, cat.sheets, names.1⟩ c.body
  (cat.reportAll file (names.2 ++ r.2)).modifyComponent c.id fun c => { c with nodes := r.1 }

def compileTemplate (cat : Catalog) (t : Template) : Catalog :=
  if t.tags.isEmpty then cat
  else
    let shared := TemplateNames.ofTemplate t cat.templates
    (cat.components.filter fun c => c.template = t.id).foldl
      (compileComponent shared.1 t.file) (cat.reportAll t.file shared.2)

/-- compiles the body of every component, template by template -/
def compileBodies (cat : Catalog) : Catalog := cat.templates.foldl compileTemplate cat

end Catalog

end PageTemplates
