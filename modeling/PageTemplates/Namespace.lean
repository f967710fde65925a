import PageTemplates.Catalog

/-!
# Visible names

What an element name means inside a component.  The built-in tags come first, then the
declarations of the template, then its imports; a component with imports of its own sees these
before those of its template.  The first registrant of a name keeps it.

* `Namespace.insert`     makes a name visible;
* `Namespace.merge`      makes the declarations of an imported template visible;
* `TemplateNames`        what all components of a template share;
* `TemplateNames.forComponent`   what one component sees.

Each step gives the problems that it meets along with the namespace.
-/

namespace PageTemplates

inductive Visible where
  | builtin
  | component (id : ComponentId)
deriving DecidableEq

structure Namespace where
  tags : NameMap Visible
deriving DecidableEq

namespace Namespace

def builtins : Namespace :=
  ⟨.ofList [("component".toList, .builtin), ("import".toList, .builtin)]⟩

def get? (n : Namespace) (name : Text) : Option Visible := n.tags.get? name

def size (n : Namespace) : Nat := n.tags.size

/-- whether the name now has that meaning, and the namespace with it -/
def insert (n : Namespace) (name : Text) (v : Visible) : Bool × Namespace :=
  match n.get? name with
  | some old => (old = v, n)
  | none => (true, ⟨n.tags.insert name v⟩)

/-- entries one after another; `clash` is the problem of a name with another meaning -/
def insertAll (clash : Text → Problem) (n : Namespace) : List (Text × Visible) →
    Namespace × List Problem
  | [] => (n, [])
  | (name, v) :: entries =>
    let r := n.insert name v
    let others := insertAll clash r.2 entries
    (others.1, if r.1 then others.2 else clash name :: others.2)

/-- the declarations of a template, in the order of their names -/
def declared (t : Template) : List (Text × Visible) :=
  t.tags.sorted.map fun e => (e.1, .component e.2)

def merge (n : Namespace) (source : Template) : Namespace × List Problem :=
  n.insertAll (.importCollision · source.location) (declared source)

/-- several imports one after another -/
def mergeAll (n : Namespace) (templates : List Template) : List TemplateId →
    Namespace × List Problem
  | [] => (n, [])
  | id :: ids =>
    match templates[id]? with
    | none => n.mergeAll templates ids
    | some source =>
      let r := n.merge source
      let others := r.1.mergeAll templates ids
      (others.1, r.2 ++ others.2)

/-- the entries of `other` behind those that are visible already -/
def overlay (n other : Namespace) : Namespace × List Problem :=
  n.insertAll .ownImportCollision other.tags.sorted

end Namespace

/-- what all components of a template share -/
structure TemplateNames where
  /-- the built-in tags and the declarations of the template -/
  own : Namespace
  /-- those, and the imports of the whole file -/
  imported : Namespace

namespace TemplateNames

def ofTemplate (t : Template) (templates : List Template) : TemplateNames × List Problem :=
  let own := Namespace.builtins.insertAll .shadowsBuiltin (Namespace.declared t)
  let imported := own.1.mergeAll templates t.imports
  (⟨own.1, imported.1⟩, own.2 ++ imported.2)

def forComponent (n : TemplateNames) (c : Component) (templates : List Template) :
    Namespace × List Problem :=
  if c.imports.isEmpty then (n.imported, [])
  else
    let own := n.own.mergeAll templates c.imports
    let all := own.1.overlay n.imported
    (all.1, own.2 ++ all.2)

end TemplateNames

end PageTemplates
