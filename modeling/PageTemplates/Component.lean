import PageTemplates.Html.Node
import PageTemplates.Binding

/-!
# Components

A component has a body, first as it is declared (`BodyNode`: imports, nested declarations and
hoisted links are gone, styles point at their sheet), then as it is compiled (`OutputNode`).
Templates, sheets and components are numbered in the order of their creation.
-/

namespace PageTemplates

abbrev TemplateId := Nat
abbrev SheetId := Nat
abbrev ComponentId := Nat

inductive BodyNode where
  | text (run : Run)
  | element (name : Text) (attributes : Attributes) (children : List BodyNode)
  | style (sheet : SheetId) (attributes : Attributes)

inductive OutputNode where
  | text (run : Run)
  | expression (e : Expression)
  | tag (name : Text) (binds : Bindings) (children : List OutputNode)
  /-- a use of a component with the content written inside it -/
  | custom (target : ComponentId) (name : Text) (binds : Bindings) (captured : List OutputNode)
  | cond (condition : Expression) (children : List OutputNode)
  | repetition (r : Repetition) (children : List OutputNode)

namespace OutputNode

def isBlankText : OutputNode → Bool
  | .text run => !run.verbatim && run.isBlank
  | _ => false

/-- the nodes below, also those captured -/
def children : OutputNode → List OutputNode
  | .text _ | .expression _ => []
  | .tag _ _ children => children
  | .custom _ _ _ captured => captured
  | .cond _ children => children
  | .repetition _ children => children

end OutputNode

/-- a stylesheet link that a page emits once, wherever its component is used -/
structure Link where
  sheet : SheetId
  /-- as written, relative to the declaring template -/
  href : Text
  attributes : Attributes
deriving DecidableEq

structure Component where
  id : ComponentId
  template : TemplateId
  name : Text
  body : List BodyNode
  /-- the declared parameters and their default values -/
  params : Attributes
  /-- the compiled body -/
  nodes : List OutputNode
  imports : List TemplateId
  links : List Link

def Component.declare (id : ComponentId) (template : TemplateId) (name : Text)
    (params : Attributes) : Component :=
  ⟨id, template, name, [], params, [], [], []⟩

end PageTemplates
