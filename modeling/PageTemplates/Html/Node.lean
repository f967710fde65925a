import PageTemplates.Text.Blank
import PageTemplates.NameMap

/-!
# Markup trees

The tree that a markup parser hands over.  A fragment is the root of a file; a parser of its own
may also nest fragments.
-/

namespace PageTemplates

/-- a run of characters; a verbatim one is already escaped and written as it is -/
structure Run where
  text : Text
  verbatim : Bool
deriving DecidableEq

namespace Run

def isBlank (r : Run) : Bool := Text.isBlank r.text

end Run

/-- the attributes of an element in order; the first of equal names wins -/
abbrev Attributes := NameMap Text

namespace Html

inductive Node where
  | text (run : Run)
  | element (name : Text) (attributes : Attributes) (children : List Node)
  | fragment (children : List Node) (hasDoctype : Bool)

/-- the root of a parsed file -/
structure Fragment where
  children : List Node
  hasDoctype : Bool

end Html

end PageTemplates
