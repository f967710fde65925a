import PageTemplates.Text.Blank
import PageTemplates.Css.Node

/-!
# References to other resources

`url(...)` references in CSS text, in any ASCII case, and the target of an `@import`.

* `segments`          a text cut at its references; what is never closed is plain text;
* `urls`              the referenced urls in order;
* `retarget`          the text with some references replaced;
* `Node.urls`, `Node.retarget`   the same for a stylesheet, parents first.
-/

namespace PageTemplates.Css

inductive Segment where
  | text (t : Text)
  /-- `url(` as it is written, and what stands before the next `)` -/
  | reference (keyword inner : Text)
deriving DecidableEq

namespace Segment

def isClosing (c : Char) : Bool := c == ')'

/-- the quote around a reference, if it has one, and the url -/
def target (inner : Text) : Option Char × Text :=
  match Text.trim inner with
  | [] => (none, [])
  | q :: s =>
    if (q = '"' ∨ q = '\'') ∧ s.getLast? = some q then (some q, s.dropLast) else (none, q :: s)

def url? : Segment → Option Text
  | .text _ => none
  | .reference _ inner => some (target inner).2

/-- a replaced url stands in the quotes of the old one, or in double quotes if it had none -/
def write (f : Text → Option Text) : Segment → Text
  | .text t => t
  | .reference keyword inner =>
    match f (target inner).2 with
    | none => keyword ++ inner ++ [')']
    | some new =>
      let quote := (target inner).1.getD '"'
      keyword ++ quote :: new ++ [quote, ')']

end Segment

def urlKeyword : Text := "url(".toList

def segments (s : Text) : List Segment :=
  match Text.find? urlKeyword (Text.lower s) with
  | none => [.text s]
  | some i =>
    match _h : Text.since Segment.isClosing (s.drop (i + 4)) with
    | [] => [.text s]
    | _ :: rest =>
      .text (s.take i)
        :: .reference ((s.drop i).take 4) (Text.upTo Segment.isClosing (s.drop (i + 4)))
        :: segments rest
termination_by s.length
decreasing_by
  have h1 := Text.length_lt_of_since _h
  rw [List.length_drop] at h1
  omega

def urls (s : Text) : List Text := (segments s).filterMap Segment.url?

def retarget (f : Text → Option Text) (s : Text) : Text := (segments s).flatMap (Segment.write f)

namespace Node

/-- the text of a node in which references are looked for -/
def referring : Node → Text
  | .sheet _ => []
  | .rule _ declarations => declarations
  | .statement _ prelude => prelude
  | .group _ prelude _ => prelude
  | .block _ _ declarations => declarations

def setReferring (t : Text) : Node → Node
  | .sheet rules => .sheet rules
  | .rule selector _ => .rule selector t
  | .statement name _ => .statement name t
  | .group name _ rules => .group name t rules
  | .block name prelude _ => .block name prelude t

def urls (n : Node) : List Text := n.walk.flatMap fun m => Css.urls m.referring

def retarget (f : Text → Option Text) (n : Node) : Node :=
  n.mapOwn fun m => m.setReferring (Css.retarget f m.referring)

/-- the target that the prelude of an `@import` names, as a string or as a reference -/
def importTarget? (prelude : Text) : Option Text :=
  match Text.trimStart prelude with
  | [] => none
  | q :: s =>
    if q = '"' ∨ q = '\'' then
      if q ∈ s then some (Text.upTo (· == q) s) else none
    else (Css.urls (q :: s)).head?

/-- the target of an `@import` -/
def importUrl? (n : Node) : Option Text :=
  if n.isAt "import".toList then
    match n with
    | .statement _ prelude => importTarget? prelude
    | .group _ prelude _ => importTarget? prelude
    | .block _ prelude _ => importTarget? prelude
    | .sheet _ | .rule _ _ => none
  else none

/-- the targets of the `@import`s at or below a node -/
def importUrls (n : Node) : List Text := n.walk.filterMap importUrl?

end Node

end PageTemplates.Css
