import PageTemplates.Html.Token

/-!
# From tokens to a tree

The builder keeps the elements that are still open, innermost first.  An end tag closes the
innermost open element of its name together with everything opened after it; an end tag of no
open element is ignored; what is open at the end is closed there.  Runs of one kind that meet
become one.

* `Builder.step`    what one token does;
* `Builder.close`   what an end tag does;
* `Fragment.ofText` the tree of a source.
-/

namespace PageTemplates.Html

/-- an element that is still open; the newest child stands first -/
structure Frame where
  name : Text
  attributes : Attributes
  children : List Node

def Frame.node (f : Frame) : Node := .element f.name f.attributes f.children.reverse

structure Builder where
  /-- the finished nodes outside of every open element, newest first -/
  root : List Node
  /-- the open elements, innermost first -/
  frames : List Frame
  hasDoctype : Bool

/-- a run after its siblings, newest first; it joins a run of its own kind -/
def addRun (run : Run) : List Node → List Node
  | .text last :: ns =>
    if last.verbatim = run.verbatim then .text ⟨last.text ++ run.text, run.verbatim⟩ :: ns
    else .text run :: .text last :: ns
  | ns => .text run :: ns

namespace Builder

def empty : Builder := ⟨[], [], false⟩

/-- changes the children of the innermost open element -/
def modify (b : Builder) (f : List Node → List Node) : Builder :=
  match b.frames with
  | [] => { b with root := f b.root }
  | top :: fs => { b with frames := { top with children := f top.children } :: fs }

def add (b : Builder) (n : Node) : Builder := b.modify (n :: ·)

/-- closes the innermost open element -/
def pop (b : Builder) : Builder :=
  match b.frames with
  | [] => b
  | top :: fs => { b with frames := fs }.add top.node

/-- closes the `n` innermost open elements -/
def popN (b : Builder) : Nat → Builder
  | 0 => b
  | n + 1 => b.pop.popN n

def close (b : Builder) (name : Text) : Builder :=
  match b.frames.findIdx? (·.name == name) with
  | none => b
  | some i => b.popN (i + 1)

def step (b : Builder) : Token → Builder
  | .run run => b.modify (addRun run)
  | .start name attributes => { b with frames := ⟨name, attributes, []⟩ :: b.frames }
  | .leaf name attributes => b.add (.element name attributes [])
  | .stop name => b.close name
  | .doctype => { b with hasDoctype := true }

/-- closes everything that is still open -/
def finish (b : Builder) : Fragment :=
  let done := b.popN b.frames.length
  ⟨done.root.reverse, done.hasDoctype⟩

end Builder

/-- the tree of a markup source -/
def Fragment.ofText (source : Text) : Fragment :=
  ((tokens source).foldl Builder.step .empty).finish

end PageTemplates.Html
