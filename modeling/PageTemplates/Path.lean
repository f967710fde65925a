import PageTemplates.Text.Basic
import PageTemplates.Text.Utf8

/-!
# File paths

A path is read as its components; empty components and `.` are no components.  A component is a
text, or a name of bytes that are no text.  Paths are compared and resolved by their spelling alone,
no file system is asked.

* `Path.ofParts`, `Path.ofText`  reading what stands between slashes;
* `Path.toText`                  writing, with replacements for what is no text;
* `Path.join`                    a path seen from a directory; a rooted one stays as it is;
* `Path.normal`                  the path walked with a stack: `..` leaves the directory on top,
                                 and stands itself on an empty stack;
* `Path.below?`                  the components of a path below a directory.
-/

namespace PageTemplates

/-- a name of bytes that are no text -/
structure Undecoded where
  bytes : List UInt8
  invalid : ¬ bytes.toByteArray.IsValidUTF8
  /-- no byte is a slash -/
  slashless : 0x2F ∉ bytes
deriving DecidableEq

namespace Path

def here : Text := ['.']
def parent : Text := ['.', '.']

/-- what stands between two slashes -/
inductive Part where
  | text (t : Text)
  | raw (name : Undecoded)
deriving DecidableEq

namespace Part

def toText : Part → Text
  | .text t => t
  | .raw name => Utf8.lossy name.bytes

/-- the number of bytes -/
def size : Part → Nat
  | .text t => t.bytes
  | .raw name => name.bytes.length

def hasNul : Part → Bool
  | .text t => t.contains '\x00'
  | .raw name => name.bytes.contains 0

def isComponent (part : Part) : Bool := part != .text [] && part != .text here

end Part

end Path

structure Path where
  /-- whether the path starts at the root directory -/
  rooted : Bool
  parts : List Path.Part
deriving DecidableEq

namespace Path

/-- the path with the given parts between its slashes -/
def ofParts (rooted : Bool) (parts : List Part) : Path := ⟨rooted, parts.filter Part.isComponent⟩

/-- what stands between the slashes of a text -/
def pieces (s : Text) : List Part := (s.splitOn '/').map .text

def ofText (s : Text) : Path := ofParts (s.head? == some '/') (pieces s)

/-- components with slashes between them -/
def joinParts (parts : List Part) : Text := Text.joinWith ['/'] (parts.map Part.toText)

def toText (p : Path) : Text := if p.rooted then '/' :: joinParts p.parts else joinParts p.parts

/-- the number of bytes of a rooted path with these components -/
def size : List Part → Nat
  | [] => 0
  | part :: parts => 1 + part.size + size parts

def join (base p : Path) : Path :=
  if p.rooted then p else ⟨base.rooted, base.parts ++ p.parts⟩

/-- the directory that holds the path; a path without components is its own -/
def directory (p : Path) : Path := ⟨p.rooted, p.parts.dropLast⟩

/-- one component on the stack of those walked so far, innermost first -/
def walk (stack : List Part) (part : Part) : List Part :=
  if part = .text parent then
    match stack with
    | [] => [.text parent]
    | _ :: outer => outer
  else part :: stack

def normal (p : Path) : Path := ⟨p.rooted, (p.parts.foldl walk []).reverse⟩

/-- what follows the components of `base` in `parts` -/
def partsBelow? : List Part → List Part → Option (List Part)
  | [], parts => some parts
  | _ :: _, [] => none
  | b :: base, part :: parts => if b = part then partsBelow? base parts else none

/-- the components of `p` below `base`; below the empty path the root counts as a component -/
def below? (base p : Path) : Option (List Part) :=
  if base.rooted = p.rooted then partsBelow? base.parts p.parts
  else if p.rooted && base.parts.isEmpty then some (.text ['/'] :: p.parts)
  else none

end Path

end PageTemplates
