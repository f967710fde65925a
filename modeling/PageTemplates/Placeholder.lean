import PageTemplates.Expression

/-!
# Placeholders in text

A placeholder is written `{path.to.value}`.  A doubled brace stands for one brace, a lone `}`
for itself, and a blank placeholder is kept as it is written.

* `pieces`      a text cut into `Piece`s: plain characters, braced parts, and a tail whose brace
                is never closed;
* `fragments`   what the pieces say: literal text and expressions, neighbouring texts joined;
* `faults`      what is wrong with them, in order.
-/

namespace PageTemplates

/-- literal text or an expression -/
inductive Fragment where
  | text (t : Text)
  | expression (e : Expression)
deriving DecidableEq

namespace Fragment

/-- one fragment in front of others; two texts that meet become one -/
def cons : Fragment → List Fragment → List Fragment
  | .text s, .text t :: fs => .text (s ++ t) :: fs
  | f, fs => f :: fs

/-- the fragments in order, no two texts side by side -/
def join (fs : List Fragment) : List Fragment := fs.foldr cons []

def text? : Fragment → Option Text
  | .text t => some t
  | .expression _ => none

end Fragment

namespace Placeholder

inductive Fault where
  | unterminated
  | empty
deriving DecidableEq

/-- a part of a text as the braces cut it -/
inductive Piece where
  | literal (c : Char)
  /-- what stands between `{` and the next `}` -/
  | braced (inner : Text)
  /-- what follows a `{` that is never closed -/
  | unclosed (tail : Text)
deriving DecidableEq

namespace Piece

def fragment : Piece → Fragment
  | .literal c => .text [c]
  | .braced inner =>
    if Text.isBlank inner then .text ('{' :: inner ++ ['}']) else .expression (.ofText inner)
  | .unclosed tail =>
    if Text.isBlank tail then .text ('{' :: tail) else .expression (.ofText tail)

def fault? : Piece → Option Fault
  | .literal _ => none
  | .braced inner => if Text.isBlank inner then some .empty else none
  | .unclosed _ => some .unterminated

end Piece

def closing (c : Char) : Bool := c == '}'

def pieces : Text → List Piece
  | [] => []
  | '{' :: '{' :: s => .literal '{' :: pieces s
  | '}' :: '}' :: s => .literal '}' :: pieces s
  | '{' :: s =>
    match _h : Text.since closing s with
    | [] => [.unclosed s]
    | _ :: rest => .braced (Text.upTo closing s) :: pieces rest
  | c :: s => .literal c :: pieces s
termination_by s => s.length
decreasing_by
  all_goals simp only [List.length_cons]
  · omega
  · omega
  · have := Text.length_lt_of_since _h
    omega
  · omega

def fragments (source : Text) : List Fragment := Fragment.join ((pieces source).map Piece.fragment)

def faults (source : Text) : List Fault := (pieces source).filterMap Piece.fault?

end Placeholder

end PageTemplates
