import PageTemplates.Text.Basic

/-!
# Stylesheets

A stylesheet is a shallow tree: rules keep the text of their selector and of their declarations,
at-rules keep their prelude and either nothing, rules, or declarations.

* `Node.walk`       a node and all nodes below it, parents first;
* `Node.found`      the outermost nodes below a node that satisfy a predicate;
* `Node.pruned`     the node without them;
* `Node.render`     the node as CSS text.
-/

namespace PageTemplates.Css

inductive Node where
  | sheet (rules : List Node)
  | rule (selector declarations : Text)
  /-- an at-rule without a block -/
  | statement (name prelude : Text)
  /-- an at-rule around rules -/
  | group (name prelude : Text) (rules : List Node)
  /-- an at-rule around declarations -/
  | block (name prelude declarations : Text)

namespace Node

instance : Inhabited Node := ⟨.sheet []⟩

/-- the name of an at-rule -/
def atName? : Node → Option Text
  | .statement name _ => some name
  | .group name _ _ => some name
  | .block name _ _ => some name
  | .sheet _ | .rule _ _ => none

/-- whether the node is the at-rule of that name, in any ASCII case -/
def isAt (name : Text) (n : Node) : Bool :=
  match n.atName? with
  | some own => Text.lower own == Text.lower name
  | none => false

/-- the rules of a stylesheet -/
def rules? : Node → Option (List Node)
  | .sheet rules => some rules
  | _ => none

/-- a stylesheet with more rules at its end; any other node as it is -/
def append (more : List Node) : Node → Node
  | .sheet rules => .sheet (rules ++ more)
  | n => n

/-! ## walks -/

mutual
def walk : Node → List Node
  | .sheet rules => .sheet rules :: walkList rules
  | .group name prelude rules => .group name prelude rules :: walkList rules
  | n => [n]
def walkList : List Node → List Node
  | [] => []
  | n :: ns => n.walk ++ walkList ns
end

mutual
/-- changes the texts of a node and of all nodes below it; `f` sees one node's own texts only -/
def mapOwn (f : Node → Node) : Node → Node
  | .sheet rules => .sheet (mapOwnList f rules)
  | .group name prelude rules =>
    match f (.group name prelude []) with
    | .group name' prelude' _ => .group name' prelude' (mapOwnList f rules)
    | n => n
  | n => f n
def mapOwnList (f : Node → Node) : List Node → List Node
  | [] => []
  | n :: ns => n.mapOwn f :: mapOwnList f ns
end

mutual
def pruned (p : Node → Bool) : Node → Node
  | .sheet rules => .sheet (prunedList p rules)
  | .group name prelude rules => .group name prelude (prunedList p rules)
  | n => n
def prunedList (p : Node → Bool) : List Node → List Node
  | [] => []
  | n :: ns => if p n then prunedList p ns else n.pruned p :: prunedList p ns
end

mutual
def found (p : Node → Bool) : Node → List Node
  | .sheet rules => foundList p rules
  | .group _ _ rules => foundList p rules
  | _ => []
def foundList (p : Node → Bool) : List Node → List Node
  | [] => []
  | n :: ns => if p n then n :: foundList p ns else n.found p ++ foundList p ns
end

/-! ## as text -/

/-- an at-rule up to its block -/
def head (name prelude : Text) : Text :=
  if prelude.isEmpty then '@' :: name else '@' :: name ++ ' ' :: prelude

def braced (head declarations : Text) : Text :=
  if declarations.isEmpty then head ++ " \x7b\x7d".toList
  else head ++ " \x7b ".toList ++ declarations ++ " \x7d".toList

mutual
def render : Node → Text
  | .sheet rules => Text.joinWith ['\n'] (renderList rules)
  | .rule selector declarations => braced selector declarations
  | .statement name prelude => head name prelude ++ [';']
  | .group name prelude rules =>
    head name prelude ++ " \x7b\n".toList ++ Text.joinWith ['\n'] (renderList rules)
      ++ "\n\x7d".toList
  | .block name prelude declarations => braced (head name prelude) declarations
def renderList : List Node → List Text
  | [] => []
  | n :: ns => n.render :: renderList ns
end

end Node

end PageTemplates.Css
