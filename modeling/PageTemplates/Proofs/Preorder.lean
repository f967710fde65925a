import PageTemplates.Proofs.Markup

/-!
# The order of a source and of its tree

Reading a source loses nothing, adds nothing and changes no order: the tags of the tree in preorder
are the start tags among the tokens, and the characters between two tags are those of the runs
between the two start tags.  The finished nodes and the open elements of the builder are put into
one line (`Builder.items`); closing elements does not change the line, and every other token goes
to its end.

* `Item`                 a tag or a run, as a reader of the tree meets them;
* `Item.tags`, `Item.gaps`    the tags, and the characters before, between and behind them;
* `Item.Alike`           lines with the same tags and characters;
* `Builder.items_step`   one token;
* `Fragment.ofText_preorder`  a whole source.
-/

namespace PageTemplates.Html

/-- what a reader of a tree or of tokens meets -/
inductive Item where
  | tag (name : Text) (attributes : Attributes)
  | run (run : Run)

namespace Item

def tag? : Item → Option (Text × Attributes)
  | .tag name attributes => some (name, attributes)
  | .run _ => none

def tags (items : List Item) : List (Text × Attributes) := items.filterMap tag?

/-- an item in front of what stands before, between and behind some tags; each character is kept
with the kind of its run -/
def onto : Item → List (List (Char × Bool)) → List (List (Char × Bool))
  | .tag _ _, gaps => [] :: gaps
  | .run r, gaps => gaps.modifyHead (r.text.map (·, r.verbatim) ++ ·)

/-- the characters before the first tag, between any two consecutive tags, and behind the last -/
def gaps (items : List Item) : List (List (Char × Bool)) := items.foldr onto [[]]

/-- lines that are the same apart from where their runs are cut -/
structure Alike (a b : List Item) : Prop where
  tags : tags a = Item.tags b
  gaps : ∀ g, a.foldr onto g = b.foldr onto g

namespace Alike
variable {a b c : List Item}

theorem refl (a : List Item) : Alike a a := ⟨rfl, fun _ => rfl⟩

theorem trans (h : Alike a b) (h' : Alike b c) : Alike a c :=
  ⟨h.tags.trans h'.tags, fun g => (h.gaps g).trans (h'.gaps g)⟩

theorem append {a' b' : List Item} (h : Alike a b) (h' : Alike a' b') :
    Alike (a ++ a') (b ++ b') := by
  constructor
  · show (a ++ a').filterMap tag? = (b ++ b').filterMap tag?
    rw [List.filterMap_append, List.filterMap_append]
    exact congrArg₂ _ h.tags h'.tags
  · intro g
    rw [List.foldr_append, List.foldr_append, h'.gaps, h.gaps]

/-- two runs of one kind are as good as one -/
theorem joined (s t : Text) (verbatim : Bool) :
    Alike [.run ⟨s ++ t, verbatim⟩] [.run ⟨s, verbatim⟩, .run ⟨t, verbatim⟩] := by
  refine ⟨rfl, fun g => ?_⟩
  show g.modifyHead _ = (g.modifyHead _).modifyHead _
  rw [List.modifyHead_modifyHead, List.map_append]
  congr 1
  funext gap
  exact List.append_assoc _ _ _

end Alike

end Item

/-! ## trees and tokens as lines -/

mutual
/-- a node in preorder -/
def Node.items : Node → List Item
  | .text run => [.run run]
  | .element name attributes children => .tag name attributes :: Node.itemsList children
  | .fragment children _ => Node.itemsList children
def Node.itemsList : List Node → List Item
  | [] => []
  | n :: ns => n.items ++ Node.itemsList ns
end

def Fragment.items (f : Fragment) : List Item := Node.itemsList f.children

def Token.items : Token → List Item
  | .run r => [.run r]
  | .start name attributes | .leaf name attributes => [.tag name attributes]
  | .stop _ | .doctype => []

theorem Node.itemsList_append (ms ns : List Node) :
    itemsList (ms ++ ns) = itemsList ms ++ itemsList ns := by
  induction ms with
  | nil => rfl
  | cons m ms ih => rw [List.cons_append, itemsList, ih, itemsList, List.append_assoc]

/-- a further child, the newest first -/
theorem Node.itemsList_reverse_cons (n : Node) (ns : List Node) :
    itemsList (n :: ns).reverse = itemsList ns.reverse ++ n.items := by
  rw [List.reverse_cons, itemsList_append, itemsList, itemsList, List.append_nil]

def Frame.items (f : Frame) : List Item :=
  .tag f.name f.attributes :: Node.itemsList f.children.reverse

/-! ## the builder as a line -/

namespace Builder
open Item (Alike)

/-- the finished nodes and then the open elements, outermost first -/
def items (b : Builder) : List Item :=
  Node.itemsList b.root.reverse ++ b.frames.reverse.flatMap Frame.items

/-- the line up to the children of the innermost open element -/
def before (b : Builder) : List Item :=
  match b.frames with
  | [] => []
  | top :: fs =>
    Node.itemsList b.root.reverse ++ fs.reverse.flatMap Frame.items
      ++ [.tag top.name top.attributes]

theorem items_cons (root : List Node) (top : Frame) (fs : List Frame) (hasDoctype : Bool) :
    items ⟨root, top :: fs, hasDoctype⟩ = items ⟨root, fs, hasDoctype⟩ ++ top.items := by
  unfold items
  rw [List.reverse_cons, List.flatMap_append, List.append_assoc, List.flatMap_singleton]

theorem items_eq (b : Builder) : b.items = b.before ++ Node.itemsList b.siblings.reverse := by
  obtain ⟨root, frames, hasDoctype⟩ := b
  cases frames with
  | nil => exact List.append_nil _
  | cons top fs =>
    rw [items_cons]
    exact List.append_cons _ _ _

theorem before_modify (b : Builder) (f : List Node → List Node) :
    (b.modify f).before = b.before := by
  obtain ⟨root, frames, hasDoctype⟩ := b
  cases frames <;> rfl

theorem items_modify (b : Builder) (f : List Node → List Node) :
    (b.modify f).items = b.before ++ Node.itemsList (f b.siblings).reverse := by
  rw [items_eq, before_modify, siblings_modify]

theorem items_add (b : Builder) (n : Node) : (b.add n).items = b.items ++ n.items := by
  rw [add, items_modify, Node.itemsList_reverse_cons, items_eq, List.append_assoc]

/-- closing an element moves it from the open ones to the nodes, and leaves the line as it is -/
theorem items_pop (b : Builder) : b.pop.items = b.items := by
  obtain ⟨root, frames, hasDoctype⟩ := b
  cases frames with
  | nil => rfl
  | cons top fs =>
    rw [items_cons]
    exact items_add ⟨root, fs, hasDoctype⟩ top.node

theorem items_popN (b : Builder) (n : Nat) : (b.popN n).items = b.items := by
  induction n generalizing b with
  | zero => rfl
  | succ n ih => exact (ih b.pop).trans b.items_pop

theorem items_close (b : Builder) (name : Text) : (b.close name).items = b.items := by
  unfold close
  split
  · rfl
  · exact b.items_popN _

theorem itemsList_addRun (run : Run) (ns : List Node) :
    Alike (Node.itemsList (addRun run ns).reverse) (Node.itemsList ns.reverse ++ [.run run]) := by
  obtain ⟨t, verbatim⟩ := run
  unfold addRun
  split
  · next last ns =>
    obtain ⟨s, verbatim'⟩ := last
    rw [Node.itemsList_reverse_cons (.text ⟨s, verbatim'⟩)]
    split
    · next hkind =>
      obtain rfl : verbatim' = verbatim := hkind
      rw [Node.itemsList_reverse_cons, List.append_assoc]
      exact (Alike.refl _).append (Alike.joined s t verbatim')
    · rw [Node.itemsList_reverse_cons, Node.itemsList_reverse_cons]
      exact Alike.refl _
  · rw [Node.itemsList_reverse_cons]
    exact Alike.refl _

/-- every token goes to the end of the line -/
theorem items_step (b : Builder) (t : Token) : Alike (b.step t).items (b.items ++ t.items) := by
  cases t with
  | run run =>
    show Alike (b.modify (addRun run)).items (b.items ++ [.run run])
    rw [items_modify, items_eq, List.append_assoc]
    exact (Alike.refl _).append (itemsList_addRun run b.siblings)
  | start name attributes =>
    have hopen : (b.step (.start name attributes)).items = b.items ++ [.tag name attributes] :=
      items_cons b.root ⟨name, attributes, []⟩ b.frames b.hasDoctype
    rw [hopen]
    exact Alike.refl _
  | leaf name attributes =>
    show Alike (b.add (.element name attributes [])).items (b.items ++ [.tag name attributes])
    rw [items_add]
    exact Alike.refl _
  | stop name =>
    show Alike (b.close name).items (b.items ++ [])
    rw [items_close, List.append_nil]
    exact Alike.refl _
  | doctype =>
    show Alike b.items (b.items ++ [])
    rw [List.append_nil]
    exact Alike.refl _

theorem items_foldl_step (b : Builder) (ts : List Token) :
    Alike (ts.foldl step b).items (b.items ++ ts.flatMap Token.items) := by
  induction ts generalizing b with
  | nil =>
    rw [List.flatMap_nil, List.append_nil]
    exact Alike.refl _
  | cons t ts ih =>
    rw [List.foldl_cons, List.flatMap_cons, ← List.append_assoc]
    exact (ih (b.step t)).trans ((b.items_step t).append (Alike.refl _))

/-! ## the end of a source -/

theorem length_frames_modify (b : Builder) (f : List Node → List Node) :
    (b.modify f).frames.length = b.frames.length := by
  obtain ⟨root, frames, hasDoctype⟩ := b
  cases frames <;> rfl

theorem length_frames_popN (b : Builder) (n : Nat) :
    (b.popN n).frames.length = b.frames.length - n := by
  induction n generalizing b with
  | zero => rfl
  | succ n ih =>
    have hpop : b.pop.frames.length = b.frames.length - 1 := by
      obtain ⟨root, frames, hasDoctype⟩ := b
      cases frames with
      | nil => rfl
      | cons top fs => exact length_frames_modify ⟨root, fs, hasDoctype⟩ _
    show (b.pop.popN n).frames.length = _
    rw [ih, hpop, Nat.sub_sub, Nat.add_comm 1 n]

/-- at the end every element is closed -/
theorem items_finish (b : Builder) : b.finish.items = b.items := by
  have hclosed : (b.popN b.frames.length).frames = [] := by
    rw [← List.length_eq_zero_iff, length_frames_popN, Nat.sub_self]
  have hline : (b.popN b.frames.length).items = b.finish.items := by
    unfold items
    rw [hclosed]
    exact List.append_nil _
  rw [← hline, items_popN]

end Builder

/-- **Nothing is lost, doubled or moved.**  The tags of the tree of a source in preorder are its
start tags in order, with their attributes; and before the first tag, between any two consecutive
tags and behind the last one, the tree has the characters of the runs that stand there among the
tokens, each in the same order and of the same kind, whatever end tags there are. -/
theorem Fragment.ofText_preorder (source : Text) :
    Item.tags (Fragment.ofText source).items = Item.tags ((tokens source).flatMap Token.items) ∧
      Item.gaps (Fragment.ofText source).items
        = Item.gaps ((tokens source).flatMap Token.items) := by
  have hline := Builder.items_foldl_step .empty (tokens source)
  have hfinish : (Fragment.ofText source).items
      = ((tokens source).foldl Builder.step .empty).items := Builder.items_finish _
  rw [hfinish]
  exact ⟨hline.tags, hline.gaps [[]]⟩

end PageTemplates.Html
