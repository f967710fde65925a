import PageTemplates.Component

/-!
# The stylesheet links of a page

A page that is rendered from a component needs the hoisted links of every component it uses, at
any depth, and those of the templates that declare them.  The walk visits a component when it is
first used: its own links, the links of its template if that is new, its body in document order;
content that is captured by a use comes after the component that captures it.

* `LinkWalk.visit`   all links on the way, with repetitions;
* `pageLinks`        the first link of each sheet.
-/

namespace PageTemplates

/-- what the walk knows about: the components, and the links of each template -/
structure LinkWalk where
  components : List Component
  templateLinks : TemplateId → List Link

/-- what is still to be walked -/
inductive LinkTask where
  | enter (id : ComponentId)
  | node (n : OutputNode)

mutual
/-- the number of tasks that a node comes to -/
def OutputNode.weight : OutputNode → Nat
  | .text _ | .expression _ => 1
  | .tag _ _ children => 1 + weights children
  | .custom _ _ _ captured => 2 + weights captured
  | .cond _ children => 1 + weights children
  | .repetition _ children => 1 + weights children
def OutputNode.weights : List OutputNode → Nat
  | [] => 0
  | n :: ns => n.weight + weights ns
end

namespace LinkTask

def weight : LinkTask → Nat
  | .enter _ => 1
  | .node n => n.weight

def weights : List LinkTask → Nat
  | [] => 0
  | t :: ts => t.weight + weights ts

theorem weights_append (ts us : List LinkTask) : weights (ts ++ us) = weights ts + weights us := by
  induction ts with
  | nil => rw [List.nil_append, weights, Nat.zero_add]
  | cons t ts ih => rw [List.cons_append, weights, weights, ih, Nat.add_assoc]

/-- the tasks that a node is replaced by -/
def ofNode (n : OutputNode) : List LinkTask :=
  match n with
  | .custom target _ _ captured => .enter target :: captured.map .node
  | n => n.children.map .node

theorem weights_nodes (ns : List OutputNode) :
    weights (ns.map .node) = OutputNode.weights ns := by
  induction ns with
  | nil => rfl
  | cons n ns ih =>
    rw [List.map_cons, weights, ih]
    rfl

theorem weights_ofNode_lt (n : OutputNode) : weights (ofNode n) < n.weight := by
  cases n with
  | text => exact Nat.one_pos
  | expression => exact Nat.one_pos
  | tag name binds children =>
    show weights (children.map .node) < 1 + OutputNode.weights children
    rw [weights_nodes]
    omega
  | custom target name binds captured =>
    show 1 + weights (captured.map .node) < 2 + OutputNode.weights captured
    rw [weights_nodes]
    omega
  | cond condition children =>
    show weights (children.map .node) < 1 + OutputNode.weights children
    rw [weights_nodes]
    omega
  | repetition r children =>
    show weights (children.map .node) < 1 + OutputNode.weights children
    rw [weights_nodes]
    omega

end LinkTask

namespace LinkWalk

/-- the numbers of the components that have not been entered -/
def fresh (w : LinkWalk) (entered : List ComponentId) : List ComponentId :=
  (List.range w.components.length).filter fun id => !entered.contains id

theorem length_fresh_lt {w : LinkWalk} {entered : List ComponentId} {id : ComponentId}
    (h1 : id < w.components.length) (h2 : id ∉ entered) :
    (w.fresh (id :: entered)).length < (w.fresh entered).length := by
  have h : w.fresh (id :: entered) = (w.fresh entered).filter fun i => i != id := by
    rw [fresh, fresh, List.filter_filter]
    apply List.filter_congr
    intro i _
    by_cases hi : i = id <;> simp [hi]
  rw [h]
  apply List.length_filter_lt_length_iff_exists.2
  exact ⟨id, List.mem_filter.2 ⟨List.mem_range.2 h1, by simpa using h2⟩, by simp⟩

/-- the links that the tasks come to, in order -/
def visit (w : LinkWalk) (entered : List ComponentId) (templates : List TemplateId) :
    List LinkTask → List Link
  | [] => []
  | .node n :: tasks => visit w entered templates (LinkTask.ofNode n ++ tasks)
  | .enter id :: tasks =>
    if _h : id ∈ entered then visit w entered templates tasks
    else
      match _hc : w.components[id]? with
      | none => visit w entered templates tasks
      | some c =>
        let shared := if c.template ∈ templates then [] else w.templateLinks c.template
        c.links ++ shared
          ++ visit w (id :: entered) (c.template :: templates) (c.nodes.map .node ++ tasks)
termination_by tasks => ((w.fresh entered).length, LinkTask.weights tasks)
decreasing_by
  · apply Prod.Lex.right
    have := LinkTask.weights_ofNode_lt n
    rw [LinkTask.weights_append, LinkTask.weights, LinkTask.weight]
    omega
  · apply Prod.Lex.right
    rw [LinkTask.weights, LinkTask.weight]
    omega
  · apply Prod.Lex.right
    rw [LinkTask.weights, LinkTask.weight]
    omega
  · apply Prod.Lex.left
    exact length_fresh_lt (List.getElem?_eq_some_iff.1 _hc).1 _h

end LinkWalk

/-- the links whose sheet differs from that of every link before them -/
def firstOfEachSheet (seen : List SheetId) : List Link → List Link
  | [] => []
  | l :: ls =>
    if l.sheet ∈ seen then firstOfEachSheet seen ls
    else l :: firstOfEachSheet (l.sheet :: seen) ls

def LinkWalk.pageLinks (w : LinkWalk) (root : ComponentId) : List Link :=
  firstOfEachSheet [] (w.visit [] [] [.enter root])

end PageTemplates
