import PageTemplates.Css.Reference

/-!
# Taking nodes out of a stylesheet

A node of a stylesheet stands at a place, given by the nodes around it.  What `prunedList` leaves
and what `foundList` takes is described by places alone.

* `rules_induction`   induction over rules and the rules in their blocks;
* `Place`, `places`   a node and what stands around it; all nodes in document order;
* `paths`             the places as paths of own texts, which determine the rules
                      (`eq_of_paths_eq`);
* `paths_pruned`      what stays: the paths on which no node matches;
* `found_eq`          what is taken: the matching nodes with no matching node around them;
* `Merged`            two lists in one, each in its own order;
* `pruned_found_merged`   both parts together; a second time nothing is taken.
-/

namespace PageTemplates.Css

namespace Node

/-! ## own texts and blocks -/

/-- the node without the rules in its block -/
def own : Node → Node
  | .sheet _ => .sheet []
  | .group name prelude _ => .group name prelude []
  | n => n

/-- the rules in the block of a node -/
def inner : Node → List Node
  | .sheet rules => rules
  | .group _ _ rules => rules
  | _ => []

theorem eq_of_own_inner {n m : Node} (ho : n.own = m.own) (hi : n.inner = m.inner) : n = m := by
  cases n <;> cases m <;> simp_all [own, inner]

theorem sizeOf_inner_lt (n : Node) : sizeOf n.inner < 1 + sizeOf n := by
  cases n <;> simp [inner] <;> omega

/-- what holds of rules if it holds of the rules in the first block and of those behind it -/
@[elab_as_elim]
theorem rules_induction {motive : List Node → Prop} (nil : motive [])
    (cons : ∀ n ns, motive n.inner → motive ns → motive (n :: ns)) : ∀ ns, motive ns
  | [] => nil
  | n :: ns => cons n ns (rules_induction nil cons n.inner) (rules_induction nil cons ns)
termination_by ns => sizeOf ns
decreasing_by
  · have h := n.sizeOf_inner_lt
    rw [List.cons.sizeOf_spec]
    omega
  · rw [List.cons.sizeOf_spec]
    omega

theorem walkList_cons (n : Node) (ns : List Node) :
    walkList (n :: ns) = n :: walkList n.inner ++ walkList ns := by
  cases n <;> simp [walkList, walk, inner]

theorem foundList_of_pos {p : Node → Bool} {n : Node} (h : p n = true) (ns : List Node) :
    foundList p (n :: ns) = n :: foundList p ns := by
  rw [foundList, if_pos h]

theorem foundList_of_neg {p : Node → Bool} {n : Node} (h : ¬p n = true) (ns : List Node) :
    foundList p (n :: ns) = foundList p n.inner ++ foundList p ns := by
  rw [foundList, if_neg h]
  cases n <;> simp [found, inner, foundList]

theorem prunedList_of_pos {p : Node → Bool} {n : Node} (h : p n = true) (ns : List Node) :
    prunedList p (n :: ns) = prunedList p ns := by
  rw [prunedList, if_pos h]

theorem prunedList_of_neg {p : Node → Bool} {n : Node} (h : ¬p n = true) (ns : List Node) :
    prunedList p (n :: ns) = n.pruned p :: prunedList p ns := by
  rw [prunedList, if_neg h]

theorem own_pruned (p : Node → Bool) (n : Node) : (n.pruned p).own = n.own := by
  cases n <;> rfl

theorem inner_pruned (p : Node → Bool) (n : Node) : (n.pruned p).inner = prunedList p n.inner := by
  cases n <;> rfl

end Node

/-! ## places -/

/-- a node and the nodes around it by their own texts, the outermost first -/
structure Place where
  around : List Node
  node : Node

namespace Place

/-- the place as seen from outside of `n` -/
def under (n : Node) (e : Place) : Place := ⟨n.own :: e.around, e.node⟩

def path (e : Place) : List Node := e.around ++ [e.node.own]

/-- whether the node matches and none around it does -/
def isOutermost (p : Node → Bool) (e : Place) : Bool := p e.node && !e.around.any p

end Place

namespace Node

mutual
/-- a node and all nodes below it at their places, in document order -/
def places : Node → List Place
  | .sheet rules => ⟨[], .sheet rules⟩ :: (placesList rules).map (Place.under (.sheet rules))
  | .group name prelude rules =>
    ⟨[], .group name prelude rules⟩
      :: (placesList rules).map (Place.under (.group name prelude rules))
  | n => [⟨[], n⟩]
def placesList : List Node → List Place
  | [] => []
  | n :: ns => n.places ++ placesList ns
end

/-- the paths of all nodes of some rules, in document order -/
def paths (ns : List Node) : List (List Node) := (placesList ns).map Place.path

theorem places_eq (n : Node) : n.places = ⟨[], n⟩ :: (placesList n.inner).map (Place.under n) := by
  cases n <;> simp [places, inner, placesList]

theorem placesList_cons (n : Node) (ns : List Node) :
    placesList (n :: ns)
      = ⟨[], n⟩ :: (placesList n.inner).map (Place.under n) ++ placesList ns := by
  rw [placesList, places_eq]

theorem placesList_append (ns ms : List Node) :
    placesList (ns ++ ms) = placesList ns ++ placesList ms := by
  induction ns with
  | nil => rfl
  | cons n ns ih => rw [List.cons_append, placesList, placesList, ih, List.append_assoc]

theorem paths_nil : paths [] = [] := rfl

theorem paths_cons (n : Node) (ns : List Node) :
    paths (n :: ns) = [n.own] :: (paths n.inner).map (n.own :: ·) ++ paths ns := by
  unfold paths
  rw [placesList_cons, List.map_append, List.map_cons, List.map_map, List.map_map]
  rfl

theorem paths_append (ns ms : List Node) : paths (ns ++ ms) = paths ns ++ paths ms := by
  unfold paths
  rw [placesList_append, List.map_append]

/-- every node has one place -/
theorem map_node_placesList (ns : List Node) : (placesList ns).map Place.node = walkList ns := by
  induction ns using rules_induction with
  | nil => rfl
  | cons n ns below behind =>
    have hunder : Place.node ∘ Place.under n = Place.node := rfl
    rw [placesList_cons, walkList_cons, List.map_append, List.map_cons, List.map_map, hunder, below,
      behind]

/-! ## paths determine the rules -/

/-- whether a path leads below some other node -/
def isDeep (path : List Node) : Bool := 1 < path.length

theorem isDeep_of_mem_paths {ns : List Node} {o : Node} {path : List Node}
    (h : path ∈ (paths ns).map (o :: ·)) : isDeep path = true := by
  obtain ⟨below, hm, rfl⟩ := List.mem_map.1 h
  obtain ⟨e, _, rfl⟩ := List.mem_map.1 hm
  apply decide_eq_true
  show 1 < (o :: (e.around ++ [e.node.own])).length
  simp

/-- the paths below the first node are the deep ones in front -/
theorem takeWhile_paths (o : Node) (ms ns : List Node) :
    ((paths ms).map (o :: ·) ++ paths ns).takeWhile isDeep = (paths ms).map (o :: ·) := by
  have hdeep : ∀ path ∈ (paths ms).map (o :: ·), isDeep path = true :=
    fun path h => isDeep_of_mem_paths h
  rw [List.takeWhile_append_of_pos hdeep]
  cases ns with
  | nil => rw [paths_nil, List.takeWhile_nil, List.append_nil]
  | cons n ns =>
    have hflat : ¬isDeep [n.own] = true := Bool.false_ne_true
    rw [paths_cons, List.cons_append, List.takeWhile_cons_of_neg hflat, List.append_nil]

theorem eq_of_paths_eq {ns ms : List Node} (h : paths ns = paths ms) : ns = ms := by
  induction ns using rules_induction generalizing ms with
  | nil =>
    cases ms with
    | nil => rfl
    | cons m ms =>
      rw [paths_cons] at h
      cases h
  | cons n ns below behind =>
    cases ms with
    | nil =>
      rw [paths_cons] at h
      cases h
    | cons m ms =>
      rw [paths_cons, paths_cons, List.cons_append, List.cons_append] at h
      obtain ⟨ho, htail⟩ := List.cons.inj h
      have hown : n.own = m.own := (List.cons.inj ho).1
      rw [hown] at htail
      have hdeep := congrArg (List.takeWhile isDeep) htail
      rw [takeWhile_paths, takeWhile_paths] at hdeep
      have hinner : paths n.inner = paths m.inner :=
        (List.map_inj_right fun _ _ h => List.tail_eq_of_cons_eq h).1 hdeep
      rw [hinner] at htail
      rw [eq_of_own_inner hown (below hinner), behind (List.append_cancel_left htail)]

/-! ## what stays and what is taken -/

/-- what is moved below a matching node counts no more; below another one it counts as before -/
theorem filter_map_below {α : Type} {q : α → Bool} {f : α → α} {matching : Bool}
    (h : ∀ a, q (f a) = (!matching && q a)) (l : List α) :
    (l.map f).filter q = if matching = true then [] else (l.filter q).map f := by
  have hq : q ∘ f = fun a => !matching && q a := funext h
  rw [List.filter_map, hq]
  cases matching with
  | true => simp
  | false => rfl

section
variable {p : Node → Bool}

/-- **What stays.**  The paths on which no node matches, in the order they had. -/
theorem paths_pruned (hp : ∀ n : Node, p n.own = p n) (ns : List Node) :
    paths (prunedList p ns) = (paths ns).filter fun path => !path.any p := by
  induction ns using rules_induction with
  | nil => rfl
  | cons n ns below behind =>
    have hcons (path : List Node) : (!(n.own :: path).any p) = (!p n && !path.any p) := by
      rw [List.any_cons, hp, Bool.not_or]
    rw [paths_cons, List.filter_append, List.filter_cons, filter_map_below hcons, hcons]
    by_cases h : p n = true
    · rw [prunedList_of_pos h, if_pos h, h, behind]
      rfl
    · have hno : p n = false := Bool.eq_false_iff.2 h
      rw [prunedList_of_neg h, if_neg h, hno, paths_cons, own_pruned, inner_pruned, below, behind]
      rfl

/-- **What is taken.**  The matching nodes with no matching node around them, in document order. -/
theorem found_eq (hp : ∀ n : Node, p n.own = p n) (ns : List Node) :
    foundList p ns = ((placesList ns).filter (Place.isOutermost p)).map Place.node := by
  induction ns using rules_induction with
  | nil => rfl
  | cons n ns below behind =>
    have hunder (e : Place) : (e.under n).isOutermost p = (!p n && e.isOutermost p) := by
      show (p e.node && !(n.own :: e.around).any p) = (!p n && (p e.node && !e.around.any p))
      rw [List.any_cons, hp, Bool.not_or, Bool.and_left_comm]
    have htop : (⟨[], n⟩ : Place).isOutermost p = p n := Bool.and_true _
    rw [placesList_cons, List.filter_append, List.filter_cons, filter_map_below hunder, htop,
      List.map_append]
    by_cases h : p n = true
    · rw [foundList_of_pos h, if_pos h, if_pos h, behind]
      rfl
    · rw [foundList_of_neg h, if_neg h, if_neg h, List.map_map, below, behind]
      rfl

/-- where no path has a matching node, no node matches -/
theorem eq_false_of_mem_walkList (hp : ∀ n : Node, p n.own = p n) {ns : List Node}
    (h : ∀ path ∈ paths ns, path.any p = false) {n : Node} (hn : n ∈ walkList ns) :
    p n = false := by
  rw [← map_node_placesList] at hn
  obtain ⟨e, he, rfl⟩ := List.mem_map.1 hn
  have hpath := h e.path (List.mem_map_of_mem he)
  rw [Place.path, List.any_append, Bool.or_eq_false_iff, List.any_cons, hp,
    Bool.or_eq_false_iff] at hpath
  exact hpath.2.1

/-- where no path has a matching node, nothing is taken -/
theorem outermost_eq_nil (hp : ∀ n : Node, p n.own = p n) {ns : List Node}
    (h : ∀ path ∈ paths ns, path.any p = false) :
    (placesList ns).filter (Place.isOutermost p) = [] := by
  apply List.filter_eq_nil_iff.2
  intro e he hout
  have hnode : e.node ∈ walkList ns := by
    rw [← map_node_placesList]
    exact List.mem_map_of_mem he
  rw [Place.isOutermost, eq_false_of_mem_walkList hp h hnode] at hout
  cases hout

/-- nothing stays of rules that all match -/
theorem filter_paths_eq_nil (hp : ∀ n : Node, p n.own = p n) {ns : List Node}
    (h : ∀ n ∈ ns, p n = true) : ((paths ns).filter fun path => !path.any p) = [] := by
  rw [← paths_pruned hp]
  induction ns with
  | nil => rfl
  | cons n ns ih =>
    rw [prunedList_of_pos (h n List.mem_cons_self),
      ih (fun m hm => h m (List.mem_cons_of_mem n hm))]

end

end Node

/-! ## both parts together -/

/-- the last list is made of the other two, each in its own order -/
inductive Merged {α : Type} : List α → List α → List α → Prop
  | nil : Merged [] [] []
  | left (a : α) {l r all : List α} (rest : Merged l r all) : Merged (a :: l) r (a :: all)
  | right (a : α) {l r all : List α} (rest : Merged l r all) : Merged l (a :: r) (a :: all)

namespace Merged
variable {α : Type} {l r all l' r' all' : List α}

theorem append (h : Merged l r all) (h' : Merged l' r' all') :
    Merged (l ++ l') (r ++ r') (all ++ all') := by
  induction h with
  | nil => exact h'
  | left a _ ih => exact .left a ih
  | right a _ ih => exact .right a ih

theorem all_right (l : List α) : Merged [] l l := by
  induction l with
  | nil => exact .nil
  | cons a l ih => exact .right a ih

end Merged

namespace Node

theorem walk_eq (n : Node) : n.walk = n :: walkList n.inner := by
  cases n <;> simp [walk, inner, walkList]

theorem found_eq_foundList (p : Node → Bool) (n : Node) : n.found p = foundList p n.inner := by
  cases n <;> simp [found, inner, foundList]

theorem walkList_append (ns ms : List Node) :
    walkList (ns ++ ms) = walkList ns ++ walkList ms := by
  induction ns with
  | nil => rfl
  | cons n ns ih => rw [List.cons_append, walkList, walkList, ih, List.append_assoc]

section
variable {p : Node → Bool}

/-- every node stays or goes, by its own texts, in the order of the document -/
theorem merged_prunedList (p : Node → Bool) (ns : List Node) :
    Merged ((walkList (prunedList p ns)).map own) ((walkList (foundList p ns)).map own)
      ((walkList ns).map own) := by
  induction ns using rules_induction with
  | nil => exact .nil
  | cons n ns below behind =>
    rw [walkList_cons n, List.map_append, List.map_cons]
    by_cases h : p n = true
    · -- the node goes with everything below it
      rw [prunedList_of_pos h, foundList_of_pos h, walkList_cons n, List.map_append, List.map_cons]
      exact (Merged.all_right _).append behind
    · rw [prunedList_of_neg h, foundList_of_neg h, walkList_cons (n.pruned p), inner_pruned,
        walkList_append, List.map_append, List.map_append, List.map_cons, own_pruned]
      exact (below.append behind).left n.own

/-- on the paths of what stays no node matches -/
theorem any_eq_false_of_mem_paths (hp : ∀ n : Node, p n.own = p n) (ns : List Node) :
    ∀ path ∈ paths (prunedList p ns), path.any p = false := by
  intro path hpath
  rw [paths_pruned hp, List.mem_filter, Bool.not_eq_true'] at hpath
  exact hpath.2

/-- a second time nothing goes -/
theorem prunedList_prunedList (hp : ∀ n : Node, p n.own = p n) (ns : List Node) :
    prunedList p (prunedList p ns) = prunedList p ns := by
  apply eq_of_paths_eq
  rw [paths_pruned hp, paths_pruned hp, List.filter_filter]
  simp only [Bool.and_self]

/-- **Taking out by own texts is a clean cut.**  Below the root no matching node stays; what goes is
every matching node with no matching node around it, with all that is below it; what stays is on
the paths it was on, and both parts together are the document in its order.  A second time nothing
goes and nothing changes. -/
theorem pruned_found_merged (hp : ∀ n : Node, p n.own = p n) (n : Node) :
    (∀ m ∈ walkList (n.pruned p).inner, p m = false) ∧
    n.found p = ((placesList n.inner).filter (Place.isOutermost p)).map Place.node ∧
    (n.pruned p).own = n.own ∧
    paths (n.pruned p).inner = (paths n.inner).filter (fun path => !path.any p) ∧
    Merged ((n.pruned p).walk.map own) ((walkList (n.found p)).map own) (n.walk.map own) ∧
    (n.pruned p).found p = [] ∧ (n.pruned p).pruned p = n.pruned p := by
  have hnone := any_eq_false_of_mem_paths hp n.inner
  refine ⟨?_, ?_, own_pruned p n, ?_, ?_, ?_, ?_⟩
  · rw [inner_pruned]
    exact fun m hm => eq_false_of_mem_walkList hp hnone hm
  · rw [found_eq_foundList, found_eq hp]
  · rw [inner_pruned, paths_pruned hp]
  · rw [walk_eq, walk_eq, found_eq_foundList, inner_pruned, List.map_cons, List.map_cons,
      own_pruned]
    exact (merged_prunedList p n.inner).left n.own
  · rw [found_eq_foundList, inner_pruned, found_eq hp, outermost_eq_nil hp hnone]
    rfl
  · apply eq_of_own_inner (own_pruned p _)
    rw [inner_pruned, inner_pruned, prunedList_prunedList hp]

end

theorem isAt_own (name : Text) (n : Node) : n.own.isAt name = n.isAt name := by cases n <;> rfl

/-- font faces at the top, in a group and around one another, with rules beside them -/
def nestedFaces : Node :=
  .sheet [.rule "a".toList "b".toList,
    .group "media".toList "print".toList
      [.block "font-face".toList [] "c".toList, .rule "d".toList [],
        .group "FONT-FACE".toList [] [.block "font-face".toList [] "e".toList, .rule [] []]],
    .block "font-face".toList [] "f".toList]

theorem pruned_found_merged_faces :
    (∀ n : Node, n.own.isAt "font-face".toList = n.isAt "font-face".toList) ∧
    nestedFaces.found (isAt "font-face".toList)
      = [.block "font-face".toList [] "c".toList,
        .group "FONT-FACE".toList [] [.block "font-face".toList [] "e".toList, .rule [] []],
        .block "font-face".toList [] "f".toList] ∧
    (nestedFaces.pruned (isAt "font-face".toList)).walk.map own
      = [.sheet [], .rule "a".toList "b".toList, .group "media".toList "print".toList [],
        .rule "d".toList []] ∧
    Merged ((nestedFaces.pruned (isAt "font-face".toList)).walk.map own)
      ((walkList (nestedFaces.found (isAt "font-face".toList))).map own)
      (nestedFaces.walk.map own) ∧
    (nestedFaces.pruned (isAt "font-face".toList)).found (isAt "font-face".toList) = [] := by
  have hown := isAt_own "font-face".toList
  obtain ⟨-, -, -, -, hmerged, hnone, -⟩ := pruned_found_merged hown nestedFaces
  exact ⟨hown, rfl, rfl, hmerged, hnone⟩

end Node

end PageTemplates.Css
