import Mathlib.Logic.Relation
import PageTemplates.PageLinks

/-!
# Components in the order of their first use

The walk through the components of a page, said without tasks: it goes down into a component at
its first use, then into what that use captures, and comes back with what it has met.

* `OutputNode.usesOf`     the components that some nodes use, at any depth;
* `LinkWalk.Walked`       what a walk through some nodes meets, from one trail to another;
* `LinkWalk.Met`          what a walk from a component meets;
* `visit_eq`              the tasks come to the same links in the same order;
* `LinkWalk.Covers`       all that a walk uses is met, which gives `Met.mem_iff`;
* `exists_met`            every walk ends, whatever the components use;
* `firstOfEachSheet_eq`   one link for each sheet.
-/

namespace PageTemplates

/-! ## uses -/

namespace OutputNode

/-- the component that a node is a use of -/
def target? : OutputNode → Option ComponentId
  | .custom target _ _ _ => some target
  | _ => none

mutual
/-- the components that a node uses, at any depth, also in what is captured -/
def uses : OutputNode → List ComponentId
  | .text _ | .expression _ => []
  | .tag _ _ children => usesOf children
  | .custom target _ _ captured => target :: usesOf captured
  | .cond _ children => usesOf children
  | .repetition _ children => usesOf children
def usesOf : List OutputNode → List ComponentId
  | [] => []
  | n :: ns => n.uses ++ usesOf ns
end

theorem uses_eq (n : OutputNode) : n.uses = n.target?.toList ++ usesOf n.children := by
  cases n <;> simp [uses, target?, children, usesOf]

theorem usesOf_cons (n : OutputNode) (ns : List OutputNode) :
    usesOf (n :: ns) = n.target?.toList ++ usesOf n.children ++ usesOf ns := by
  rw [usesOf, uses_eq]

theorem mem_usesOf {id : ComponentId} {ns : List OutputNode} :
    id ∈ usesOf ns ↔ ∃ n ∈ ns, id ∈ n.uses := by
  induction ns with
  | nil => simp [usesOf]
  | cons n ns ih => simp [usesOf, ih]

theorem sizeOf_children_lt (n : OutputNode) : sizeOf n.children < 1 + sizeOf n := by
  cases n <;> simp [children] <;> omega

/-- what holds of nodes if it holds of those below the first one and of those behind it -/
@[elab_as_elim]
theorem nodes_induction {motive : List OutputNode → Prop} (nil : motive [])
    (cons : ∀ n ns, motive n.children → motive ns → motive (n :: ns)) : ∀ ns, motive ns
  | [] => nil
  | n :: ns => cons n ns (nodes_induction nil cons n.children) (nodes_induction nil cons ns)
termination_by ns => sizeOf ns
decreasing_by
  · have h := n.sizeOf_children_lt
    rw [List.cons.sizeOf_spec]
    omega
  · rw [List.cons.sizeOf_spec]
    omega

end OutputNode

open OutputNode (usesOf)

theorem LinkTask.ofNode_of_none {n : OutputNode} (h : n.target? = none) :
    LinkTask.ofNode n = n.children.map .node := by
  cases n with
  | custom => cases h
  | _ => rfl

theorem LinkTask.ofNode_of_some {n : OutputNode} {id : ComponentId} (h : n.target? = some id) :
    LinkTask.ofNode n = .enter id :: n.children.map .node := by
  cases n with
  | custom =>
    cases h
    rfl
  | _ => cases h

/-! ## walks -/

/-- the components that have been used, and the templates whose links have been met -/
structure Trail where
  components : List ComponentId
  templates : List TemplateId

namespace Trail

def empty : Trail := ⟨[], []⟩

def enter (t : Trail) (id : ComponentId) (c : Component) : Trail :=
  ⟨id :: t.components, c.template :: t.templates⟩

end Trail

namespace LinkWalk

/-- the links of a component, and those of its template if they have not been met -/
def linksAt (w : LinkWalk) (t : Trail) (c : Component) : List Link :=
  c.links ++ if c.template ∈ t.templates then [] else w.templateLinks c.template

/-- the links that a walk through some nodes meets, in order, from one trail to another: the first
use of a component comes before the content that it captures, and that before the nodes behind it;
of a further use only the content counts -/
inductive Walked (w : LinkWalk) : Trail → List OutputNode → List Link → Trail → Prop where
  | nil (t : Trail) : Walked w t [] [] t
  | plain {t t' t'' : Trail} {n : OutputNode} {ns : List OutputNode} {ls ls' : List Link}
      (h : n.target? = none) (below : Walked w t n.children ls t')
      (behind : Walked w t' ns ls' t'') : Walked w t (n :: ns) (ls ++ ls') t''
  | again {t t' t'' : Trail} {n : OutputNode} {id : ComponentId} {ns : List OutputNode}
      {ls ls' : List Link} (h : n.target? = some id) (entered : id ∈ t.components)
      (captured : Walked w t n.children ls t') (behind : Walked w t' ns ls' t'') :
      Walked w t (n :: ns) (ls ++ ls') t''
  | first {t t' t'' t''' : Trail} {n : OutputNode} {id : ComponentId} {c : Component}
      {ns : List OutputNode} {ls ls' ls'' : List Link} (h : n.target? = some id)
      (new : id ∉ t.components) (found : w.components[id]? = some c)
      (body : Walked w (t.enter id c) c.nodes ls t') (captured : Walked w t' n.children ls' t'')
      (behind : Walked w t'' ns ls'' t''') :
      Walked w t (n :: ns) (w.linksAt t c ++ ls ++ (ls' ++ ls'')) t'''

/-- the links that the walk from a component meets, in order -/
inductive Met (w : LinkWalk) (root : ComponentId) : List Link → Prop where
  | intro {c : Component} {ls : List Link} {t : Trail} (found : w.components[root]? = some c)
      (body : Walked w (Trail.empty.enter root c) c.nodes ls t) :
      Met w root (w.linksAt .empty c ++ ls)

variable {w : LinkWalk}

/-! ## tasks -/

theorem visit_nil (entered : List ComponentId) (templates : List TemplateId) :
    w.visit entered templates [] = [] := by
  rw [visit]

theorem visit_node (entered : List ComponentId) (templates : List TemplateId) (n : OutputNode)
    (tasks : List LinkTask) : w.visit entered templates (.node n :: tasks)
      = w.visit entered templates (LinkTask.ofNode n ++ tasks) := by
  rw [visit]

theorem visit_enter_of_mem (t : Trail) {id : ComponentId} (h : id ∈ t.components)
    (tasks : List LinkTask) : w.visit t.components t.templates (.enter id :: tasks)
      = w.visit t.components t.templates tasks := by
  rw [visit, dif_pos h]

theorem visit_enter_of_not_mem (t : Trail) {id : ComponentId} {c : Component}
    (h : id ∉ t.components) (found : w.components[id]? = some c) (tasks : List LinkTask) :
    w.visit t.components t.templates (.enter id :: tasks) = w.linksAt t c
      ++ w.visit (t.enter id c).components (t.enter id c).templates
        (c.nodes.map .node ++ tasks) := by
  rw [visit, dif_neg h]
  split
  · next hnone =>
    rw [found] at hnone
    cases hnone
  · next c' hsome =>
    obtain rfl := Option.some.inj (found.symm.trans hsome)
    rfl

/-- the tasks come to the links of the walk, and go on from where it ends -/
theorem visit_eq {t t' : Trail} {ns : List OutputNode} {ls : List Link} (h : Walked w t ns ls t')
    (tasks : List LinkTask) : w.visit t.components t.templates (ns.map .node ++ tasks)
      = ls ++ w.visit t'.components t'.templates tasks := by
  induction h generalizing tasks with
  | nil => rfl
  | plain h _ _ below behind =>
    rw [List.map_cons, List.cons_append, visit_node, LinkTask.ofNode_of_none h, below, behind,
      List.append_assoc]
  | again h entered _ _ captured behind =>
    rw [List.map_cons, List.cons_append, visit_node, LinkTask.ofNode_of_some h, List.cons_append,
      visit_enter_of_mem _ entered, captured, behind, List.append_assoc]
  | first h new found _ _ _ body captured behind =>
    rw [List.map_cons, List.cons_append, visit_node, LinkTask.ofNode_of_some h, List.cons_append,
      visit_enter_of_not_mem _ new found, body, captured, behind]
    simp only [List.append_assoc]

theorem visit_of_met {root : ComponentId} {ls : List Link} (h : w.Met root ls) :
    w.visit [] [] [.enter root] = ls := by
  obtain ⟨found, body⟩ := h
  have henter := visit_enter_of_not_mem Trail.empty List.not_mem_nil found []
  rw [visit_eq body, visit_nil, List.append_nil] at henter
  exact henter

/-! ## nothing is left out -/

/-- what a walk from one trail to another has met: all links of the components that it has used,
and of their templates -/
structure Covers (w : LinkWalk) (t : Trail) (ls : List Link) (t' : Trail) : Prop where
  components : t.components ⊆ t'.components
  templates : t.templates ⊆ t'.templates
  used : ∀ id ∈ t'.components, id ∉ t.components → ∃ c, w.components[id]? = some c ∧
    usesOf c.nodes ⊆ t'.components ∧ c.links ⊆ ls ∧ c.template ∈ t'.templates
  met : ∀ id ∈ t'.templates, id ∉ t.templates → w.templateLinks id ⊆ ls

namespace Covers
variable {t t' t'' : Trail} {ls ls' : List Link}

theorem refl (t : Trail) : w.Covers t [] t :=
  ⟨List.Subset.refl _, List.Subset.refl _, fun _ h hn => absurd h hn, fun _ h hn => absurd h hn⟩

theorem trans (h : w.Covers t ls t') (h' : w.Covers t' ls' t'') : w.Covers t (ls ++ ls') t'' := by
  refine ⟨List.Subset.trans h.components h'.components,
    List.Subset.trans h.templates h'.templates, ?_, ?_⟩
  · intro id hid hnew
    by_cases hmid : id ∈ t'.components
    · obtain ⟨c, found, huses, hlinks, htemplate⟩ := h.used id hmid hnew
      exact ⟨c, found, List.Subset.trans huses h'.components,
        List.subset_append_of_subset_left _ hlinks, h'.templates htemplate⟩
    · obtain ⟨c, found, huses, hlinks, htemplate⟩ := h'.used id hid hmid
      exact ⟨c, found, huses, List.subset_append_of_subset_right _ hlinks, htemplate⟩
  · intro id hid hnew
    by_cases hmid : id ∈ t'.templates
    · exact List.subset_append_of_subset_left _ (h.met id hmid hnew)
    · exact List.subset_append_of_subset_right _ (h'.met id hid hmid)

/-- from the walk of a body to that of its component -/
theorem enter {id : ComponentId} {c : Component} (found : w.components[id]? = some c)
    (h : w.Covers (t.enter id c) ls t') (huses : usesOf c.nodes ⊆ t'.components) :
    w.Covers t (w.linksAt t c ++ ls) t' := by
  refine ⟨(List.cons_subset.1 h.components).2, (List.cons_subset.1 h.templates).2, ?_, ?_⟩
  · intro i hi hnew
    by_cases hid : i = id
    · subst hid
      exact ⟨c, found, huses,
        List.subset_append_of_subset_left _ (List.subset_append_left _ _),
        h.templates List.mem_cons_self⟩
    · obtain ⟨d, hd, hd'⟩ := h.used i hi (List.not_mem_cons_of_ne_of_not_mem hid hnew)
      exact ⟨d, hd, hd'.1, List.subset_append_of_subset_right _ hd'.2.1, hd'.2.2⟩
  · intro i hi hnew
    by_cases hid : i = c.template
    · subst hid
      unfold linksAt
      rw [if_neg hnew]
      exact List.subset_append_of_subset_left _ (List.subset_append_right _ _)
    · exact List.subset_append_of_subset_right _
        (h.met i hi (List.not_mem_cons_of_ne_of_not_mem hid hnew))

end Covers

theorem usesOf_cons_subset {n : OutputNode} {ns : List OutputNode} {ids : List ComponentId}
    (htarget : ∀ id, n.target? = some id → id ∈ ids) (hbelow : usesOf n.children ⊆ ids)
    (hbehind : usesOf ns ⊆ ids) : usesOf (n :: ns) ⊆ ids := by
  rw [OutputNode.usesOf_cons]
  refine List.append_subset.2 ⟨List.append_subset.2 ⟨?_, hbelow⟩, hbehind⟩
  intro id hid
  exact htarget id (Option.mem_toList.1 hid)

/-- a walk covers what it uses -/
theorem Walked.covers {t t' : Trail} {ns : List OutputNode} {ls : List Link}
    (h : Walked w t ns ls t') : w.Covers t ls t' ∧ usesOf ns ⊆ t'.components := by
  induction h with
  | nil t => exact ⟨.refl t, List.nil_subset _⟩
  | plain h _ _ below behind =>
    refine ⟨below.1.trans behind.1, usesOf_cons_subset ?_ ?_ behind.2⟩
    · intro id hid
      rw [h] at hid
      cases hid
    · exact List.Subset.trans below.2 behind.1.components
  | again h entered _ _ captured behind =>
    have hall := captured.1.trans behind.1
    refine ⟨hall, usesOf_cons_subset ?_ (List.Subset.trans captured.2 behind.1.components)
      behind.2⟩
    intro id hid
    obtain rfl := Option.some.inj (h.symm.trans hid)
    exact hall.components entered
  | first h new found _ _ _ body captured behind =>
    have hrest := captured.1.trans behind.1
    refine ⟨(body.1.enter found body.2).trans hrest,
      usesOf_cons_subset ?_ (List.Subset.trans captured.2 behind.1.components) behind.2⟩
    intro id hid
    obtain rfl := Option.some.inj (h.symm.trans hid)
    exact hrest.components (body.1.components List.mem_cons_self)

/-- the walk meets links of components in any set that holds what it uses and what they use -/
theorem Walked.origin {t t' : Trail} {ns : List OutputNode} {ls : List Link}
    (h : Walked w t ns ls t') {P : ComponentId → Prop}
    (closed : ∀ id c, P id → w.components[id]? = some c → ∀ i ∈ usesOf c.nodes, P i)
    (hns : ∀ id ∈ usesOf ns, P id) {l : Link} (hl : l ∈ ls) :
    ∃ id c, P id ∧ w.components[id]? = some c ∧ (l ∈ c.links ∨ l ∈ w.templateLinks c.template) := by
  induction h with
  | nil => cases hl
  | plain h _ _ below behind =>
    simp only [OutputNode.usesOf_cons, List.mem_append] at hns
    rcases List.mem_append.1 hl with hl | hl
    · exact below (fun id hid => hns id (.inl (.inr hid))) hl
    · exact behind (fun id hid => hns id (.inr hid)) hl
  | again h entered _ _ captured behind =>
    simp only [OutputNode.usesOf_cons, List.mem_append] at hns
    rcases List.mem_append.1 hl with hl | hl
    · exact captured (fun id hid => hns id (.inl (.inr hid))) hl
    · exact behind (fun id hid => hns id (.inr hid)) hl
  | @first t t' _ _ n id c _ _ _ _ h new found _ _ _ body captured behind =>
    simp only [OutputNode.usesOf_cons, List.mem_append] at hns
    have hid : P id := hns id (.inl (.inl (Option.mem_toList.2 h)))
    rcases List.mem_append.1 hl with hl | hl
    · rcases List.mem_append.1 hl with hl | hl
      · refine ⟨id, c, hid, found, ?_⟩
        rcases List.mem_append.1 hl with hl | hl
        · exact .inl hl
        · split at hl
          · cases hl
          · exact .inr hl
      · exact body (closed id c hid found) hl
    · rcases List.mem_append.1 hl with hl | hl
      · exact captured (fun i hi => hns i (.inl (.inr hi))) hl
      · exact behind (fun i hi => hns i (.inr hi)) hl

/-- whether a component is used by another one, directly or through others, or is that one -/
def Reaches (w : LinkWalk) : ComponentId → ComponentId → Prop :=
  Relation.ReflTransGen fun id used => ∃ c, w.components[id]? = some c ∧ used ∈ usesOf c.nodes

/-- what a walk has used reaches nothing that it has not used -/
theorem Covers.reached {t : Trail} {ls : List Link} (h : w.Covers .empty ls t)
    {root id : ComponentId} (hroot : root ∈ t.components) (hreach : w.Reaches root id) :
    id ∈ t.components := by
  induction hreach with
  | refl => exact hroot
  | tail _ hstep ih =>
    obtain ⟨c, hc, huse⟩ := hstep
    obtain ⟨d, hd, huses, _⟩ := h.used _ ih List.not_mem_nil
    obtain rfl := Option.some.inj (hc.symm.trans hd)
    exact huses huse

/-- the walk from a component meets the links of the components that it reaches, and of their
templates, and no others -/
theorem Met.mem_iff {root : ComponentId} {ls : List Link} (h : w.Met root ls) {l : Link} :
    l ∈ ls ↔ ∃ id c, w.Reaches root id ∧ w.components[id]? = some c ∧
      (l ∈ c.links ∨ l ∈ w.templateLinks c.template) := by
  obtain @⟨c, ls, t, found, body⟩ := h
  obtain ⟨hbody, huses⟩ := body.covers
  have hcovers := hbody.enter found huses
  constructor
  · intro hl
    -- the walk is that of a page with one use of the root
    have hwalked : Walked w .empty [.custom root [] .empty []]
        (w.linksAt .empty c ++ ls ++ ([] ++ [])) t :=
      .first rfl List.not_mem_nil found body (.nil _) (.nil _)
    refine hwalked.origin (P := w.Reaches root) ?_ ?_ (List.mem_append_left _ hl)
    · intro id c hid hc i hi
      exact hid.tail ⟨c, hc, hi⟩
    · intro id hid
      obtain rfl : id = root := by simpa [OutputNode.usesOf, OutputNode.uses] using hid
      exact .refl
  · rintro ⟨id, d, hreach, hd, hl⟩
    have hused := hcovers.reached (hbody.components List.mem_cons_self) hreach
    obtain ⟨e, he, _, hlinks, htemplate⟩ := hcovers.used id hused List.not_mem_nil
    obtain rfl := Option.some.inj (hd.symm.trans he)
    rcases hl with hl | hl
    · exact hlinks hl
    · exact hcovers.met _ htemplate List.not_mem_nil hl

/-! ## every walk ends -/

/-- every use stands for a component -/
def Closed (w : LinkWalk) : Prop :=
  ∀ c ∈ w.components, ∀ id ∈ usesOf c.nodes, id < w.components.length

theorem length_fresh_le {entered entered' : List ComponentId} (h : entered ⊆ entered') :
    (w.fresh entered').length ≤ (w.fresh entered).length := by
  unfold fresh
  rw [← List.countP_eq_length_filter, ← List.countP_eq_length_filter]
  apply List.countP_mono_left
  intro id _ hid
  rw [Bool.not_eq_true', ← Bool.not_eq_true, List.contains_iff_mem] at hid ⊢
  exact fun hm => hid (h hm)

/-- there is a walk through any nodes.  The induction is on the number of components that have not
been used, and in it on the nodes: a body is walked with one component less, and what is captured
and what stands behind with no more of them. -/
theorem exists_walked (closed : w.Closed) (k : Nat) (ns : List OutputNode) (t : Trail)
    (hns : ∀ id ∈ usesOf ns, id < w.components.length)
    (hk : (w.fresh t.components).length ≤ k) : ∃ ls t', Walked w t ns ls t' := by
  induction k using Nat.strongRecOn generalizing ns t with
  | _ k fewer =>
    induction ns using OutputNode.nodes_induction generalizing t with
    | nil => exact ⟨[], t, .nil t⟩
    | cons n ns below behind =>
      simp only [OutputNode.usesOf_cons, List.mem_append] at hns
      have hbelow (id : ComponentId) (hid : id ∈ usesOf n.children) : id < w.components.length :=
        hns id (.inl (.inr hid))
      have hbehind (id : ComponentId) (hid : id ∈ usesOf ns) : id < w.components.length :=
        hns id (.inr hid)
      have hless {t t' : Trail} {ns : List OutputNode} {ls : List Link}
          (h : Walked w t ns ls t') (hk : (w.fresh t.components).length ≤ k) :
          (w.fresh t'.components).length ≤ k :=
        Nat.le_trans (length_fresh_le h.covers.1.components) hk
      cases hn : n.target? with
      | none =>
        obtain ⟨ls, t', h⟩ := below t hbelow hk
        obtain ⟨ls', t'', h'⟩ := behind t' hbehind (hless h hk)
        exact ⟨_, t'', .plain hn h h'⟩
      | some id =>
        by_cases hid : id ∈ t.components
        · obtain ⟨ls, t', h⟩ := below t hbelow hk
          obtain ⟨ls', t'', h'⟩ := behind t' hbehind (hless h hk)
          exact ⟨_, t'', .again hn hid h h'⟩
        · have hlt : id < w.components.length := hns id (.inl (.inl (Option.mem_toList.2 hn)))
          have found := List.getElem?_eq_getElem hlt
          have hfresh := length_fresh_lt hlt hid
          obtain ⟨ls, t', hbody⟩ := fewer _ (Nat.lt_of_lt_of_le hfresh hk) w.components[id].nodes
            (t.enter id w.components[id]) (closed _ (List.getElem_mem hlt)) (Nat.le_refl _)
          have hk' := hless hbody (Nat.le_trans (Nat.le_of_lt hfresh) hk)
          obtain ⟨ls', t'', h'⟩ := below t' hbelow hk'
          obtain ⟨ls'', t''', h''⟩ := behind t'' hbehind (hless h' hk')
          exact ⟨_, t''', .first hn hid found hbody h' h''⟩

theorem exists_met (closed : w.Closed) {root : ComponentId} (hroot : root < w.components.length) :
    ∃ ls, w.Met root ls := by
  obtain ⟨ls, t, body⟩ := exists_walked closed _ w.components[root].nodes
    (Trail.empty.enter root w.components[root]) (closed _ (List.getElem_mem hroot)) (Nat.le_refl _)
  exact ⟨_, .intro (List.getElem?_eq_getElem hroot) body⟩

end LinkWalk

/-! ## one link for each sheet -/

theorem firstOfEachSheet_eq (seen : List SheetId) (ls : List Link) : firstOfEachSheet seen ls
    = (ls.filter fun l => !seen.contains l.sheet).eraseDupsBy fun l l' => l.sheet == l'.sheet := by
  induction ls generalizing seen with
  | nil => rfl
  | cons l ls ih =>
    rw [firstOfEachSheet, List.filter_cons]
    by_cases h : l.sheet ∈ seen
    · rw [if_pos h, List.contains_iff_mem.2 h, ih]
      rfl
    · have hkeep : (!seen.contains l.sheet) = true := by
        rw [Bool.not_eq_true', ← Bool.not_eq_true, List.contains_iff_mem]
        exact h
      rw [if_neg h, if_pos hkeep, List.eraseDupsBy_cons, ih, List.filter_filter]
      congr 2
      apply List.filter_congr
      intro l' _
      rw [List.contains_cons, Bool.not_or, Bool.decide_eq_false]

theorem firstOfEachSheet_subset (seen : List SheetId) (ls : List Link) :
    firstOfEachSheet seen ls ⊆ ls := by
  induction ls generalizing seen with
  | nil => exact List.Subset.refl _
  | cons l ls ih =>
    rw [firstOfEachSheet]
    split
    · exact List.subset_cons_of_subset _ (ih seen)
    · exact List.cons_subset_cons _ (ih _)

theorem exists_mem_firstOfEachSheet {seen : List SheetId} {ls : List Link} {l : Link} (hl : l ∈ ls)
    (hnew : l.sheet ∉ seen) : ∃ l' ∈ firstOfEachSheet seen ls, l'.sheet = l.sheet := by
  induction ls generalizing seen with
  | nil => cases hl
  | cons m ls ih =>
    rw [firstOfEachSheet]
    by_cases hm : m.sheet ∈ seen
    · rw [if_pos hm]
      rcases List.mem_cons.1 hl with rfl | hl
      · exact absurd hm hnew
      · exact ih hl hnew
    · rw [if_neg hm]
      by_cases hsame : m.sheet = l.sheet
      · exact ⟨m, List.mem_cons_self, hsame⟩
      · rcases List.mem_cons.1 hl with rfl | hl
        · exact absurd rfl hsame
        · obtain ⟨l', hl', hs⟩ :=
            ih hl (List.not_mem_cons_of_ne_of_not_mem (Ne.symm hsame) hnew)
          exact ⟨l', List.mem_cons_of_mem _ hl', hs⟩

theorem nodup_firstOfEachSheet (seen : List SheetId) (ls : List Link) :
    ((firstOfEachSheet seen ls).map Link.sheet).Nodup ∧
      ∀ l ∈ firstOfEachSheet seen ls, l.sheet ∉ seen := by
  induction ls generalizing seen with
  | nil => exact ⟨List.nodup_nil, fun l hl => absurd hl List.not_mem_nil⟩
  | cons l ls ih =>
    rw [firstOfEachSheet]
    by_cases h : l.sheet ∈ seen
    · rw [if_pos h]
      exact ih seen
    · rw [if_neg h]
      obtain ⟨hnodup, hnew⟩ := ih (l.sheet :: seen)
      refine ⟨?_, ?_⟩
      · rw [List.map_cons, List.nodup_cons]
        refine ⟨?_, hnodup⟩
        intro hm
        obtain ⟨l', hl', hs⟩ := List.mem_map.1 hm
        exact hnew l' hl' (hs ▸ List.mem_cons_self)
      · intro l' hl'
        rcases List.mem_cons.1 hl' with rfl | hl'
        · exact h
        · exact fun hm => hnew l' hl' (List.mem_cons_of_mem _ hm)

end PageTemplates
