import PageTemplates.Proofs.Quiet

/-!
# What a template declares

The declarations of a template and the links that it hoists can be read off its tree.  An element
belongs to the innermost declaration around it, and a declaration whose name is taken is refused
with everything inside it.

* `Declarations.ownOf`        the elements that belong to the declaration around some nodes;
* `Declarations.nestedAll`    the declarations inside of a body;
* `Declarations.declaredAll`  the declarations of a file;
* `Declarations.hoisted?`     what a stylesheet link hoists;
* `Declarations.Outlined`     what a walk adds to the components of a session;
* `Declarations.Outlined.store`   a declaration from the walk through its body;
* `Declarations.bodyNodes_outlined`, `Declarations.discover_outlined`   what the walks add.
-/

namespace PageTemplates

namespace Declarations
open Session

/-! ## declarations in a tree -/

/-- an element that declares a component: the name in lower case, and what stands inside -/
structure Declared where
  name : Text
  body : List Html.Node

mutual
/-- the elements at and below a node that belong to the declaration around it, parents first -/
def own : Html.Node → List (Text × Attributes)
  | .text _ => []
  | .fragment children _ => ownOf children
  | .element name attributes children =>
    (name, attributes) :: if Role.ofName name = .component then [] else ownOf children
def ownOf : List Html.Node → List (Text × Attributes)
  | [] => []
  | n :: ns => own n ++ ownOf ns
end

mutual
/-- the declarations at and below a node of a body when some names are taken, outer ones first -/
def nested (taken : List Text) : Html.Node → List Declared
  | .text _ => []
  | .fragment children _ => nestedAll taken children
  | .element element attributes children =>
    if Role.ofName element = .component then
      match attributes.get? "name".toList with
      | none => []
      | some name =>
        if taken.contains (Text.lower name) then []
        else ⟨Text.lower name, children⟩ :: nestedAll (taken ++ [Text.lower name]) children
    else nestedAll taken children
def nestedAll (taken : List Text) : List Html.Node → List Declared
  | [] => []
  | n :: ns =>
    let first := nested taken n
    first ++ nestedAll (taken ++ first.map Declared.name) ns
end

/-- the declaration of a name with those inside it, unless the name is taken -/
def declaredAs (taken : List Text) (name : Text) (body : List Html.Node) : List Declared :=
  if taken.contains (Text.lower name) then []
  else ⟨Text.lower name, body⟩ :: nestedAll (taken ++ [Text.lower name]) body

mutual
/-- the declarations of a node at the top level -/
def declaredBy (isMain : Bool) (taken : List Text) : Html.Node → List Declared
  | .text _ => []
  | .fragment children _ => declaredAll isMain taken children
  | .element name attributes children =>
    match Role.ofName name with
    | .importing | .link | .style => []
    | .component => (attributes.get? "name".toList).elim [] (declaredAs taken · children)
    | .page => if isMain then declaredAs taken name children else []
    | .other => declaredAs taken name children
def declaredAll (isMain : Bool) (taken : List Text) : List Html.Node → List Declared
  | [] => []
  | n :: ns =>
    let first := declaredBy isMain taken n
    first ++ declaredAll isMain (taken ++ first.map Declared.name) ns
end

/-- the target and the attributes of a stylesheet link that is not inlined -/
def hoisted? (e : Text × Attributes) : Option (Text × Attributes) :=
  if Role.ofName e.1 = .link ∧ e.2.get? "rel".toList = some "stylesheet".toList ∧
      e.2.contains "inline".toList = false then
    (e.2.get? "href".toList).map (·, e.2)
  else none

/-- the links that belong to a declaration, in document order -/
def Declared.links (d : Declared) : List (Text × Attributes) := (ownOf d.body).filterMap hoisted?

mutual
/-- whether no element stands at or below the node -/
def isElementless : Html.Node → Bool
  | .text _ => true
  | .fragment children _ => areElementless children
  | .element _ _ _ => false
def areElementless : List Html.Node → Bool
  | [] => true
  | n :: ns => isElementless n && areElementless ns
end

mutual
/-- whether `import`, `link` and `style` elements hold no elements -/
def isRegular : Html.Node → Bool
  | .text _ => true
  | .fragment children _ => areRegular children
  | .element name _ children =>
    match Role.ofName name with
    | .importing | .link | .style => areElementless children
    | .component | .page | .other => areRegular children
def areRegular : List Html.Node → Bool
  | [] => true
  | n :: ns => isRegular n && areRegular ns
end

/-! ### trees without elements -/

mutual
theorem own_of_elementless {n : Html.Node} (h : isElementless n = true) : own n = [] := by
  cases n with
  | text run => rfl
  | fragment children _ => exact ownOf_of_elementless h
  | element name attributes children => cases h
theorem ownOf_of_elementless {ns : List Html.Node} (h : areElementless ns = true) :
    ownOf ns = [] := by
  cases ns with
  | nil => rfl
  | cons n ns =>
    obtain ⟨hn, hns⟩ := Bool.and_eq_true_iff.1 h
    rw [ownOf, own_of_elementless hn, ownOf_of_elementless hns, List.append_nil]
end

mutual
theorem nested_of_elementless (taken : List Text) {n : Html.Node} (h : isElementless n = true) :
    nested taken n = [] := by
  cases n with
  | text run => rfl
  | fragment children _ => exact nestedAll_of_elementless taken h
  | element name attributes children => cases h
theorem nestedAll_of_elementless (taken : List Text) {ns : List Html.Node}
    (h : areElementless ns = true) : nestedAll taken ns = [] := by
  cases ns with
  | nil => rfl
  | cons n ns =>
    obtain ⟨hn, hns⟩ := Bool.and_eq_true_iff.1 h
    rw [nestedAll, nested_of_elementless taken hn, nestedAll_of_elementless _ hns, List.append_nil]
end

mutual
theorem isRegular_of_elementless {n : Html.Node} (h : isElementless n = true) :
    isRegular n = true := by
  cases n with
  | text run => rfl
  | fragment children _ => exact areRegular_of_elementless h
  | element name attributes children => cases h
theorem areRegular_of_elementless {ns : List Html.Node} (h : areElementless ns = true) :
    areRegular ns = true := by
  cases ns with
  | nil => rfl
  | cons n ns =>
    obtain ⟨hn, hns⟩ := Bool.and_eq_true_iff.1 h
    rw [areRegular, isRegular_of_elementless hn, areRegular_of_elementless hns]
    rfl
end

end Declarations

/-! ## outlines -/

def Outline.addLinks (ls : List (Text × Attributes)) (e : Outline) : Outline :=
  { e with links := e.links ++ ls }

theorem Outline.addLinks_nil : addLinks [] = id := by
  funext e
  show Outline.mk e.template e.name (e.links ++ []) = e
  rw [List.append_nil]

theorem Outline.addLinks_comp (ls ls' : List (Text × Attributes)) :
    addLinks ls' ∘ addLinks ls = addLinks (ls ++ ls') := by
  funext e
  show Outline.mk e.template e.name (e.links ++ ls ++ ls') = _
  rw [List.append_assoc]
  rfl

namespace Declarations
open Session

def Declared.outline (template : TemplateId) (d : Declared) : Outline := ⟨template, d.name, d.links⟩

/-- the outlines after links have been added to those of `owner`, if there is one -/
def addTo (owner : Option ComponentId) (ls : List (Text × Attributes)) (es : List Outline) :
    List Outline :=
  match owner with
  | none => es
  | some id => es.modify id (Outline.addLinks ls)

theorem addTo_nil (owner : Option ComponentId) (es : List Outline) : addTo owner [] es = es := by
  cases owner with
  | none => rfl
  | some id =>
    show es.modify id (Outline.addLinks []) = es
    rw [Outline.addLinks_nil, List.modify_id]

theorem length_addTo (owner : Option ComponentId) (ls : List (Text × Attributes))
    (es : List Outline) : (addTo owner ls es).length = es.length := by
  cases owner with
  | none => rfl
  | some id => exact List.length_modify (Outline.addLinks ls) es id

/-- links that are added in two parts, the owner being among the first outlines -/
theorem addTo_append {owner : Option ComponentId} {es : List Outline}
    (howner : ∀ id ∈ owner, id < es.length) (ls ls' : List (Text × Attributes))
    (more : List Outline) :
    addTo owner ls' (addTo owner ls es ++ more) = addTo owner (ls ++ ls') es ++ more := by
  cases owner with
  | none => rfl
  | some id =>
    have hid : id < (es.modify id (Outline.addLinks ls)).length := by
      rw [List.length_modify]
      exact howner id rfl
    show (es.modify id _ ++ more).modify id _ = es.modify id _ ++ more
    rw [modify_append_of_lt _ hid, List.modify_modify_eq, Outline.addLinks_comp]

/-- the names that the template of `o` has declared so far -/
def taken? (o : Origin) (s : Session) : Option (List Text) :=
  s.catalog.templates[o.template]?.map fun t => t.tags.names

/-- a walk has added links to `owner` and declarations to the session -/
structure Outlined (o : Origin) (owner : Option ComponentId) (taken : List Text)
    (ls : List (Text × Attributes)) (ds : List Declared) (s s' : Session) : Prop where
  components : s'.catalog.components.map Component.outline
    = addTo owner ls (s.catalog.components.map Component.outline)
      ++ ds.map (Declared.outline o.template)
  names : taken? o s' = some (taken ++ ds.map Declared.name)

namespace Outlined
variable {o : Origin} {owner : Option ComponentId} {taken : List Text}
  {ls ls' : List (Text × Attributes)} {ds ds' : List Declared} {s s' s'' : Session}

/-- components are only added -/
theorem owned (h : Outlined o owner taken ls ds s s') {id : ComponentId}
    (hid : id < s.catalog.components.length) : id < s'.catalog.components.length := by
  have hlength := congrArg List.length h.components
  rw [List.length_map, List.length_append, length_addTo, List.length_map, List.length_map]
      at hlength
  exact Nat.lt_of_lt_of_le hid (hlength ▸ Nat.le_add_right _ _)

theorem append (howner : ∀ id ∈ owner, id < s.catalog.components.length)
    (h : Outlined o owner taken ls ds s s')
    (h' : Outlined o owner (taken ++ ds.map Declared.name) ls' ds' s' s'') :
    Outlined o owner taken (ls ++ ls') (ds ++ ds') s s'' := by
  have howner' : ∀ id ∈ owner, id < (s.catalog.components.map Component.outline).length := by
    rw [List.length_map]
    exact howner
  constructor
  · rw [h'.components, h.components, addTo_append howner', List.map_append, List.append_assoc]
  · rw [h'.names, List.map_append, List.append_assoc]

end Outlined

/-! ## what adds nothing -/

theorem Quiet.taken? {s s' : Session} {o : Origin} {taken : List Text} (h : Quiet s s')
    (hs : Declarations.taken? o s = some taken) : Declarations.taken? o s' = some taken := by
  obtain ⟨t, ht, rfl⟩ := Option.map_eq_some_iff.1 hs
  obtain ⟨t', ht', he⟩ := getElem?_of_map_prefix Template.tags h.tags ht
  unfold Declarations.taken?
  rw [ht', Option.map_some, he]

theorem Quiet.outlined {s s' : Session} {o : Origin} {taken : List Text} (h : Quiet s s')
    (hs : Declarations.taken? o s = some taken) (owner : Option ComponentId) :
    Outlined o owner taken [] [] s s' := by
  refine ⟨?_, ?_⟩
  · rw [addTo_nil, h.outlines]
    exact (List.append_nil _).symm
  · rw [h.taken? hs, List.map_nil, List.append_nil]

/-! ## links -/

section
variable {o : Origin} {taken : List Text}

theorem hoisted?_of_role {name : Text} (h : Role.ofName name ≠ .link) (attributes : Attributes) :
    hoisted? (name, attributes) = none := if_neg fun hl => h hl.1

/-- a link at the end of those of a component -/
theorem hoist_outlined {s s' : Session} (h : Quiet s s') (hs : taken? o s = some taken)
    (id : ComponentId) (l : Link) : Outlined o (some id) taken [l.written] [] s
      (s'.mapCatalog (·.modifyComponent id fun c => { c with links := c.links ++ [l] })) := by
  refine ⟨?_, (h.outlined hs none).names⟩
  have hlinks (d : Component) : Component.outline { d with links := d.links ++ [l] }
      = d.outline.addLinks [l.written] := by
    show Outline.mk d.template d.name ((d.links ++ [l]).map Link.written) = _
    rw [List.map_append]
    rfl
  rw [List.map_nil, List.append_nil]
  show (List.modify _ id _).map Component.outline = _
  rw [map_modify Component.outline _ (Outline.addLinks [l.written]) hlinks, h.outlines]
  rfl

/-- a stylesheet link of another template than the main one goes to the component around it -/
theorem link_outlined (hmain : o.isMain = false) {name : Text} (hname : Role.ofName name = .link)
    (attributes : Attributes) (owner : Option ComponentId) (s : Session)
    (hs : taken? o s = some taken) :
    Outlined o owner taken (hoisted? (name, attributes)).toList [] s
      (link o attributes owner s).2 := by
  unfold link
  dsimp only
  by_cases hrel : attributes.get? "rel".toList = some "stylesheet".toList
  · rw [if_pos hrel]
    unfold stylesheetLink
    cases hhref : attributes.get? "href".toList with
    | none =>
      have hnone : hoisted? (name, attributes) = none := by
        unfold hoisted?
        rw [hhref]
        exact ite_self _
      rw [hnone]
      exact (Quiet.of_eq rfl rfl : Quiet s (report o .stylesheetWithoutHref s)).outlined hs owner
    | some href =>
      have hsheet : Quiet s (addSheet o (s.importSheet href o.location).1
          (s.importSheet href o.location).2) :=
        (Still.importedSheet o href s).toQuiet
      cases hinline : attributes.contains "inline".toList with
      | true =>
        have hnone : hoisted? (name, attributes) = none :=
          if_neg fun hl => absurd (hinline.symm.trans hl.2.2) (by decide)
        rw [hnone]
        exact hsheet.outlined hs owner
      | false =>
        have hsome : hoisted? (name, attributes) = some (href, attributes) := by
          unfold hoisted?
          rw [if_pos ⟨hname, hrel, hinline⟩, hhref]
          rfl
        rw [hsome]
        cases owner with
        | none =>
          have hfile : Quiet s (modifyTemplate o
              (fun t => { t with links := t.links ++ [⟨(s.importSheet href o.location).1, href,
                attributes⟩] }) (addSheet o (s.importSheet href o.location).1
                (s.importSheet href o.location).2)) :=
            hsheet.trans (.modifyTemplate _ _ _ (fun _ => rfl))
          exact ⟨(hfile.outlined hs none).components, (hfile.outlined hs none).names⟩
        | some id =>
          dsimp only
          rw [if_neg Bool.false_ne_true, if_neg (hmain ▸ Bool.false_ne_true)]
          exact hoist_outlined hsheet hs id ⟨(s.importSheet href o.location).1, href, attributes⟩
  · have hnone : hoisted? (name, attributes) = none := if_neg fun hl => hrel hl.2.1
    rw [if_neg hrel, hnone]
    split
    · exact (Still.testDataLink o attributes s).toQuiet.outlined hs owner
    · exact (Quiet.refl s).outlined hs owner

/-! ## declarations -/

/-- a name that was free is the last one taken -/
theorem taken?_declared {s : Session} (hs : taken? o s = some taken) {name : Text}
    (hname : name ∉ taken) (params : Attributes) :
    taken? o (declared o name params s) = some (taken ++ [name]) := by
  obtain ⟨t, ht, rfl⟩ := Option.map_eq_some_iff.1 hs
  show (s.catalog.templates.modify _ _)[_]?.map _ = _
  rw [List.getElem?_modify_eq, ht]
  show some (t.tags.insert _ _).names = _
  unfold NameMap.names
  rw [NameMap.entries_insert_of_not_mem hname, List.map_append]
  rfl

/-- a new component has the links of the walk through its body, whatever the body is -/
theorem Outlined.store {name : Text} {tree : List Html.Node} {ds : List Declared}
    {params : Attributes} {s s' : Session}
    (h : Outlined o (some s.catalog.components.length) (taken ++ [name])
      ((ownOf tree).filterMap hoisted?) ds (declared o name params s) s')
    (owner : Option ComponentId) (body : List BodyNode) :
    Outlined o owner taken [] (⟨name, tree⟩ :: ds) s
      (s'.mapCatalog (·.modifyComponent s.catalog.components.length
        fun c => { c with body })) := by
  have hnew : (declared o name params s).catalog.components.map Component.outline
      = s.catalog.components.map Component.outline ++ [⟨o.template, name, []⟩] := List.map_append
  have hlast : addTo (some s.catalog.components.length) ((ownOf tree).filterMap hoisted?)
      (s.catalog.components.map Component.outline ++ [⟨o.template, name, []⟩])
      = s.catalog.components.map Component.outline
        ++ [Declared.outline o.template ⟨name, tree⟩] := by
    have h := modify_concat (Outline.addLinks ((ownOf tree).filterMap hoisted?))
      (s.catalog.components.map Component.outline) ⟨o.template, name, []⟩
    rw [List.length_map] at h
    exact h
  refine ⟨?_, ?_⟩
  · show (List.modify _ _ _).map Component.outline = _
    rw [map_modify_of_eq Component.outline (fun d => { d with body }) (fun _ => rfl), addTo_nil]
    refine h.components.trans ?_
    rw [hnew, hlast, List.append_assoc]
    rfl
  · refine h.names.trans ?_
    rw [List.append_assoc]
    rfl

theorem declareBody_outlined {body : List Html.Node}
    {walk : ComponentId → Session → List BodyNode × Session}
    (hw : ∀ (id : ComponentId) (s : Session) (taken : List Text), taken? o s = some taken →
      id < s.catalog.components.length →
      Outlined o (some id) taken ((ownOf body).filterMap hoisted?) (nestedAll taken body) s
        (walk id s).2)
    (name : Text) (params : Attributes) (owner : Option ComponentId) (s : Session)
    (hs : taken? o s = some taken) :
    Outlined o owner taken [] (declaredAs taken name body) s
      (declareBody o name params walk s) := by
  obtain ⟨t, ht, htaken⟩ := Option.map_eq_some_iff.1 hs
  unfold declareBody declare declaredAs
  dsimp only
  rw [ht]
  dsimp only
  by_cases hname : Text.lower name ∈ taken
  · rw [if_pos (List.contains_iff_mem.2 hname),
      if_pos (NameMap.contains_iff.2 (htaken.symm ▸ hname))]
    exact (Quiet.of_eq rfl rfl : Quiet s (report o _ s)).outlined hs owner
  · rw [if_neg (fun hc => hname (List.contains_iff_mem.1 hc)),
      if_neg (fun hc => hname (htaken ▸ NameMap.contains_iff.1 hc))]
    dsimp only
    have howned : s.catalog.components.length
        < (declared o (Text.lower name) params s).catalog.components.length := by
      show _ < (s.catalog.components ++ [_]).length
      rw [List.length_append]
      exact Nat.lt_succ_self _
    exact (hw s.catalog.components.length _ _ (taken?_declared hs hname params) howned).store
      owner _

theorem component_outlined {body : List Html.Node}
    {walk : ComponentId → Session → List BodyNode × Session}
    (hw : ∀ (id : ComponentId) (s : Session) (taken : List Text), taken? o s = some taken →
      id < s.catalog.components.length →
      Outlined o (some id) taken ((ownOf body).filterMap hoisted?) (nestedAll taken body) s
        (walk id s).2)
    (attributes : Attributes) (owner : Option ComponentId) (s : Session)
    (hs : taken? o s = some taken) :
    Outlined o owner taken []
      ((attributes.get? "name".toList).elim [] (declaredAs taken · body)) s
      (component o attributes walk s) := by
  unfold component
  cases attributes.get? "name".toList with
  | none => exact (Quiet.of_eq rfl rfl : Quiet s (report o .unnamedComponent s)).outlined hs owner
  | some name => exact declareBody_outlined hw name _ owner s hs

/-! ## walks -/

theorem links_element {name : Text} (h : Role.ofName name ≠ .component) (attributes : Attributes)
    (children : List Html.Node) : (own (.element name attributes children)).filterMap hoisted?
      = (hoisted? (name, attributes)).toList ++ (ownOf children).filterMap hoisted? := by
  rw [own, if_neg h]
  cases hlink : hoisted? (name, attributes) with
  | none => rw [List.filterMap_cons_none hlink]; rfl
  | some link => rw [List.filterMap_cons_some hlink]; rfl

theorem links_component {name : Text} (h : Role.ofName name = .component) (attributes : Attributes)
    (children : List Html.Node) :
    (own (.element name attributes children)).filterMap hoisted? = [] := by
  have hlink : Role.ofName name ≠ .link := h ▸ Role.noConfusion
  rw [own, if_pos h, List.filterMap_cons_none (hoisted?_of_role hlink attributes)]
  rfl

theorem nested_element {name : Text} (h : Role.ofName name ≠ .component) (attributes : Attributes)
    (children : List Html.Node) :
    nested taken (.element name attributes children) = nestedAll taken children := by
  rw [nested, if_neg h]

theorem nested_component {name : Text} (h : Role.ofName name = .component)
    (attributes : Attributes) (children : List Html.Node) :
    nested taken (.element name attributes children)
      = (attributes.get? "name".toList).elim [] (declaredAs taken · children) := by
  rw [nested, if_pos h]
  cases attributes.get? "name".toList <;> rfl

mutual
/-- a node of a body hoists the links that belong to its component, and declares the rest -/
theorem bodyNode_outlined (env : Env) (hmain : o.isMain = false) (owner : ComponentId)
    (n : Html.Node) (s : Session) (taken : List Text) (hs : taken? o s = some taken)
    (howner : owner < s.catalog.components.length) (hn : isRegular n = true) :
    Outlined o (some owner) taken ((own n).filterMap hoisted?) (nested taken n) s
      (bodyNode env o owner n s).2 := by
  cases n with
  | text run =>
    rw [bodyNode]
    exact (Quiet.refl s).outlined hs _
  | fragment children _ =>
    rw [bodyNode, own, nested]
    exact bodyNodes_outlined env hmain owner children s taken hs howner hn
  | element name attributes children =>
    -- a directive whose content is dropped
    have hdirective {s' : Session} (hq : Quiet s s') (hnone : areElementless children = true)
        (hlink : Role.ofName name ≠ .link) (hcomponent : Role.ofName name ≠ .component) :
        Outlined o (some owner) taken ((own (.element name attributes children)).filterMap hoisted?)
          (nested taken (.element name attributes children)) s s' := by
      rw [links_element hcomponent, hoisted?_of_role hlink, nested_element hcomponent,
        ownOf_of_elementless hnone, nestedAll_of_elementless _ hnone]
      exact hq.outlined hs _
    -- an element that stays
    have hplain (hchildren : areRegular children = true) (hlink : Role.ofName name ≠ .link)
        (hcomponent : Role.ofName name ≠ .component) :
        Outlined o (some owner) taken ((own (.element name attributes children)).filterMap hoisted?)
          (nested taken (.element name attributes children)) s
          (bodyNodes env o owner children s).2 := by
      rw [links_element hcomponent, hoisted?_of_role hlink, nested_element hcomponent]
      exact bodyNodes_outlined env hmain owner children s taken hs howner hchildren
    rw [isRegular] at hn
    rw [bodyNode]
    cases hrole : Role.ofName name with
    | importing =>
      rw [hrole] at hn
      exact hdirective (Still.importTemplate o attributes (some owner) s).toQuiet hn
        (hrole ▸ Role.noConfusion) (hrole ▸ Role.noConfusion)
    | style =>
      rw [hrole] at hn
      exact hdirective (.style env o attributes children s) hn (hrole ▸ Role.noConfusion)
        (hrole ▸ Role.noConfusion)
    | page =>
      rw [hrole] at hn
      exact hplain hn (hrole ▸ Role.noConfusion) (hrole ▸ Role.noConfusion)
    | other =>
      rw [hrole] at hn
      exact hplain hn (hrole ▸ Role.noConfusion) (hrole ▸ Role.noConfusion)
    | component =>
      rw [hrole] at hn
      rw [links_component hrole, nested_component hrole]
      exact component_outlined
        (fun id s taken hs hid => bodyNodes_outlined env hmain id children s taken hs hid hn)
        attributes (some owner) s hs
    | link =>
      rw [hrole] at hn
      have hcomponent : Role.ofName name ≠ .component := hrole ▸ Role.noConfusion
      have hlink := link_outlined hmain hrole attributes (some owner) s hs
      rw [links_element hcomponent, nested_element hcomponent]
      dsimp only
      cases hfate : link o attributes (some owner) s with
      | mk fate s' =>
        rw [hfate] at hlink
        have hnames : taken? o s' = some taken := by
          rw [hlink.names, List.map_nil, List.append_nil]
        have hbelow := bodyNodes_outlined env hmain owner children s' taken hnames
          (hlink.owned howner) (areRegular_of_elementless hn)
        rw [ownOf_of_elementless hn, nestedAll_of_elementless _ hn] at hbelow ⊢
        rw [List.filterMap_nil, List.append_nil]
        cases fate with
        | gone => exact hlink
        | inlined sheet more => exact hlink
        | kept =>
          have hboth := hlink.append (fun id hid => Option.some.inj hid ▸ howner)
            (by rwa [List.map_nil, List.append_nil])
          rw [List.filterMap_nil, List.append_nil] at hboth
          exact hboth
theorem bodyNodes_outlined (env : Env) (hmain : o.isMain = false) (owner : ComponentId)
    (ns : List Html.Node) (s : Session) (taken : List Text) (hs : taken? o s = some taken)
    (howner : owner < s.catalog.components.length) (hns : areRegular ns = true) :
    Outlined o (some owner) taken ((ownOf ns).filterMap hoisted?) (nestedAll taken ns) s
      (bodyNodes env o owner ns s).2 := by
  cases ns with
  | nil =>
    rw [bodyNodes]
    exact (Quiet.refl s).outlined hs _
  | cons n ns =>
    obtain ⟨hn, hns⟩ := Bool.and_eq_true_iff.1 hns
    have hfirst := bodyNode_outlined env hmain owner n s taken hs howner hn
    have hothers := bodyNodes_outlined env hmain owner ns _ _ hfirst.names (hfirst.owned howner) hns
    rw [bodyNodes, ownOf, nestedAll, List.filterMap_append]
    exact hfirst.append (fun id hid => Option.some.inj hid ▸ howner) hothers
end

/-- an element at the top level of another file than the main one declares what it should -/
theorem topElement_outlined (env : Env) (hmain : o.isMain = false) (name : Text)
    (attributes : Attributes) (children : List Html.Node) (s : Session)
    (hs : taken? o s = some taken) (hn : isRegular (.element name attributes children) = true) :
    Outlined o none taken [] (declaredBy false taken (.element name attributes children)) s
      (topElement env o name attributes children s) := by
  have hw (hchildren : areRegular children = true) (id : ComponentId) (s : Session)
      (taken : List Text) (hs : taken? o s = some taken) (hid : id < s.catalog.components.length) :
      Outlined o (some id) taken ((ownOf children).filterMap hoisted?) (nestedAll taken children) s
        (bodyNodes env o id children s).2 :=
    bodyNodes_outlined env hmain id children s taken hs hid hchildren
  rw [isRegular] at hn
  rw [declaredBy]
  unfold topElement
  cases hrole : Role.ofName name with
  | importing => exact (Still.importTemplate o attributes none s).toQuiet.outlined hs none
  | style => exact (Quiet.style env o attributes children s).outlined hs none
  | link =>
    have hlink := link_outlined hmain hrole attributes none s hs
    exact ⟨hlink.components, hlink.names⟩
  | component =>
    rw [hrole] at hn
    exact component_outlined (hw hn) attributes none s hs
  | page =>
    dsimp only
    rw [hmain]
    exact (Quiet.of_eq rfl rfl : Quiet s (report o .misplacedHtml s)).outlined hs none
  | other =>
    rw [hrole] at hn
    have hnames : taken? o (if Html.isStandard name then report o (.shadowsElement name) s else s)
        = some taken := by
      split <;> exact hs
    have hbody := declareBody_outlined (hw hn) name attributes none _ hnames
    refine ⟨hbody.components.trans ?_, hbody.names⟩
    congr 2
    split <;> rfl

mutual
theorem topNode_outlined (env : Env) (hmain : o.isMain = false) (n : Html.Node) (s : Session)
    (taken : List Text) (hs : taken? o s = some taken) (hn : isRegular n = true) :
    Outlined o none taken [] (declaredBy false taken n) s (topNode env o n s) := by
  cases n with
  | text run =>
    rw [topNode]
    split
    · exact (Quiet.refl s).outlined hs none
    · exact (Quiet.of_eq rfl rfl : Quiet s (report o _ s)).outlined hs none
  | fragment children _ =>
    rw [topNode, declaredBy]
    exact topNodes_outlined env hmain children s taken hs hn
  | element name attributes children =>
    rw [topNode]
    exact topElement_outlined env hmain name attributes children s hs hn
theorem topNodes_outlined (env : Env) (hmain : o.isMain = false) (ns : List Html.Node)
    (s : Session) (taken : List Text) (hs : taken? o s = some taken)
    (hns : areRegular ns = true) :
    Outlined o none taken [] (declaredAll false taken ns) s (topNodes env o ns s) := by
  cases ns with
  | nil =>
    rw [topNodes]
    exact (Quiet.refl s).outlined hs none
  | cons n ns =>
    obtain ⟨hn, hns⟩ := Bool.and_eq_true_iff.1 hns
    have hfirst := topNode_outlined env hmain n s taken hs hn
    have hothers := topNodes_outlined env hmain ns _ _ hfirst.names hns
    rw [topNodes, declaredAll]
    exact hfirst.append (fun id hid => absurd hid (Option.not_mem_none id)) hothers
end

/-- a file that is not the main one declares what its tree says, with the links in it -/
theorem discover_outlined (env : Env) (hmain : o.isMain = false) (f : Html.Fragment) (s : Session)
    (hs : taken? o s = some taken) (hf : areRegular f.children = true) :
    Outlined o none taken [] (declaredAll false taken f.children) s (discover env o f s) := by
  unfold discover
  rw [hmain]
  exact topNodes_outlined env hmain f.children s taken hs hf

end

end Declarations

end PageTemplates
