import Mathlib.Logic.Relation
import PageTemplates.Loading
import PageTemplates.Proofs.Numbered

/-!
# What discovery can do to a session

The walk through a parsed template changes the session by a few kinds of moves only (`Move`): it
reports, declares a component, stores a body, and carries out the directives.  Every property of
loaded catalogs is derived from that.

* `Grows`           what is registered stays registered, under its number;
* `Move`            one change, with what is known of its arguments;
* `Settled`         what stands in a body that discovery has left: no directive at any depth, and
                    only styles whose sheets are registered;
* `discover_moves`  a whole walk is a sequence of moves;
* `run_induction`   what every job keeps holds after a run.
-/

namespace PageTemplates

/-- a resource that could not be read or understood -/
def Problem.isFailure : Problem → Bool
  | .resource _ | .cssFailure _ => true
  | _ => false

/-! ## growth -/

/-- what never changes of a registered template, sheet or component -/
def Template.place (t : Template) : TemplateId × Location × Bool := (t.id, t.location, t.isMain)
def Sheet.place (s : Sheet) : SheetId × Location × Bool × Bool :=
  (s.id, s.location, s.inline, s.fromComponent)
def Component.place (c : Component) : ComponentId × TemplateId := (c.id, c.template)

namespace Session

/-- what is registered in `s` stands in `s'` under the same numbers, and nothing has been read -/
structure Grows (s s' : Session) : Prop where
  templates : s.catalog.templates.map Template.place <+: s'.catalog.templates.map Template.place
  sheets : s.catalog.sheets.map Sheet.place <+: s'.catalog.sheets.map Sheet.place
  components :
    s.catalog.components.map Component.place <+: s'.catalog.components.map Component.place
  calls : s.calls <+: s'.calls
  reads : s'.reads = s.reads

namespace Grows
variable {s s' s'' : Session}

theorem refl (s : Session) : s.Grows s :=
  ⟨List.prefix_refl _, List.prefix_refl _, List.prefix_refl _, List.prefix_refl _, rfl⟩

theorem trans (h : s.Grows s') (h' : s'.Grows s'') : s.Grows s'' :=
  ⟨h.templates.trans h'.templates, h.sheets.trans h'.sheets, h.components.trans h'.components,
    h.calls.trans h'.calls, h'.reads.trans h.reads⟩

/-- a change of the catalog that keeps all places -/
theorem mapCatalog (s : Session) (f : Catalog → Catalog)
    (ht : (f s.catalog).templates.map Template.place = s.catalog.templates.map Template.place)
    (hs : (f s.catalog).sheets.map Sheet.place = s.catalog.sheets.map Sheet.place)
    (hc : (f s.catalog).components.map Component.place
      = s.catalog.components.map Component.place) : s.Grows (s.mapCatalog f) := by
  refine ⟨⟨[], ?_⟩, ⟨[], ?_⟩, ⟨[], ?_⟩, List.prefix_refl _, rfl⟩
  · exact (List.append_nil _).trans ht.symm
  · exact (List.append_nil _).trans hs.symm
  · exact (List.append_nil _).trans hc.symm

theorem note (s : Session) (c : Call) : s.Grows (s.note c) :=
  ⟨List.prefix_refl _, List.prefix_refl _, List.prefix_refl _, List.prefix_append _ _, rfl⟩

theorem template_mem (h : s.Grows s') {id : TemplateId}
    (hid : id ∈ s.catalog.templates.map Template.id) :
    id ∈ s'.catalog.templates.map Template.id := by
  obtain ⟨t, hm, rfl⟩ := List.mem_map.1 hid
  obtain ⟨t', hm', he⟩ := List.mem_map.1 (h.templates.subset (List.mem_map_of_mem hm))
  exact List.mem_map.2 ⟨t', hm', (Prod.mk.inj he).1⟩

theorem sheet_mem (h : s.Grows s') {id : SheetId} (hid : id ∈ s.catalog.sheets.map Sheet.id) :
    id ∈ s'.catalog.sheets.map Sheet.id := by
  obtain ⟨sheet, hm, rfl⟩ := List.mem_map.1 hid
  obtain ⟨sheet', hm', he⟩ := List.mem_map.1 (h.sheets.subset (List.mem_map_of_mem hm))
  exact List.mem_map.2 ⟨sheet', hm', (Prod.mk.inj he).1⟩

theorem template (h : s.Grows s') {id : TemplateId} {t : Template}
    (ht : s.catalog.templates[id]? = some t) :
    ∃ t', s'.catalog.templates[id]? = some t' ∧ t'.place = t.place :=
  getElem?_of_map_prefix Template.place h.templates ht

theorem sheet (h : s.Grows s') {id : SheetId} {sheet : Sheet}
    (hsheet : s.catalog.sheets[id]? = some sheet) :
    ∃ sheet', s'.catalog.sheets[id]? = some sheet' ∧ sheet'.place = sheet.place :=
  getElem?_of_map_prefix Sheet.place h.sheets hsheet

theorem component (h : s.Grows s') {id : ComponentId} {c : Component}
    (hc : s.catalog.components[id]? = some c) :
    ∃ c', s'.catalog.components[id]? = some c' ∧ c'.place = c.place :=
  getElem?_of_map_prefix Component.place h.components hc

theorem page (h : s.Grows s') {id : SheetId}
    (hs : ∃ sheet, s.catalog.sheets[id]? = some sheet ∧ sheet.fromComponent = false) :
    ∃ sheet, s'.catalog.sheets[id]? = some sheet ∧ sheet.fromComponent = false := by
  obtain ⟨sheet, hsheet, hpage⟩ := hs
  obtain ⟨sheet', hsheet', hplace⟩ := h.sheet hsheet
  exact ⟨sheet', hsheet', (Prod.mk.inj (Prod.mk.inj (Prod.mk.inj hplace).2).2).2.trans hpage⟩

end Grows

/-- a session with another log -/
def withLog (s : Session) (log : Log) : Session := s.mapCatalog ({ · with log })

/-- parsing a sheet changes nothing but the log -/
theorem parseSheet_eq (env : Env) (s : Session) (source file : Text) :
    ∃ log, (s.parseSheet env source file).2 = s.withLog log := by
  unfold parseSheet
  dsimp only
  split
  · exact ⟨_, rfl⟩
  · exact ⟨_, rfl⟩

theorem withLog_grows (s : Session) (log : Log) : s.Grows (s.withLog log) :=
  .mapCatalog s _ rfl rfl rfl

theorem modifyTemplate_grows (s : Session) (id : TemplateId) (f : Template → Template)
    (hf : ∀ t, (f t).place = t.place) : s.Grows (s.mapCatalog (·.modifyTemplate id f)) :=
  .mapCatalog s (·.modifyTemplate id f) (map_modify_of_eq _ _ hf _ _) rfl rfl

theorem modifySheet_grows (s : Session) (id : SheetId) (f : Sheet → Sheet)
    (hf : ∀ t, (f t).place = t.place) : s.Grows (s.mapCatalog (·.modifySheet id f)) :=
  .mapCatalog s (·.modifySheet id f) rfl (map_modify_of_eq _ _ hf _ _) rfl

theorem modifyComponent_grows (s : Session) (id : ComponentId) (f : Component → Component)
    (hf : ∀ c, (f c).place = c.place) : s.Grows (s.mapCatalog (·.modifyComponent id f)) :=
  .mapCatalog s (·.modifyComponent id f) rfl rfl (map_modify_of_eq _ _ hf _ _)

theorem registerTemplate_grows (s : Session) (l : Location) (usedFrom : Text) (isMain : Bool) :
    s.Grows (s.registerTemplate l usedFrom isMain).2 := by
  unfold registerTemplate
  split
  · exact modifyTemplate_grows s _ _ (fun _ => rfl)
  · refine ⟨?_, List.prefix_refl _, List.prefix_refl _, List.prefix_refl _, rfl⟩
    rw [List.map_append]
    exact List.prefix_append _ _

theorem useTemplate_grows (s : Session) (reference : Text) (origin : Location) :
    s.Grows (s.useTemplate reference origin).2 :=
  (Grows.note s _).trans (registerTemplate_grows _ _ _ _)

theorem registerSheet_grows (s : Session) (l : Location) (usedFrom : Text) :
    s.Grows (s.registerSheet l usedFrom).2 := by
  unfold registerSheet
  split
  · exact modifySheet_grows s _ _ (fun _ => rfl)
  · refine ⟨List.prefix_refl _, ?_, List.prefix_refl _, List.prefix_refl _, rfl⟩
    rw [List.map_append]
    exact List.prefix_append _ _

theorem importSheet_grows (s : Session) (url : Text) (origin : Location) :
    s.Grows (s.importSheet url origin).2 :=
  (Grows.note s _).trans (registerSheet_grows _ _ _)

theorem importSheets_grows (s : Session) (urls : List Text) (origin : Location) :
    s.Grows (s.importSheets urls origin).2 := by
  induction urls generalizing s with
  | nil => exact .refl s
  | cons url urls ih => exact (importSheet_grows s url origin).trans (ih _)

theorem parseSheet_grows (env : Env) (s : Session) (source file : Text) :
    s.Grows (s.parseSheet env source file).2 := by
  obtain ⟨log, h⟩ := parseSheet_eq env s source file
  rw [h]
  exact withLog_grows s log

theorem finishSheet_grows (s : Session) (id : SheetId) (l : Location) (ast : Option Css.Node) :
    s.Grows (s.finishSheet id l ast) := by
  cases ast with
  | none => exact modifySheet_grows s _ _ (fun _ => rfl)
  | some ast =>
    exact (importSheets_grows s _ l).trans (modifySheet_grows _ _ _ (fun _ => rfl))

theorem registerInline_grows (s : Session) (origin : Location) (fromComponent : Bool) :
    s.Grows (s.registerInline origin fromComponent) := by
  refine ⟨List.prefix_refl _, ?_, List.prefix_refl _, List.prefix_refl _, rfl⟩
  show _ <+: (s.catalog.sheets ++ [_]).map Sheet.place
  rw [List.map_append]
  exact List.prefix_append _ _

theorem getElem?_registerInline (s : Session) (origin : Location) (fromComponent : Bool) :
    (s.registerInline origin fromComponent).catalog.sheets[s.catalog.sheets.length]?
      = some (.register s.catalog.sheets.length origin origin.toText true fromComponent) := by
  show (s.catalog.sheets ++ [_])[s.catalog.sheets.length]? = _
  rw [List.getElem?_append_right (Nat.le_refl _), Nat.sub_self]
  rfl

theorem inlineSheet_grows_registerInline (env : Env) (s : Session) (source : Text)
    (origin : Location) (fromComponent : Bool) :
    ((s.note (.inline source origin fromComponent)).registerInline origin fromComponent).Grows
      (s.inlineSheet env source origin fromComponent).2 :=
  (parseSheet_grows env _ source origin.toText).trans (finishSheet_grows _ _ origin _)

theorem inlineSheet_grows (env : Env) (s : Session) (source : Text) (origin : Location)
    (fromComponent : Bool) : s.Grows (s.inlineSheet env source origin fromComponent).2 :=
  ((Grows.note s _).trans (registerInline_grows _ _ _)).trans
    (inlineSheet_grows_registerInline env s source origin fromComponent)

theorem useMain_grows (s : Session) (l : Location) :
    (s.note (.main l)).Grows (s.useMain l).2 := by
  unfold useMain
  dsimp only
  split
  · exact .refl _
  · refine (registerTemplate_grows _ l "<entry>".toList true).trans ?_
    exact .mapCatalog _ (fun c => { c with main := _ }) rfl rfl rfl

theorem call_grows (env : Env) (s : Session) (c : Call) : (s.note c).Grows (s.call env c) := by
  cases c with
  | main l => exact useMain_grows s l
  | template reference origin => exact registerTemplate_grows _ _ _ _
  | sheet url origin => exact registerSheet_grows _ _ _
  | inline source origin fromComponent =>
    exact (registerInline_grows _ _ _).trans
      (inlineSheet_grows_registerInline env s source origin fromComponent)

/-! ## registered numbers -/

theorem registerTemplate_mem (s : Session) (l : Location) (usedFrom : Text) (isMain : Bool) :
    (s.registerTemplate l usedFrom isMain).1
      ∈ (s.registerTemplate l usedFrom isMain).2.catalog.templates.map Template.id := by
  cases h : s.catalog.template? l with
  | some t =>
    have h1 : t.id ∈ s.catalog.templates.map Template.id :=
      List.mem_map_of_mem (List.mem_of_find?_eq_some h)
    have h2 := (registerTemplate_grows s l usedFrom isMain).template_mem h1
    unfold registerTemplate at h2 ⊢
    rw [h] at h2 ⊢
    exact h2
  | none =>
    unfold registerTemplate
    rw [h]
    show s.catalog.templates.length ∈ (s.catalog.templates ++ [_]).map Template.id
    rw [List.map_append]
    exact List.mem_append_right _ List.mem_cons_self

theorem registerSheet_mem (s : Session) (l : Location) (usedFrom : Text) :
    (s.registerSheet l usedFrom).1
      ∈ (s.registerSheet l usedFrom).2.catalog.sheets.map Sheet.id := by
  cases h : s.catalog.sharedSheet? l with
  | some sheet =>
    have h1 : sheet.id ∈ s.catalog.sheets.map Sheet.id :=
      List.mem_map_of_mem (List.mem_of_find?_eq_some h)
    have h2 := (registerSheet_grows s l usedFrom).sheet_mem h1
    unfold registerSheet at h2 ⊢
    rw [h] at h2 ⊢
    exact h2
  | none =>
    unfold registerSheet
    rw [h]
    show s.catalog.sheets.length ∈ (s.catalog.sheets ++ [_]).map Sheet.id
    rw [List.map_append]
    exact List.mem_append_right _ List.mem_cons_self

theorem importSheets_mem (s : Session) (urls : List Text) (origin : Location) :
    ∀ id ∈ (s.importSheets urls origin).1,
      id ∈ (s.importSheets urls origin).2.catalog.sheets.map Sheet.id := by
  induction urls generalizing s with
  | nil => exact fun _ h => absurd h List.not_mem_nil
  | cons url urls ih =>
    intro id hid
    rcases List.mem_cons.1 hid with rfl | hid
    · exact (importSheets_grows _ urls origin).sheet_mem (registerSheet_mem _ _ _)
    · exact ih _ id hid

theorem inlineSheet_mem (env : Env) (s : Session) (source : Text) (origin : Location)
    (fromComponent : Bool) : (s.inlineSheet env source origin fromComponent).1
      ∈ (s.inlineSheet env source origin fromComponent).2.catalog.sheets.map Sheet.id := by
  refine (inlineSheet_grows_registerInline env s source origin fromComponent).sheet_mem ?_
  show s.catalog.sheets.length ∈ (s.catalog.sheets ++ [_]).map Sheet.id
  rw [List.map_append]
  exact List.mem_append_right _ List.mem_cons_self

end Session

/-! ## bodies -/

namespace BodyNode

mutual
/-- the elements at and below a node, parents first -/
def elements : BodyNode → List (Text × Attributes)
  | .text _ | .style _ _ => []
  | .element name attributes children => (name, attributes) :: elementsOf children
def elementsOf : List BodyNode → List (Text × Attributes)
  | [] => []
  | n :: ns => n.elements ++ elementsOf ns
end

mutual
/-- the sheets of the styles at and below a node -/
def styles : BodyNode → List SheetId
  | .text _ => []
  | .style sheet _ => [sheet]
  | .element _ _ children => stylesOf children
def stylesOf : List BodyNode → List SheetId
  | [] => []
  | n :: ns => n.styles ++ stylesOf ns
end

theorem elementsOf_append (ns ms : List BodyNode) :
    elementsOf (ns ++ ms) = elementsOf ns ++ elementsOf ms := by
  induction ns with
  | nil => rfl
  | cons n ns ih => rw [List.cons_append, elementsOf, elementsOf, ih, List.append_assoc]

theorem stylesOf_append (ns ms : List BodyNode) :
    stylesOf (ns ++ ms) = stylesOf ns ++ stylesOf ms := by
  induction ns with
  | nil => rfl
  | cons n ns ih => rw [List.cons_append, stylesOf, stylesOf, ih, List.append_assoc]

end BodyNode

namespace Declarations
open Session

/-- an element that may stand in a body: no directive, and a `link` only if it means nothing here
or is a stylesheet link of the main template -/
def Plain (isMain : Bool) (e : Text × Attributes) : Prop :=
  (Role.ofName e.1 = .link ∨ Role.ofName e.1 = .page ∨ Role.ofName e.1 = .other) ∧
  (Role.ofName e.1 = .link →
    e.2.get? "rel".toList ≠ some "test-data".toList ∧
    (e.2.get? "rel".toList = some "stylesheet".toList →
      isMain = true ∧ e.2.contains "inline".toList = false))

/-- what discovery leaves of a body -/
structure Settled (o : Origin) (body : List BodyNode) (s : Session) : Prop where
  elements : ∀ e ∈ BodyNode.elementsOf body, Plain o.isMain e
  styles : ∀ sheet ∈ BodyNode.stylesOf body, sheet ∈ s.catalog.sheets.map Sheet.id

namespace Settled
variable {o : Origin} {s s' : Session}

theorem nil (o : Origin) (s : Session) : Settled o [] s :=
  ⟨fun _ h => absurd h (List.not_mem_nil), fun _ h => absurd h (List.not_mem_nil)⟩

theorem mono {body : List BodyNode} (h : Settled o body s) (hg : s.Grows s') : Settled o body s' :=
  ⟨h.elements, fun sheet hs => hg.sheet_mem (h.styles sheet hs)⟩

theorem append {body more : List BodyNode} (h : Settled o body s) (h' : Settled o more s) :
    Settled o (body ++ more) s := by
  constructor
  · intro e he
    rw [BodyNode.elementsOf_append] at he
    rcases List.mem_append.1 he with he | he
    · exact h.elements e he
    · exact h'.elements e he
  · intro sheet hs
    rw [BodyNode.stylesOf_append] at hs
    rcases List.mem_append.1 hs with hs | hs
    · exact h.styles sheet hs
    · exact h'.styles sheet hs

theorem text (run : Run) : Settled o [.text run] s :=
  ⟨fun _ h => absurd h (List.not_mem_nil), fun _ h => absurd h (List.not_mem_nil)⟩

theorem style {sheet : SheetId} (attributes : Attributes)
    (h : sheet ∈ s.catalog.sheets.map Sheet.id) : Settled o [.style sheet attributes] s := by
  refine ⟨fun _ h => absurd h (List.not_mem_nil), ?_⟩
  intro id hid
  have h1 : id ∈ [sheet] := hid
  rw [List.mem_singleton.1 h1]
  exact h

theorem element {name : Text} {attributes : Attributes} {children : List BodyNode}
    (he : Plain o.isMain (name, attributes)) (h : Settled o children s) :
    Settled o [.element name attributes children] s := by
  constructor
  · intro e hm
    have h1 : e ∈ ((name, attributes) :: BodyNode.elementsOf children) ++ [] := hm
    rw [List.append_nil] at h1
    rcases List.mem_cons.1 h1 with rfl | h1
    · exact he
    · exact h.elements e h1
  · intro sheet hs
    have h1 : sheet ∈ BodyNode.stylesOf children ++ [] := hs
    rw [List.append_nil] at h1
    exact h.styles sheet h1

end Settled

/-! ## moves -/

/-- the template of `o` has declared the component `id` -/
def Owned (o : Origin) (s : Session) (id : ComponentId) : Prop :=
  ∃ c, s.catalog.components[id]? = some c ∧ c.place = (id, o.template)

theorem Owned.template_eq {o : Origin} {s : Session} {id : ComponentId} (h : Owned o s id)
    {d : Component} (hd : s.catalog.components[id]? = some d) : d.template = o.template := by
  obtain ⟨c, hc, hp⟩ := h
  obtain rfl := Option.some.inj (hd.symm.trans hc)
  exact (Prod.mk.inj hp).2

theorem Owned.mono {o : Origin} {s s' : Session} {id : ComponentId} (h : Owned o s id)
    (hg : s.Grows s') : Owned o s' id := by
  obtain ⟨c, hc, hp⟩ := h
  obtain ⟨c', hc', hp'⟩ := hg.component hc
  exact ⟨c', hc', hp'.trans hp⟩

/-- the sheet can be made a host: the template at hand has it, and if that is the main template
then so does the page -/
structure Hostable (o : Origin) (s : Session) (id : SheetId) : Prop where
  registered : id ∈ s.catalog.sheets.map Sheet.id
  own : ∀ t, s.catalog.templates[o.template]? = some t → id ∈ t.sheets
  page : o.isMain = true → ∃ sheet, s.catalog.sheets[id]? = some sheet ∧ sheet.fromComponent = false

/-- the session after the declaration of a component -/
def declared (o : Origin) (name : Text) (params : Attributes) (s : Session) : Session :=
  modifyTemplate o (fun t => { t with tags := t.tags.insert name s.catalog.components.length })
    (s.mapCatalog (·.addComponent o.template name params))

/-- one change that discovery makes -/
inductive Move (env : Env) (o : Origin) : Session → Session → Prop where
  | report (p : Problem) (s : Session) (other : p.isFailure = false := by rfl) :
      Move env o s (report o p s)
  | declare (name : Text) (params : Attributes) (s : Session) (t : Template)
      (ht : s.catalog.templates[o.template]? = some t) (hnew : t.tags.contains name = false)
      (lower : Text.lower name = name) : Move env o s (declared o name params s)
  | body (id : ComponentId) (body : List BodyNode) (s : Session) (owned : Owned o s id)
      (settled : Settled o body s) :
      Move env o s (s.mapCatalog (·.modifyComponent id fun c => { c with body }))
  | useTemplate (reference : Text) (s : Session) :
      Move env o s (s.useTemplate reference o.location).2
  | importSheet (url : Text) (s : Session) : Move env o s (s.importSheet url o.location).2
  | inlineSheet (source : Text) (s : Session) :
      Move env o s (s.inlineSheet env source o.location !o.isMain).2
  | fileImport (id : TemplateId) (s : Session)
      (registered : id ∈ s.catalog.templates.map Template.id) :
      Move env o s (modifyTemplate o (fun t => { t with imports := addOnce id t.imports }) s)
  | componentImport (owner : ComponentId) (id : TemplateId) (s : Session) (owned : Owned o s owner)
      (registered : id ∈ s.catalog.templates.map Template.id) :
      Move env o s (s.mapCatalog
        (·.modifyComponent owner fun c => { c with imports := addOnce id c.imports }))
  | sheet (id : SheetId) (s : Session) (registered : id ∈ s.catalog.sheets.map Sheet.id) :
      Move env o s (addSheet o id s)
  | fileLink (link : Link) (s : Session) (registered : link.sheet ∈ s.catalog.sheets.map Sheet.id) :
      Move env o s (modifyTemplate o (fun t => { t with links := t.links ++ [link] }) s)
  | componentLink (owner : ComponentId) (link : Link) (s : Session) (owned : Owned o s owner)
      (other : o.isMain = false) (registered : link.sheet ∈ s.catalog.sheets.map Sheet.id) :
      Move env o s (s.mapCatalog
        (·.modifyComponent owner fun c => { c with links := c.links ++ [link] }))
  | testData (l : Location) (s : Session) (t : Template)
      (ht : s.catalog.templates[o.template]? = some t) (hnew : t.testData = none) :
      Move env o s (modifyTemplate o (fun t => { t with testData := some l }) s)
  | host (h : Host) (id : SheetId) (s : Session) (t : Template) (main : o.isMain = true)
      (hostable : Hostable o s id)
      (ht : s.catalog.templates[o.template]? = some t) (hnew : t.host? h = none) :
      Move env o s (modifyTemplate o (Template.setHost h id) s)

/-- changes one after another -/
abbrev Moves (env : Env) (o : Origin) : Session → Session → Prop :=
  Relation.ReflTransGen (Move env o)

theorem place_setHost (h : Host) (id : SheetId) (t : Template) :
    (Template.setHost h id t).place = t.place := by
  cases h <;> rfl

theorem host?_setHost (h h' : Host) (id : SheetId) (t : Template) :
    (Template.setHost h id t).host? h' = if h = h' then some id else t.host? h' := by
  cases h <;> cases h' <;> rfl

theorem modifyTemplate_grows (o : Origin) (s : Session) (f : Template → Template)
    (hf : ∀ t, (f t).place = t.place) : s.Grows (modifyTemplate o f s) :=
  Session.modifyTemplate_grows s _ f hf

theorem declared_grows (o : Origin) (s : Session) (name : Text) (params : Attributes) :
    s.Grows (declared o name params s) := by
  refine Grows.trans ?_ (modifyTemplate_grows o _ _ (fun _ => rfl))
  refine ⟨List.prefix_refl _, List.prefix_refl _, ?_, List.prefix_refl _, rfl⟩
  show _ <+: (s.catalog.components ++ [_]).map Component.place
  rw [List.map_append]
  exact List.prefix_append _ _

theorem Move.grows {env : Env} {o : Origin} {s s' : Session} (m : Move env o s s') :
    s.Grows s' := by
  cases m with
  | report p => exact withLog_grows s _
  | declare name params t => exact declared_grows o s name params
  | body id body => exact modifyComponent_grows _ _ _ (fun _ => rfl)
  | useTemplate reference => exact useTemplate_grows s reference o.location
  | importSheet url => exact importSheet_grows s url o.location
  | inlineSheet source => exact inlineSheet_grows env s source o.location _
  | fileImport id => exact modifyTemplate_grows o s _ (fun _ => rfl)
  | componentImport owner id => exact modifyComponent_grows _ _ _ (fun _ => rfl)
  | sheet id => exact modifyTemplate_grows o s _ (fun _ => rfl)
  | fileLink link => exact modifyTemplate_grows o s _ (fun _ => rfl)
  | componentLink owner link => exact modifyComponent_grows _ _ _ (fun _ => rfl)
  | testData l t => exact modifyTemplate_grows o s _ (fun _ => rfl)
  | host h id t => exact modifyTemplate_grows o s _ (place_setHost h id)

theorem Moves.grows {env : Env} {o : Origin} {s s' : Session} (m : Moves env o s s') :
    s.Grows s' := by
  induction m with
  | refl => exact .refl s
  | tail _ m ih => exact ih.trans m.grows

/-! ## walks as moves -/

section
variable (env : Env) (o : Origin)

/-- what a walk through the content of the component `id` has to do -/
def Walks (walk : ComponentId → Session → List BodyNode × Session) : Prop :=
  ∀ id s, Owned o s id → Moves env o s (walk id s).2 ∧ Settled o (walk id s).1 (walk id s).2

theorem declared_owned (name : Text) (params : Attributes) (s : Session) :
    Owned o (declared o name params s) s.catalog.components.length := by
  refine ⟨.declare s.catalog.components.length o.template name params, ?_, rfl⟩
  show (s.catalog.components ++ [_])[s.catalog.components.length]? = _
  rw [List.getElem?_append_right (Nat.le_refl _), Nat.sub_self]
  rfl

/-- a declaration succeeds or leaves everything but the log as it is -/
theorem declare_cases (name : Text) (params : Attributes) (s : Session) :
    (∃ t, s.catalog.templates[o.template]? = some t ∧ t.tags.contains (Text.lower name) = false ∧
      declare o name params s
        = (some s.catalog.components.length, declared o (Text.lower name) params s)) ∨
    (declare o name params s).1 = none ∧ Moves env o s (declare o name params s).2 := by
  unfold declare
  cases ht : s.catalog.templates[o.template]? with
  | none => exact .inr ⟨rfl, .refl⟩
  | some t =>
    dsimp only
    cases hnew : t.tags.contains (Text.lower name) with
    | true =>
      rw [if_pos rfl]
      exact .inr ⟨rfl, .single (.report _ s)⟩
    | false =>
      rw [if_neg Bool.false_ne_true]
      exact .inl ⟨t, rfl, hnew, rfl⟩

theorem declareBody_moves {walk : ComponentId → Session → List BodyNode × Session}
    (hw : Walks env o walk) (name : Text) (params : Attributes) (s : Session) :
    Moves env o s (declareBody o name params walk s) := by
  unfold declareBody
  rcases declare_cases env o name params s with ⟨t, ht, hnew, he⟩ | ⟨hnone, hm⟩
  · rw [he]
    have howned := declared_owned o (Text.lower name) params s
    obtain ⟨hm, hs⟩ := hw s.catalog.components.length _ howned
    have hfirst : Moves env o s (declared o (Text.lower name) params s) :=
      .single (.declare _ params s t ht hnew (Text.lower_lower name))
    exact hfirst.trans (hm.tail (.body _ _ _ (howned.mono hm.grows) hs))
  · generalize declare o name params s = r at hnone hm
    obtain ⟨id, s'⟩ := r
    obtain rfl : id = none := hnone
    exact hm

theorem component_moves {walk : ComponentId → Session → List BodyNode × Session}
    (hw : Walks env o walk) (attributes : Attributes) (s : Session) :
    Moves env o s (component o attributes walk s) := by
  unfold component
  split
  · exact .single (.report .unnamedComponent s)
  · next name _ => exact declareBody_moves env o hw name _ s

theorem importTemplate_moves (attributes : Attributes) (owner : Option ComponentId) (s : Session)
    (owned : ∀ id ∈ owner, Owned o s id) :
    Moves env o s (importTemplate o attributes owner s) := by
  unfold importTemplate
  split
  · exact .single (.report .importWithoutSrc s)
  · next src _ =>
    have h1 : Move env o s (s.useTemplate src o.location).2 := .useTemplate src s
    have hmem := registerTemplate_mem (s.note (.template src o.location))
      (o.location.resolvePath src) o.location.toText false
    refine (Relation.ReflTransGen.single h1).tail ?_
    cases owner with
    | some id => exact .componentImport id _ _ ((owned id rfl).mono h1.grows) hmem
    | none => exact .fileImport _ _ hmem

theorem stylesheetLink_moves (attributes : Attributes) (owner : Option ComponentId) (s : Session)
    (owned : ∀ id ∈ owner, Owned o s id) :
    Moves env o s (stylesheetLink o attributes owner s).2 := by
  unfold stylesheetLink
  split
  · exact .single (.report .stylesheetWithoutHref s)
  · next href _ =>
    have h1 : Move env o s (s.importSheet href o.location).2 := .importSheet href s
    have hmem := registerSheet_mem (s.note (.sheet href o.location))
      (o.location.resolveUrl s.catalog.siteRoot href) o.location.toText
    have h2 : Move env o _ (addSheet o (s.importSheet href o.location).1 _) := .sheet _ _ hmem
    have h12 := (Relation.ReflTransGen.single h1).tail h2
    have hmem' := h2.grows.sheet_mem hmem
    dsimp only
    split
    · exact h12
    · cases owner with
      | some id =>
        dsimp only
        cases hmain : o.isMain with
        | true => exact h12
        | false =>
          exact h12.tail (.componentLink id _ _ ((owned id rfl).mono (Moves.grows h12)) hmain hmem')
      | none => exact h12.tail (.fileLink _ _ hmem')

theorem testDataLink_moves (attributes : Attributes) (s : Session) :
    Moves env o s (testDataLink o attributes s) := by
  unfold testDataLink
  split
  · exact .single (.report .testDataWithoutHref s)
  · split
    · exact .refl
    · next t ht =>
      split
      · exact .single (.report _ s)
      · next hnew =>
        rw [Option.not_isSome_iff_eq_none] at hnew
        exact .single (.testData _ s t ht hnew)

/-- marking hosts takes no sheet away from the template -/
theorem sheets_markHost (sheet : SheetId) (h : Host) (s : Session) :
    (markHost o sheet h s).catalog.templates.map Template.sheets
      = s.catalog.templates.map Template.sheets := by
  unfold markHost
  split
  · rfl
  · split
    · rfl
    · split
      · rfl
      · exact map_modify_of_eq Template.sheets _ (fun t => by cases h <;> rfl) _ _

theorem markHost_moves (sheet : SheetId) (h : Host) (s : Session) (hs : Hostable o s sheet) :
    Moves env o s (markHost o sheet h s) ∧ Hostable o (markHost o sheet h s) sheet := by
  have hm : Moves env o s (markHost o sheet h s) := by
    unfold markHost
    split
    · exact .single (.report _ s)
    · next hmain =>
      rw [Bool.not_eq_true, Bool.not_eq_false'] at hmain
      split
      · exact .refl
      · next t ht =>
        split
        · exact .single (.report _ s)
        · next hnew =>
          rw [Option.not_isSome_iff_eq_none] at hnew
          exact .single (.host h sheet s t hmain hs ht hnew)
  refine ⟨hm, hm.grows.sheet_mem hs.registered, ?_, fun hmain => hm.grows.page (hs.page hmain)⟩
  intro t ht
  have h1 : ((markHost o sheet h s).catalog.templates.map Template.sheets)[o.template]?
      = some t.sheets := by
    rw [List.getElem?_map, ht, Option.map_some]
  rw [sheets_markHost, List.getElem?_map] at h1
  obtain ⟨t', ht', he⟩ := Option.map_eq_some_iff.1 h1
  exact he ▸ hs.own t' ht'

theorem markHosts_moves (attributes : Attributes) (sheet : SheetId) (hosts : List Host)
    (s : Session) (hs : Hostable o s sheet) :
    Moves env o s (markHosts o attributes sheet hosts s) := by
  unfold markHosts
  induction hosts.filter (fun h => attributes.contains h.marker) generalizing s with
  | nil => exact .refl
  | cons h hosts ih =>
    obtain ⟨hm, hs'⟩ := markHost_moves env o sheet h s hs
    exact hm.trans (ih _ hs')

theorem mem_addOnce (n : Nat) (ns : List Nat) : n ∈ addOnce n ns := by
  unfold addOnce
  split
  · assumption
  · exact List.mem_append_right _ List.mem_cons_self

/-- the sheet of a `style` element can be made a host -/
theorem inlined_hostable (source : Text) (s : Session) :
    Hostable o (addSheet o (s.inlineSheet env source o.location !o.isMain).1
      (s.inlineSheet env source o.location !o.isMain).2)
      (s.inlineSheet env source o.location !o.isMain).1 := by
  refine ⟨?_, ?_, ?_⟩
  · exact (modifyTemplate_grows o _ _ (fun _ => rfl)).sheet_mem (inlineSheet_mem env s source _ _)
  · intro t ht
    obtain ⟨t', _, ⟨_, rfl⟩ | ⟨hne, _⟩⟩ := getElem?_modify_eq_some ht
    · exact mem_addOnce _ _
    · exact absurd rfl hne
  · intro hmain
    obtain ⟨sheet, hsheet, hplace⟩ :=
      (inlineSheet_grows_registerInline env s source o.location !o.isMain).sheet
        (getElem?_registerInline (s.note _) o.location !o.isMain)
    refine ⟨sheet, hsheet, ?_⟩
    have hfrom : sheet.fromComponent = !o.isMain :=
      (Prod.mk.inj (Prod.mk.inj (Prod.mk.inj hplace).2).2).2
    rw [hfrom, hmain]
    rfl

theorem style_moves (attributes : Attributes) (children : List Html.Node) (s : Session) :
    Moves env o s (style env o attributes children s).2 ∧
      Settled o (style env o attributes children s).1 (style env o attributes children s).2 := by
  unfold style
  split
  · exact ⟨.single (.report .elementInStyle s), .nil o _⟩
  · next source _ =>
    have h1 : Move env o s (s.inlineSheet env source o.location !o.isMain).2 :=
      .inlineSheet source s
    have hmem := inlineSheet_mem env s source o.location !o.isMain
    have h2 : Move env o _ (addSheet o (s.inlineSheet env source o.location !o.isMain).1 _) :=
      .sheet _ _ hmem
    have hmem' := h2.grows.sheet_mem hmem
    have hhost := inlined_hostable env o source s
    have h3 := markHosts_moves env o attributes _ [.inlineFonts, .componentStyles] _ hhost
    exact ⟨((Relation.ReflTransGen.single h1).tail h2).trans h3,
      .style _ (h3.grows.sheet_mem hmem')⟩

/-- a link that is kept satisfies `kept`, and one that is inlined stands for a registered sheet -/
def Fated (kept : Prop) (r : LinkFate × Session) : Prop :=
  match r.1 with
  | .gone => True
  | .kept => kept
  | .inlined sheet _ => sheet ∈ r.2.catalog.sheets.map Sheet.id

theorem Fated.imp {kept kept' : Prop} (h : kept → kept') {r : LinkFate × Session}
    (hr : Fated kept r) : Fated kept' r := by
  obtain ⟨fate, s⟩ := r
  cases fate with
  | gone => exact trivial
  | kept => exact h hr
  | inlined sheet attributes => exact hr

theorem stylesheetLink_fate (attributes : Attributes) (owner : Option ComponentId) (s : Session) :
    Fated (o.isMain = true ∧ attributes.contains "inline".toList = false)
      (stylesheetLink o attributes owner s) := by
  unfold stylesheetLink
  cases attributes.get? "href".toList with
  | none => exact trivial
  | some href =>
    cases hinline : attributes.contains "inline".toList with
    | true =>
      exact (modifyTemplate_grows o _ _ (fun _ => rfl)).sheet_mem (registerSheet_mem _ _ _)
    | false =>
      cases owner with
      | none => exact trivial
      | some id =>
        cases hmain : o.isMain with
        | true => exact ⟨rfl, rfl⟩
        | false => exact trivial

theorem link_moves (attributes : Attributes) (owner : Option ComponentId) (s : Session)
    (owned : ∀ id ∈ owner, Owned o s id) : Moves env o s (link o attributes owner s).2 := by
  unfold link
  dsimp only
  split
  · exact stylesheetLink_moves env o attributes owner s owned
  · split
    · exact testDataLink_moves env o attributes s
    · exact .refl

theorem link_fate (name : Text) (hname : Role.ofName name = .link) (attributes : Attributes)
    (owner : Option ComponentId) (s : Session) :
    Fated (Plain o.isMain (name, attributes)) (link o attributes owner s) := by
  unfold link
  dsimp only
  by_cases hrel : attributes.get? "rel".toList = some "stylesheet".toList
  · rw [if_pos hrel]
    apply (stylesheetLink_fate o attributes owner s).imp
    intro h
    refine ⟨.inl hname, fun _ => ⟨?_, fun _ => h⟩⟩
    show attributes.get? _ ≠ _
    rw [hrel]
    decide
  · rw [if_neg hrel]
    by_cases hdata : attributes.get? "rel".toList = some "test-data".toList
    · rw [if_pos hdata]
      exact trivial
    · rw [if_neg hdata]
      exact ⟨.inl hname, fun _ => ⟨hdata, fun h => absurd h hrel⟩⟩

mutual
theorem bodyNode_moves (owner : ComponentId) (n : Html.Node) (s : Session)
    (h : Owned o s owner) : Moves env o s (bodyNode env o owner n s).2 ∧
      Settled o (bodyNode env o owner n s).1 (bodyNode env o owner n s).2 := by
  cases n with
  | text run =>
    rw [bodyNode]
    exact ⟨.refl, .text run⟩
  | fragment children _ =>
    rw [bodyNode]
    exact bodyNodes_moves owner children s h
  | element name attributes children =>
    have hplain (hrole : Role.ofName name = .page ∨ Role.ofName name = .other) :
        Plain o.isMain (name, attributes) := by
      refine ⟨.inr hrole, ?_⟩
      intro hl
      rcases hrole with hr | hr
      · exact absurd (hl.symm.trans hr) (by decide)
      · exact absurd (hl.symm.trans hr) (by decide)
    obtain ⟨hm, hs⟩ := bodyNodes_moves owner children s h
    rw [bodyNode]
    cases hrole : Role.ofName name with
    | importing =>
      exact ⟨importTemplate_moves env o attributes (some owner) s
        (fun id hid => Option.some.inj hid ▸ h), .nil o _⟩
    | component =>
      exact ⟨component_moves env o (fun id s hid => bodyNodes_moves id children s hid)
        attributes s, .nil o _⟩
    | style => exact style_moves env o attributes children s
    | page => exact ⟨hm, .element (hplain (.inl hrole)) hs⟩
    | other => exact ⟨hm, .element (hplain (.inr hrole)) hs⟩
    | link =>
      have hl := link_moves env o attributes (some owner) s (fun id hid => Option.some.inj hid ▸ h)
      have hf := link_fate o name hrole attributes (some owner) s
      dsimp only
      generalize link o attributes (some owner) s = r at hl hf
      obtain ⟨fate, s'⟩ := r
      cases fate with
      | gone => exact ⟨hl, .nil o _⟩
      | inlined sheet more => exact ⟨hl, .style more hf⟩
      | kept =>
        obtain ⟨hm', hs'⟩ := bodyNodes_moves owner children s' (h.mono hl.grows)
        exact ⟨hl.trans hm', .element hf hs'⟩
theorem bodyNodes_moves (owner : ComponentId) (ns : List Html.Node) (s : Session)
    (h : Owned o s owner) : Moves env o s (bodyNodes env o owner ns s).2 ∧
      Settled o (bodyNodes env o owner ns s).1 (bodyNodes env o owner ns s).2 := by
  cases ns with
  | nil =>
    rw [bodyNodes]
    exact ⟨.refl, .nil o s⟩
  | cons n ns =>
    rw [bodyNodes]
    obtain ⟨hm, hs⟩ := bodyNode_moves owner n s h
    obtain ⟨hm', hs'⟩ := bodyNodes_moves owner ns _ (h.mono hm.grows)
    exact ⟨hm.trans hm', (hs.mono hm'.grows).append hs'⟩
end

theorem topElement_moves (name : Text) (attributes : Attributes) (children : List Html.Node)
    (s : Session) : Moves env o s (topElement env o name attributes children s) := by
  have hw : Walks env o fun id s => bodyNodes env o id children s :=
    fun id s h => bodyNodes_moves env o id children s h
  have howner : ∀ id ∈ (none : Option ComponentId), Owned o s id :=
    fun id h => absurd h (Option.not_mem_none id)
  unfold topElement
  cases hrole : Role.ofName name with
  | importing => exact importTemplate_moves env o attributes none s howner
  | component => exact component_moves env o hw attributes s
  | link => exact link_moves env o attributes none s howner
  | style => exact (style_moves env o attributes children s).1
  | page =>
    dsimp only
    split
    · exact .single (.report .misplacedHtml s)
    · refine declareBody_moves env o ?_ name .empty s
      intro id s h
      obtain ⟨hm, hs⟩ := bodyNodes_moves env o id children s h
      refine ⟨hm, .element ⟨.inr (.inl hrole), ?_⟩ hs⟩
      intro hl
      exact absurd (hl.symm.trans hrole) (by decide)
  | other =>
    refine Relation.ReflTransGen.trans ?_ (declareBody_moves env o hw name attributes _)
    split
    · exact .single (.report _ s)
    · exact .refl

mutual
theorem topNode_moves (n : Html.Node) (s : Session) : Moves env o s (topNode env o n s) := by
  cases n with
  | fragment children _ =>
    rw [topNode]
    exact topNodes_moves children s
  | text run =>
    rw [topNode]
    split
    · exact .refl
    · exact .single (.report _ s)
  | element name attributes children =>
    rw [topNode]
    exact topElement_moves env o name attributes children s
theorem topNodes_moves (ns : List Html.Node) (s : Session) :
    Moves env o s (topNodes env o ns s) := by
  cases ns with
  | nil => rw [topNodes]
  | cons n ns =>
    rw [topNodes]
    exact (topNode_moves n s).trans (topNodes_moves ns _)
end

theorem discover_moves (f : Html.Fragment) (s : Session) :
    Moves env o s (discover env o f s) := by
  unfold discover
  refine Relation.ReflTransGen.trans ?_ (topNodes_moves env o f.children _)
  split
  · exact .single (.report .missingDoctype s)
  · exact .refl

end

end Declarations

/-! ## jobs -/

namespace Session

/-- a job reads one location and then only adds to the session -/
theorem loadTemplate_grows (env : Env) (s : Session) (t : Template) :
    ({ s with reads := s.reads ++ [t.location] } : Session).Grows (s.loadTemplate env t) := by
  unfold loadTemplate
  dsimp only
  split
  · refine Grows.trans ?_ (withLog_grows _ _)
    exact modifyTemplate_grows _ t.id _ (fun _ => rfl)
  · refine Grows.trans ?_ (Declarations.Moves.grows (Declarations.discover_moves env _ _ _))
    exact modifyTemplate_grows _ t.id _ (fun _ => rfl)

theorem loadSheet_grows (env : Env) (s : Session) (sheet : Sheet) :
    ({ s with reads := s.reads ++ [sheet.location] } : Session).Grows (s.loadSheet env sheet) := by
  unfold loadSheet
  dsimp only
  split
  · exact (finishSheet_grows _ sheet.id sheet.location none).trans (withLog_grows _ _)
  · exact (parseSheet_grows env _ _ _).trans (finishSheet_grows _ sheet.id sheet.location _)

theorem step_calls (env : Env) {s s' : Session} (h : s.step env = some s') :
    s.calls <+: s'.calls := by
  unfold step at h
  split at h
  · cases h
  · next job queue _ =>
    obtain rfl := Option.some.inj h
    cases job with
    | template id =>
      unfold perform
      dsimp only
      split
      · next t _ => exact (loadTemplate_grows env { s with queue } t).calls
      · exact List.prefix_refl _
    | sheet id =>
      unfold perform
      dsimp only
      split
      · next sheet _ => exact (loadSheet_grows env { s with queue } sheet).calls
      · exact List.prefix_refl _

/-- what every job keeps holds after a run -/
theorem run_induction {env : Env} (P : Session → Prop)
    (hstep : ∀ s s', s.step env = some s' → P s → P s') {fuel : Nat} {s s' : Session}
    (hrun : s.run env fuel = some s') (h : P s) : P s' := by
  induction fuel generalizing s with
  | zero =>
    rw [run] at hrun
    split at hrun
    · exact Option.some.inj hrun ▸ h
    · cases hrun
  | succ fuel ih =>
    rw [run] at hrun
    split at hrun
    · exact Option.some.inj hrun ▸ h
    · next s'' hnext => exact ih hrun (hstep s s'' hnext h)

theorem run_calls (env : Env) (fuel : Nat) {s s' : Session} (h : s.run env fuel = some s') :
    s.calls <+: s'.calls :=
  run_induction (s.calls <+: ·.calls) (fun _ _ hstep hc => hc.trans (step_calls env hstep)) h
    (List.prefix_refl _)

/-- a run leaves no job -/
theorem run_queue (env : Env) (fuel : Nat) {s s' : Session} (h : s.run env fuel = some s') :
    s'.queue = [] := by
  induction fuel generalizing s with
  | zero =>
    rw [run] at h
    split at h
    · next hq =>
      obtain rfl := Option.some.inj h
      exact List.isEmpty_iff.1 hq
    · cases h
  | succ fuel ih =>
    rw [run] at h
    split at h
    · next hstep =>
      obtain rfl := Option.some.inj h
      unfold step at hstep
      split at hstep
      · next hq => exact hq
      · cases hstep
    · exact ih h

/-- a session in which calls have been made, and no job has been done yet -/
def prepared (env : Env) (siteRoot : Path) (lints : Bool) (cs : List Call) : Session :=
  cs.foldl (call env) (start siteRoot lints)

theorem prepared_concat (env : Env) (siteRoot : Path) (lints : Bool) (cs : List Call) (c : Call) :
    prepared env siteRoot lints (cs ++ [c]) = (prepared env siteRoot lints cs).call env c := by
  unfold prepared
  rw [List.foldl_append]
  rfl

end Session

end PageTemplates
