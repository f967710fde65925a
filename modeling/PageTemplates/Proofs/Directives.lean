import PageTemplates.Proofs.CompiledNodes
import PageTemplates.Proofs.Failures
import PageTemplates.Proofs.MainTemplate
import PageTemplates.Proofs.Outline
import PageTemplates.Proofs.Programs

/-!
# Directives leave the bodies

A finished run has carried the directives out and taken them away.  What is left of a body has no
`import`, `component` or `style` element in it, at whatever depth, and the stylesheet links of the
other templates than the main one have become links of the components that they belong to.

* `Catalog.outlines`          the components of one template as they are outlined;
* `Session.outlines_moves`    the walk through one template leaves the components of the others;
* `Session.Hoists`            the loaded templates have the components that their trees declare;
* `Session.run_hoists`        so at the end of every run;
* `Session.Directed`, `Session.run_directed`   bodies, links and compiled nodes of finished runs.
-/

namespace PageTemplates

section
variable {α β : Type} (p : β → Bool) (g : α → β) {l : List α}

/-- a change of an entry whose image is not selected, before or afterwards -/
theorem filter_map_modify_of_false (f : α → α) {i : Nat}
    (h : ∀ a, l[i]? = some a → p (g a) = false ∧ p (g (f a)) = false) :
    ((l.modify i f).map g).filter p = (l.map g).filter p := by
  induction l generalizing i with
  | nil => rw [List.modify_nil]
  | cons b l ih =>
    cases i with
    | zero =>
      obtain ⟨hold, hnew⟩ := h b rfl
      rw [List.modify_zero_cons, List.map_cons, List.map_cons, List.filter_cons, List.filter_cons,
        hold, hnew]
      rfl
    | succ i =>
      rw [List.modify_succ_cons, List.map_cons, List.map_cons, List.filter_cons, List.filter_cons,
        ih h]

theorem filter_map_concat_of_false {a : α} (h : p (g a) = false) :
    ((l ++ [a]).map g).filter p = (l.map g).filter p := by
  rw [List.map_append, List.filter_append, List.map_singleton, List.filter_singleton, h]
  exact List.append_nil _

end

/-- the components of a template as they are outlined -/
def Catalog.outlines (c : Catalog) (id : TemplateId) : List Outline :=
  (c.components.map Component.outline).filter fun e => e.template = id

theorem Catalog.outlines_eq (c : Catalog) (t : Template) :
    c.outlines t.id = (c.declarations t).map Component.outline := by
  unfold outlines declarations
  rw [List.filter_map]
  rfl

namespace Session
open Declarations (Move Moves Quiet Still Declared declaredAll areRegular)

/-! ## one template at a time -/

theorem outlines_quiet {s s' : Session} (h : Quiet s s') (id : TemplateId) :
    s'.catalog.outlines id = s.catalog.outlines id := by
  unfold Catalog.outlines
  rw [h.outlines]

theorem outlines_move {env : Env} {o : Origin} {s s' : Session} (m : Move env o s s')
    {id : TemplateId} (hother : o.template ≠ id) :
    s'.catalog.outlines id = s.catalog.outlines id := by
  -- a change of a component that its outline does not show
  have hidden (owner : ComponentId) (f : Component → Component)
      (hf : ∀ d, (f d).outline = d.outline) :
      (s.mapCatalog (·.modifyComponent owner f)).catalog.outlines id = s.catalog.outlines id := by
    have hquiet : Quiet s (s.mapCatalog (·.modifyComponent owner f)) :=
      ⟨map_modify_of_eq Component.outline f hf _ _, List.prefix_refl _⟩
    exact outlines_quiet hquiet id
  cases m with
  | report p => rfl
  | declare name params => exact filter_map_concat_of_false _ _ (decide_eq_false hother)
  | body owner body => exact hidden owner _ (fun _ => rfl)
  | useTemplate reference =>
    exact outlines_quiet (Still.useTemplate s reference o.location).toQuiet id
  | importSheet url =>
    exact outlines_quiet (Still.of_sheetwise (.importSheet s url o.location)).toQuiet id
  | inlineSheet source =>
    exact outlines_quiet (Still.of_sheetwise (.inlineSheet env s source o.location _)).toQuiet id
  | fileImport other => rfl
  | componentImport owner other => exact hidden owner _ (fun _ => rfl)
  | sheet sheet => rfl
  | fileLink link => rfl
  | componentLink owner link _ owned =>
    refine filter_map_modify_of_false _ _ _ fun d hd => ?_
    have hfalse : decide (d.template = id) = false :=
      decide_eq_false (owned.template_eq hd ▸ hother)
    exact ⟨hfalse, hfalse⟩
  | testData l => rfl
  | host h sheet => rfl

theorem outlines_moves {env : Env} {o : Origin} {s s' : Session} (m : Moves env o s s')
    {id : TemplateId} (hother : o.template ≠ id) :
    s'.catalog.outlines id = s.catalog.outlines id := by
  induction m with
  | refl => rfl
  | tail _ m ih => exact (outlines_move m hother).trans ih

/-! ## jobs -/

/-- the loaded templates have the components that their trees declare, with the links in them -/
def Hoists (env : Env) (s : Session) : Prop :=
  ∀ t ∈ s.catalog.templates, t.status = .loaded → t.isMain = false →
    ∀ f, env.template t.location = .ok f → areRegular f.children = true →
      s.catalog.outlines t.id = (declaredAll false [] f.children).map (Declared.outline t.id)

section
variable {env : Env} {s : Session}

/-- nothing that is loaded is new, and no component has changed -/
theorem Hoists.of_quiet {s' : Session} (h : Hoists env s) (hquiet : Quiet s s')
    (hbefore : ∀ t' ∈ s'.catalog.templates, t'.status ≠ .pending →
      ∃ t ∈ s.catalog.templates, t.stage = t'.stage) : Hoists env s' := by
  intro t' ht' hloaded hmain f hf hregular
  obtain ⟨t, ht, hstage⟩ := hbefore t' ht' (by rw [hloaded]; exact Status.noConfusion)
  obtain ⟨hplace, hstatus⟩ := Prod.mk.inj hstage
  obtain ⟨hid, hrest⟩ := Prod.mk.inj hplace
  obtain ⟨hlocation, hsame⟩ := Prod.mk.inj hrest
  rw [← hid, outlines_quiet hquiet]
  rw [← hlocation] at hf
  exact h t ht (hstatus.trans hloaded) (hsame.trans hmain) f hf hregular

theorem loadSheet_hoists (h : Hoists env s) (sheet : Sheet) :
    Hoists env (s.loadSheet env sheet) :=
  have hsheet := Sheetwise.loadSheet env s sheet
  h.of_quiet (Still.of_sheetwise hsheet).toQuiet fun _ ht' hs => hsheet.joined.before ht' (.inr hs)

/-- what the walk through another file than the main one declares, if nothing has been declared -/
theorem outlines_discover {t : Template} (ht : s.catalog.templates[t.id]? = some t)
    (hblank : t.Blank) (hnone : s.catalog.outlines t.id = []) (hmain : t.isMain = false)
    {f : Html.Fragment} (hregular : areRegular f.children = true) :
    (Declarations.discover env ⟨t.id, t.location, t.isMain⟩ f (s.entered t)).catalog.outlines t.id
      = (declaredAll false [] f.children).map (Declared.outline t.id) := by
  have hnames : Declarations.taken? ⟨t.id, t.location, t.isMain⟩ (s.entered t) = some [] := by
    unfold Declarations.taken?
    rw [entered_template ht]
    show some t.tags.names = _
    rw [hblank.tags]
    rfl
  have houtlined := Declarations.discover_outlined env hmain f _ hnames hregular
  unfold Catalog.outlines at hnone ⊢
  rw [houtlined.components, List.filter_append]
  refine (congrArg (· ++ _) hnone).trans ?_
  rw [List.nil_append, List.filter_eq_self]
  intro e he
  obtain ⟨d, _, rfl⟩ := List.mem_map.1 he
  exact decide_eq_true rfl

theorem loadTemplate_hoists (h : Hoists env s) (hsound : s.catalog.Sound) {t : Template}
    (ht : s.catalog.templates[t.id]? = some t) (hother : t.status ≠ .loaded) (hblank : t.Blank)
    (hnone : s.catalog.outlines t.id = []) : Hoists env (s.loadTemplate env t) := by
  unfold loadTemplate
  dsimp only
  split
  · intro t' ht' hloaded hmain
    rcases mem_modify_of_some ht ht' with hold | rfl
    · exact h t' hold hloaded hmain
    · cases hloaded
  · next fragment hread =>
    have hmoves := Declarations.discover_moves env ⟨t.id, t.location, t.isMain⟩ fragment
      (s.entered t)
    intro t' ht' hloaded hmain f hf hregular
    obtain ⟨t₁, ht₁, hstage⟩ := (moves_joined hmoves).before ht'
      (.inr (by rw [hloaded]; exact Status.noConfusion))
    obtain ⟨hplace, hstatus⟩ := Prod.mk.inj hstage
    obtain ⟨hid, hrest⟩ := Prod.mk.inj hplace
    obtain ⟨hlocation, hsame⟩ := Prod.mk.inj hrest
    rw [← hid]
    rw [← hlocation] at hf
    rcases mem_modify_of_some ht ht₁ with hold | rfl
    · -- a template that has been loaded before
      have hne : t.id ≠ t₁.id := by
        intro hthis
        have heq := hsound.templates.eq_of_mem (List.mem_of_getElem? ht) hold hthis
        exact hother (heq ▸ hstatus.trans hloaded)
      refine (outlines_moves hmoves hne).trans ?_
      exact h t₁ hold (hstatus.trans hloaded) (hsame.trans hmain) f hf hregular
    · have hok : env.template t.location = .ok fragment := by
        show (env.read t.location >>= fun source => env.parseMarkup source t.file).mapError _ = _
        rw [hread]
        rfl
      obtain rfl := Except.ok.inj (hf.symm.trans hok)
      exact outlines_discover ht hblank hnone (hsame.trans hmain) hregular

theorem step_hoists {s' : Session} (hstep : s.step env = some s') (hsound : s.Sound)
    (haccounted : TemplatesAccounted env s.queue s.catalog.templates s.catalog.components)
    (h : Hoists env s) : Hoists env s' := by
  rcases step_cases hstep hsound with ⟨t, queue, -, ht, hstatus, rfl⟩ | ⟨sheet, queue, -, -, -, rfl⟩
  · have hother : t.status ≠ .loaded := by rw [hstatus]; exact Status.noConfusion
    refine loadTemplate_hoists (s := { s with queue }) h hsound.catalog ht hother
      ((haccounted.templates t.id t ht).blank hother) ?_
    apply List.filter_eq_nil_iff.2
    intro e he hid
    obtain ⟨d, hd, rfl⟩ := List.mem_map.1 he
    exact haccounted.template_ne ht hother hd (of_decide_eq_true hid)
  · exact loadSheet_hoists (s := { s with queue }) h sheet

end

/-! ## preparations -/

/-- a template that is registered is still to be read -/
theorem registerTemplate_before (s : Session) (l : Location) (usedFrom : Text) (isMain : Bool) :
    ∀ t' ∈ (s.registerTemplate l usedFrom isMain).2.catalog.templates, t'.status ≠ .pending →
      ∃ t ∈ s.catalog.templates, t.stage = t'.stage := by
  unfold registerTemplate
  split
  · next t _ =>
    intro t' ht' _
    have hstages := map_modify_of_eq Template.stage (Template.mention usedFrom) (fun _ => rfl)
      s.catalog.templates t.id
    exact List.mem_map.1 (hstages ▸ List.mem_map_of_mem ht')
  · intro t' ht' hs
    rcases List.mem_append.1 ht' with hold | hnew
    · exact ⟨t', hold, rfl⟩
    · rw [List.mem_singleton.1 hnew] at hs
      exact absurd rfl hs

/-- a call loads nothing -/
theorem call_before (env : Env) (s : Session) (c : Call) :
    ∀ t' ∈ (s.call env c).catalog.templates, t'.status ≠ .pending →
      ∃ t ∈ s.catalog.templates, t.stage = t'.stage := by
  cases c with
  | main l =>
    show ∀ t' ∈ (s.useMain l).2.catalog.templates, _
    unfold useMain
    dsimp only
    split
    · exact fun t' ht' _ => ⟨t', ht', rfl⟩
    · exact registerTemplate_before (s.note (.main l)) l "<entry>".toList true
  | template reference origin =>
    exact registerTemplate_before (s.note (.template reference origin)) _ _ false
  | sheet url origin =>
    have hsheet := Sheetwise.importSheet s url origin
    exact fun _ ht' hs => hsheet.joined.before ht' (.inr hs)
  | inline source origin fromComponent =>
    have hsheet := Sheetwise.inlineSheet env s source origin fromComponent
    exact fun _ ht' hs => hsheet.joined.before ht' (.inr hs)

theorem prepared_pending (env : Env) (siteRoot : Path) (lints : Bool) (cs : List Call) :
    ∀ t ∈ (prepared env siteRoot lints cs).catalog.templates, t.status = .pending := by
  induction cs using List.reverseRecOn with
  | nil => exact fun _ ht => absurd ht List.not_mem_nil
  | append_singleton cs c ih =>
    rw [prepared_concat]
    intro t' ht'
    by_contra hs
    obtain ⟨t, ht, hstage⟩ := call_before env _ c t' ht' hs
    exact hs ((congrArg Prod.snd hstage).symm.trans (ih t ht))

theorem prepared_hoists (env : Env) (siteRoot : Path) (lints : Bool) (cs : List Call) :
    Hoists env (prepared env siteRoot lints cs) := by
  intro t ht hloaded
  cases (prepared_pending env siteRoot lints cs t ht).symm.trans hloaded

/-! ## runs -/

theorem run_hoists {env : Env} (fuel : Nat) {s s' : Session} (hrun : s.run env fuel = some s')
    (hsound : s.Sound) (haccounted : ∃ record, Accounted env none s record) (h : Hoists env s) :
    Hoists env s' := by
  have hall : s'.Sound ∧ (∃ record, Accounted env none s' record) ∧ Hoists env s' := by
    refine run_induction
      (fun s => s.Sound ∧ (∃ record, Accounted env none s record) ∧ Hoists env s) ?_ hrun
      ⟨hsound, haccounted, h⟩
    rintro s s' hstep ⟨hsound, ⟨record, hrecord⟩, h⟩
    exact ⟨step_sound env hstep hsound, (accounted env).step hstep hsound ⟨record, hrecord⟩,
      step_hoists hstep hsound hrecord.templates h⟩
  exact hall.2.2

/-- at the end of a run a template whose source is a tree has been loaded -/
theorem run_loaded (env : Env) (siteRoot : Path) (lints : Bool) (cs : List Call) (fuel : Nat)
    {s : Session} (hrun : (prepared env siteRoot lints cs).run env fuel = some s) {t : Template}
    (ht : t ∈ s.catalog.templates) {f : Html.Fragment} (hf : env.template t.location = .ok f) :
    t.status = .loaded := by
  obtain ⟨record, haccounted⟩ :=
    (accounted env).prepared_run ⟨[], Accounted.start env siteRoot lints⟩ cs fuel hrun
  have hsound := run_sound env fuel hrun (prepared_sound env siteRoot lints cs)
  have hisolated := haccounted.isolated hsound (run_queue env fuel hrun)
  refine (hisolated.template_done t ht).resolve_right fun hs => ?_
  obtain ⟨p, hp⟩ := (hisolated.template_failed t ht).1 hs
  cases hp.symm.trans hf

theorem run_hoisted (env : Env) (siteRoot : Path) (lints : Bool) (cs : List Call) (fuel : Nat)
    {s : Session} (hrun : (prepared env siteRoot lints cs).run env fuel = some s) {t : Template}
    (ht : t ∈ s.catalog.templates) (hmain : t.isMain = false) {f : Html.Fragment}
    (hf : env.template t.location = .ok f) (hregular : areRegular f.children = true) :
    s.catalog.outlines t.id = (declaredAll false [] f.children).map (Declared.outline t.id) :=
  run_hoists fuel hrun (prepared_sound env siteRoot lints cs)
    ((accounted env).prepared ⟨[], Accounted.start env siteRoot lints⟩ cs)
    (prepared_hoists env siteRoot lints cs) t ht
    (run_loaded env siteRoot lints cs fuel hrun ht hf) hmain f hf hregular

/-! ## bodies and compiled nodes -/

/-- what is left of the directives of a project -/
structure Directed (env : Env) (s : Session) : Prop where
  /-- no directive stands in a body -/
  bodies : ∀ d ∈ s.catalog.components, ∃ t, s.catalog.templates[d.template]? = some t ∧
    ∀ name attributes, (name, attributes) ∈ BodyNode.elementsOf d.body →
      name ≠ "import".toList ∧ name ≠ "component".toList ∧ name ≠ "style".toList ∧
      (name = "link".toList →
        attributes.get? "rel".toList ≠ some "test-data".toList ∧
        (attributes.get? "rel".toList = some "stylesheet".toList →
          t.isMain = true ∧ attributes.contains "inline".toList = false))
  /-- the components of another template than the main one have the links that belong to them -/
  links : ∀ t ∈ s.catalog.templates, t.isMain = false → ∀ f, env.template t.location = .ok f →
    areRegular f.children = true →
      (s.catalog.declarations t).map (fun d => (d.name, d.links.map Link.written))
        = (declaredAll false [] f.children).map fun d => (d.name, d.links)
  /-- no node is a directive -/
  nodes : ∀ d ∈ s.catalog.collect.compileBodies.components, ∀ n ∈ OutputNode.allOf d.nodes,
    n.name? ≠ some "import".toList ∧ n.name? ≠ some "component".toList

/-- an element that may stand in a body has none of the names of the directives -/
theorem name_of_plain {isMain : Bool} {name : Text} {attributes : Attributes}
    (h : Declarations.Plain isMain (name, attributes)) :
    name ≠ "import".toList ∧ name ≠ "component".toList ∧ name ≠ "style".toList := by
  have hrole : Declarations.Role.ofName name = .link ∨ Declarations.Role.ofName name = .page ∨
      Declarations.Role.ofName name = .other := h.1
  refine ⟨?_, ?_, ?_⟩
  · rintro rfl
    exact absurd hrole (by decide)
  · rintro rfl
    exact absurd hrole (by decide)
  · rintro rfl
    exact absurd hrole (by decide)

/-- the names of compiled nodes are those of elements, or `style` -/
theorem name_compileBodies {cat : Catalog} (h : cat.Sound) {d : Component}
    (hd : d ∈ cat.compileBodies.components) {n : OutputNode} (hn : n ∈ OutputNode.allOf d.nodes)
    {name : Text} (hname : n.name? = some name) :
    name = styleName ∨ ∃ e ∈ cat.components, name ∈ (BodyNode.elementsOf e.body).map Prod.fst := by
  rw [Catalog.compileBodies_eq h] at hd
  obtain ⟨e, he, rfl⟩ := List.mem_map.1 hd
  obtain ⟨t, ht, het⟩ := List.mem_flatMap.1 ((Catalog.mem_schedule h e).2 he)
  rw [Catalog.finished_of_declared h (List.mem_filter.1 ht).1 het] at hn
  exact (Scope.names_compile e.body (List.mem_filterMap.2 ⟨n, hn, hname⟩)).imp_right
    fun hm => ⟨e, he, hm⟩

/-- **Directives leave the bodies.**  Whatever is read and parsed and whatever has been called for,
after a run no directive is left in a body at any depth, the stylesheet links of the other templates
than the main one have been hoisted in order to the innermost declarations around them, and no
compiled node is an `import` or a `component`. -/
theorem run_directed (env : Env) (siteRoot : Path) (lints : Bool) (cs : List Call) (fuel : Nat)
    (s : Session) (hrun : (prepared env siteRoot lints cs).run env fuel = some s) :
    s.Directed env := by
  have hloaded : s.catalog.Loaded := .run env siteRoot lints cs fuel s hrun
  refine ⟨?_, ?_, ?_⟩
  · intro d hd
    obtain ⟨t, ht, hplain⟩ := (hloaded.sound.components_closed d hd).elements
    refine ⟨t, ht, fun name attributes he => ?_⟩
    obtain ⟨himport, hcomponent, hstyle⟩ := name_of_plain (hplain _ he)
    refine ⟨himport, hcomponent, hstyle, ?_⟩
    rintro rfl
    exact (hplain _ he).2 rfl
  · intro t ht hmain f hf hregular
    have h := run_hoisted env siteRoot lints cs fuel hrun ht hmain hf hregular
    rw [Catalog.outlines_eq] at h
    have h' := congrArg (List.map fun e : Outline => (e.name, e.links)) h
    rw [List.map_map, List.map_map] at h'
    exact h'
  · intro d hd n hn
    have hsound := hloaded.collect.sound
    have hname (name : Text) (hn' : n.name? = some name) :
        name ≠ "import".toList ∧ name ≠ "component".toList := by
      rcases name_compileBodies hsound hd hn hn' with rfl | ⟨e, he, hm⟩
      · exact ⟨by decide, by decide⟩
      · obtain ⟨⟨_, attributes⟩, hel, rfl⟩ := List.mem_map.1 hm
        obtain ⟨t, _, hplain⟩ := (hsound.components_closed e he).elements
        obtain ⟨himport, hcomponent, _⟩ := name_of_plain (hplain _ hel)
        exact ⟨himport, hcomponent⟩
    exact ⟨fun h => (hname _ h).1 rfl, fun h => (hname _ h).2 rfl⟩

/-- a page that imports a file with links in two declarations and in a refused one -/
def linking : Env where
  read _ := .ok []
  parseMarkup _ file :=
    let sheet (href : String) : Html.Node := .element "link".toList
      (.ofList [("rel".toList, "stylesheet".toList), ("href".toList, href.toList)]) []
    if file = "x/a".toList then
      .ok ⟨[.element "import".toList (.ofList [("src".toList, "b".toList)]) []], true⟩
    else
      .ok ⟨[.element "Card".toList .empty [
        sheet "one",
        .element "component".toList (.ofList [("name".toList, "part".toList)]) [
          .fragment [.element "p".toList .empty [sheet "two"]] false],
        .element "component".toList (.ofList [("name".toList, "card".toList)]) [sheet "three"],
        sheet "four"]], false⟩
  parseCss _ _ := ⟨[], .ok (.sheet [])⟩

/-- the links around an inner declaration stay together, and those of the refused one are gone -/
theorem run_directed_linking : ∃ s,
    (prepared linking ⟨true, []⟩ true [.main (.remote "x/a".toList)]).run linking 5 = some s ∧
    s.Directed linking ∧
    s.catalog.components.map (fun d => (d.name, d.links.map Link.href))
      = [("card".toList, ["one".toList, "four".toList]), ("part".toList, ["two".toList])] := by
  have hlinks : ((prepared linking ⟨true, []⟩ true [.main (.remote "x/a".toList)]).run linking
      5).map (fun s => s.catalog.components.map fun d => (d.name, d.links.map Link.href))
      = some [("card".toList, ["one".toList, "four".toList]), ("part".toList, ["two".toList])] := by
    decide
  obtain ⟨s, hrun, hs⟩ := Option.map_eq_some_iff.1 hlinks
  exact ⟨s, hrun, run_directed _ _ _ _ _ s hrun, hs⟩

end Session

end PageTemplates
