import PageTemplates.Proofs.Directives
import PageTemplates.Proofs.History
import PageTemplates.Proofs.Scopes

/-!
# Imports after a run

At the end of a run every file that could be read has the imports that its tree says, and so have
its declarations.  What they name is registered, and a file has called for nothing else.

* `Catalog.importers`        the components of one template with their imports;
* `Session.Keeps`            what the walk through one template leaves of another one;
* `Session.FilesScoped`      what the loaded files have recorded and called for, by numbers;
* `Session.run_scopes`       so at the end of every run;
* `Session.located_addAll`   from numbers to locations;
* `Session.ImportsScoped`, `Session.run_scoped`   finished runs, by locations.
-/

namespace PageTemplates

/-- the first of each among the images of different entries -/
theorem eraseDups_map_of_injOn {α β : Type} [BEq α] [LawfulBEq α] [BEq β] [LawfulBEq β]
    {f : α → β} {l : List α} (h : ∀ a ∈ l, ∀ b ∈ l, f a = f b → a = b) :
    (l.map f).eraseDups = l.eraseDups.map f := by
  induction l using List.reverseRecOn with
  | nil => rfl
  | append_singleton l a ih =>
    have ih := ih fun b hb c hc =>
      h b (List.mem_append_left _ hb) c (List.mem_append_left _ hc)
    rw [List.map_append, List.map_singleton]
    by_cases ha : a ∈ l
    · rw [eraseDups_concat_of_mem ha, eraseDups_concat_of_mem (List.mem_map_of_mem ha), ih]
    · have hnew : f a ∉ l.map f := by
        intro hmem
        obtain ⟨b, hb, he⟩ := List.mem_map.1 hmem
        have hab := h b (List.mem_append_left _ hb) a
          (List.mem_append_right _ List.mem_cons_self) he
        exact ha (hab ▸ hb)
      rw [eraseDups_concat_of_not_mem ha, eraseDups_concat_of_not_mem hnew, ih, List.map_append]
      rfl

/-- the components of a template with their imports -/
def Catalog.importers (c : Catalog) (id : TemplateId) : List Importer :=
  (c.components.map Component.importer).filter fun e => e.template = id

theorem Catalog.importers_eq (c : Catalog) (t : Template) :
    c.importers t.id = (c.declarations t).map Component.importer := by
  unfold importers declarations
  rw [List.filter_map]
  rfl

theorem Call.effective_sublist (known : Bool) (cs : List Call) :
    (effective known cs).Sublist cs := by
  induction cs generalizing known with
  | nil => exact List.Sublist.refl _
  | cons c cs ih =>
    rw [effective]
    split
    · exact (ih known).cons c
    · exact (ih _).cons_cons c

def Template.origin (t : Template) : Origin := ⟨t.id, t.location, t.isMain⟩

namespace Session
open Declarations (Move Moves Aside Declared Indexes numbers addAll declaredAll topImportsOf
  areRegular)

/-! ## one template at a time -/

/-- the imports of a template and of its components stay, and no template is called for from `l` -/
structure Keeps (id : TemplateId) (l : Location) (s s' : Session) : Prop where
  file : ∀ t, s.catalog.templates[id]? = some t →
    ∃ t', s'.catalog.templates[id]? = some t' ∧ t'.imports = t.imports
  components : s'.catalog.importers id = s.catalog.importers id
  requests : s'.requests l = s.requests l

namespace Keeps
variable {id : TemplateId} {l : Location} {s s' s'' : Session}

theorem refl (id : TemplateId) (l : Location) (s : Session) : Keeps id l s s :=
  ⟨fun t ht => ⟨t, ht, rfl⟩, rfl, rfl⟩

theorem trans (h : Keeps id l s s') (h' : Keeps id l s' s'') : Keeps id l s s'' := by
  refine ⟨fun t ht => ?_, h'.components.trans h.components, h'.requests.trans h.requests⟩
  obtain ⟨t', ht', himports⟩ := h.file t ht
  obtain ⟨t'', ht'', himports'⟩ := h'.file t' ht'
  exact ⟨t'', ht'', himports'.trans himports⟩

theorem of_aside (id : TemplateId) (l : Location) (h : Aside s s') : Keeps id l s s' := by
  refine ⟨fun t ht => ?_, ?_, h.requests l⟩
  · have hfiles : s.catalog.templates.map Template.scoping
        <+: s'.catalog.templates.map Template.scoping := by rw [h.files]
    obtain ⟨t', ht', hsame⟩ := getElem?_of_map_prefix Template.scoping hfiles ht
    exact ⟨t', ht', (Prod.mk.inj hsame).2⟩
  · unfold Catalog.importers
    rw [h.components]

/-- a change of another template -/
theorem modifyTemplate (s : Session) {other : TemplateId} (hother : other ≠ id) (l : Location)
    (f : Template → Template) : Keeps id l s (s.mapCatalog (·.modifyTemplate other f)) := by
  refine ⟨fun t ht => ⟨t, ?_, rfl⟩, rfl, rfl⟩
  show (s.catalog.templates.modify other f)[id]? = _
  rw [List.getElem?_modify_ne _ _ hother]
  exact ht

theorem useTemplate (s : Session) (id : TemplateId) (reference : Text) {origin : Location}
    (horigin : origin ≠ l) : Keeps id l s (s.useTemplate reference origin).2 := by
  refine ⟨fun t ht => ?_, ?_, ?_⟩
  · obtain ⟨t', ht', hsame⟩ := getElem?_of_map_prefix Template.scoping
      (Declarations.useTemplate_scoping s reference origin) ht
    exact ⟨t', ht', (Prod.mk.inj hsame).2⟩
  · unfold Catalog.importers
    rw [Declarations.useTemplate_components]
  · rw [Declarations.useTemplate_requests, if_neg horigin, List.append_nil]

/-- one change that the walk through another template makes -/
theorem move {env : Env} {o : Origin} (m : Move env o s s') (hother : o.template ≠ id)
    (horigin : o.location ≠ l) : Keeps id l s s' := by
  cases m with
  | report p => exact of_aside id l (.report o p s)
  | declare name params =>
    refine trans ?_ (modifyTemplate _ hother l _)
    exact ⟨fun t ht => ⟨t, ht, rfl⟩, filter_map_concat_of_false _ _ (decide_eq_false hother), rfl⟩
  | body owner body => exact of_aside id l (.modifyComponent s owner _ fun _ => rfl)
  | useTemplate reference => exact useTemplate s id reference horigin
  | importSheet url => exact of_aside id l (.of_sheetwise (.importSheet s url o.location))
  | inlineSheet source =>
    exact of_aside id l (.of_sheetwise (.inlineSheet env s source o.location _))
  | fileImport other => exact modifyTemplate s hother l _
  | componentImport owner other _ owned =>
    refine ⟨fun t ht => ⟨t, ht, rfl⟩, filter_map_modify_of_false _ _ _ fun d hd => ?_, rfl⟩
    have hfalse : decide (d.template = id) = false :=
      decide_eq_false (owned.template_eq hd ▸ hother)
    exact ⟨hfalse, hfalse⟩
  | sheet sheet => exact of_aside id l (.addSheet o sheet s)
  | fileLink link => exact of_aside id l (.modifyTemplate s _ _ fun _ => rfl)
  | componentLink owner link => exact of_aside id l (.modifyComponent s owner _ fun _ => rfl)
  | testData location => exact of_aside id l (.modifyTemplate s _ _ fun _ => rfl)
  | host h sheet => exact of_aside id l (.modifyTemplate s _ _ fun t => by cases h <;> rfl)

theorem moves {env : Env} {o : Origin} (m : Moves env o s s') (hother : o.template ≠ id)
    (horigin : o.location ≠ l) : Keeps id l s s' := by
  induction m with
  | refl => exact refl id l s
  | tail _ m ih => exact ih.trans (move m hother horigin)

end Keeps

/-! ## jobs -/

/-- a loaded file and its declarations have the imports that its tree says, and it has called for
them on top of what was called for at its location before -/
structure FileScoped (index : Location → TemplateId) (before : Location → List Text) (s : Session)
    (t : Template) (f : Html.Fragment) : Prop where
  imports : t.imports = addAll (numbers index t.origin (topImportsOf f.children)) []
  components : s.catalog.importers t.id
    = (declaredAll t.isMain [] f.children).map (Declared.importer index t.origin)
  requests : (s.requests t.location).Perm (before t.location ++ (topImportsOf f.children
    ++ (declaredAll t.isMain [] f.children).flatMap Declared.imports))

/-- every loaded file has what its tree says, and nothing is called for at other locations -/
structure FilesScoped (env : Env) (index : Location → TemplateId) (before : Location → List Text)
    (s : Session) : Prop where
  loaded : ∀ t ∈ s.catalog.templates, t.status = .loaded → ∀ f, env.template t.location = .ok f →
    areRegular f.children = true → FileScoped index before s t f
  others : ∀ l, (∀ t ∈ s.catalog.templates, t.location = l → t.status ≠ .loaded) →
    s.requests l = before l

section
variable {env : Env} {index : Location → TemplateId} {before : Location → List Text}
  {s s' : Session}

/-- what is recorded of a template stays while it is kept -/
theorem FileScoped.keeps {t t' : Template} {f : Html.Fragment} (h : FileScoped index before s t f)
    (hkeeps : Keeps t.id t.location s s') (ht : s.catalog.templates[t.id]? = some t)
    (ht' : s'.catalog.templates[t.id]? = some t') (hplace : t'.place = t.place) :
    FileScoped index before s' t' f := by
  obtain ⟨hid, hrest⟩ := Prod.mk.inj hplace
  obtain ⟨hlocation, hmain⟩ := Prod.mk.inj hrest
  have horigin : t'.origin = t.origin := by
    unfold Template.origin
    rw [hid, hlocation, hmain]
  obtain ⟨t₁, ht₁, himports⟩ := hkeeps.file t ht
  obtain rfl := Option.some.inj (ht₁.symm.trans ht')
  constructor
  · rw [himports, h.imports, horigin]
  · rw [hid, hkeeps.components, h.components, hmain, horigin]
  · rw [hlocation, hkeeps.requests, hmain]
    exact h.requests

/-- nothing that is loaded is new or gone, and no import is -/
theorem FilesScoped.of_aside (h : FilesScoped env index before s) (haside : Aside s s')
    (hsound : s.catalog.Sound) (hsound' : s'.catalog.Sound)
    (hbefore : ∀ t' ∈ s'.catalog.templates, t'.status = .loaded →
      ∃ t ∈ s.catalog.templates, t.stage = t'.stage)
    (hafter : ∀ t ∈ s.catalog.templates, t.status = .loaded →
      ∃ t' ∈ s'.catalog.templates, t'.stage = t.stage) : FilesScoped env index before s' := by
  constructor
  · intro t' ht' hloaded f hf hregular
    obtain ⟨t, ht, hstage⟩ := hbefore t' ht' hloaded
    obtain ⟨hplace, hstatus⟩ := Prod.mk.inj hstage
    obtain ⟨hid, hrest⟩ := Prod.mk.inj hplace
    rw [← (Prod.mk.inj hrest).1] at hf
    have hold := h.loaded t ht (hstatus.trans hloaded) f hf hregular
    refine hold.keeps (.of_aside _ _ haside) (hsound.templates.getElem?_of_mem ht) ?_ hplace.symm
    rw [hid]
    exact hsound'.templates.getElem?_of_mem ht'
  · intro l hnone
    rw [haside.requests]
    refine h.others l fun t ht hl hloaded => ?_
    obtain ⟨t', ht', hstage⟩ := hafter t ht hloaded
    obtain ⟨hplace, hstatus⟩ := Prod.mk.inj hstage
    exact hnone t' ht' ((congrArg (·.2.1) hplace).trans hl) (hstatus.trans hloaded)

theorem loadSheet_filesScoped (h : FilesScoped env index before s) (hsound : s.catalog.Sound)
    (sheet : Sheet) (hsound' : (s.loadSheet env sheet).catalog.Sound) :
    FilesScoped env index before (s.loadSheet env sheet) := by
  have hsheet := Sheetwise.loadSheet env s sheet
  refine h.of_aside (.of_sheetwise hsheet) hsound hsound' (fun t' ht' hloaded => ?_)
    fun t ht _ => hsheet.joined.after ht
  exact hsheet.joined.before ht' (.inr (by rw [hloaded]; exact Status.noConfusion))

theorem entered_aside (s : Session) (t : Template) : Aside s (s.entered t) :=
  have hread : Aside s { s with reads := s.reads ++ [t.location] } := .of_eq rfl rfl rfl
  hread.trans (.modifyTemplate _ _ _ fun _ => rfl)

/-- the file that is walked, if it was still to be read -/
theorem discover_fileScoped {t t' : Template} (ht : s.catalog.templates[t.id]? = some t)
    (hblank : t.Blank) (hnone : s.catalog.importers t.id = [])
    (hbefore : s.requests t.location = before t.location) {f : Html.Fragment}
    (hregular : areRegular f.children = true)
    (hs' : Declarations.discover env t.origin f (s.entered t) = s') (hindex : Indexes index s')
    (ht' : s'.catalog.templates[t.id]? = some t') (hplace : t'.place = t.place) :
    FileScoped index before s' t' f := by
  subst hs'
  have hentered := entered_template ht
  have hnames : Declarations.taken? t.origin (s.entered t) = some [] := by
    show (s.entered t).catalog.templates[t.id]?.map _ = _
    rw [hentered]
    show some t.tags.names = _
    rw [hblank.tags]
    rfl
  have hscoped := Declarations.discover_scoped env f _ hnames hregular hindex
  obtain ⟨hid, hrest⟩ := Prod.mk.inj hplace
  obtain ⟨hlocation, hmain⟩ := Prod.mk.inj hrest
  have horigin : t'.origin = t.origin := by
    unfold Template.origin
    rw [hid, hlocation, hmain]
  constructor
  · have hfile := hscoped.file
    unfold Declarations.fileImports? at hfile
    have horigin' : t.origin.template = t.id := rfl
    rw [horigin', ht', hentered] at hfile
    have himports : t'.imports
        = addAll (numbers index t.origin (topImportsOf f.children)) t.imports :=
      Option.some.inj hfile
    rw [himports, hblank.imports, horigin]
  · have hentered' : (s.entered t).catalog.importers t.id = [] :=
      (Keeps.of_aside t.id t.location (entered_aside s t)).components.trans hnone
    unfold Catalog.importers at hentered' ⊢
    rw [hscoped.components, hid, List.filter_append, hmain, horigin]
    refine (congrArg (· ++ _) hentered').trans ?_
    refine (List.nil_append _).trans (List.filter_eq_self.2 ?_)
    intro e he
    obtain ⟨d, _, rfl⟩ := List.mem_map.1 he
    exact decide_eq_true rfl
  · rw [hlocation, hmain, ← hbefore, ← (entered_aside s t).requests]
    exact hscoped.requests

/-- the job for a template, by what its source comes to -/
theorem loadTemplate_eq (env : Env) (s : Session) (t : Template) :
    s.loadTemplate env t = match env.template t.location with
      | .error p => ({ s with reads := s.reads ++ [t.location] }.mapCatalog
        (·.modifyTemplate t.id fun t => { t with status := .failed })).report t.file p
      | .ok f => Declarations.discover env t.origin f (s.entered t) := by
  unfold loadTemplate Env.template Template.file
  cases env.read t.location >>= fun source => env.parseMarkup source t.location.toText with
  | error e => rfl
  | ok f => rfl

/-- what has been loaded is another template at another location -/
theorem ne_of_loaded (hindex : Indexes index s) (hsound : s.catalog.Sound) {t u : Template}
    (ht : t ∈ s.catalog.templates) (hother : t.status ≠ .loaded) (hu : u ∈ s.catalog.templates)
    (hloaded : u.status = .loaded) : t.id ≠ u.id ∧ t.location ≠ u.location := by
  have hne : t.id ≠ u.id :=
    fun hid => hother (hsound.templates.eq_of_mem ht hu hid ▸ hloaded)
  refine ⟨hne, fun hlocation => hne ?_⟩
  rw [← hindex t ht, hlocation, hindex u hu]

/-- a template that cannot be read is only marked -/
theorem failTemplate_filesScoped (h : FilesScoped env index before s) (hsound : s.catalog.Sound)
    (hold : Indexes index s) {t : Template} (ht : s.catalog.templates[t.id]? = some t)
    (hother : t.status ≠ .loaded) {p : Problem} (hsource : env.template t.location = .error p)
    (hsound' : (s.loadTemplate env t).catalog.Sound) :
    FilesScoped env index before (s.loadTemplate env t) := by
  have hload := loadTemplate_eq env s t
  rw [hsource] at hload
  rw [hload] at hsound' ⊢
  have hread : Aside s { s with reads := s.reads ++ [t.location] } := .of_eq rfl rfl rfl
  have hmark : Aside s _ := (hread.trans (.modifyTemplate _ t.id
    (fun t => { t with status := .failed }) fun _ => rfl)).trans (.report t.origin p _)
  refine h.of_aside hmark hsound hsound' (fun t' ht' hloaded => ?_) fun u hu hloaded => ?_
  · rcases mem_modify_of_some ht ht' with hsame | rfl
    · exact ⟨t', hsame, rfl⟩
    · cases hloaded
  · have hne := (ne_of_loaded hold hsound (List.mem_of_getElem? ht) hother hu hloaded).1
    exact ⟨u, hsound.templates.mem_modify_of_ne _ hu hne, rfl⟩

/-- the walk through a template calls for nothing at the locations of others -/
theorem walk_others (h : FilesScoped env index before s) (hsound : s.catalog.Sound)
    (hold : Indexes index s) {t : Template} (ht : s.catalog.templates[t.id]? = some t)
    (hother : t.status ≠ .loaded) (hmoves : Moves env t.origin (s.entered t) s') (l : Location)
    (hnone : ∀ t' ∈ s'.catalog.templates, t'.location = l → t'.status ≠ .loaded) :
    s'.requests l = before l := by
  -- what is loaded when the walk begins is loaded afterwards
  have hgone (u : Template) (hu : u ∈ (s.entered t).catalog.templates)
      (hloaded : u.status = .loaded) : u.location ≠ l := by
    obtain ⟨u', hu', hstage⟩ := (moves_joined hmoves).after hu
    obtain ⟨hplace, hstatus⟩ := Prod.mk.inj hstage
    exact fun hl => hnone u' hu' ((congrArg (·.2.1) hplace).trans hl) (hstatus.trans hloaded)
  have hnow := List.mem_of_getElem? (entered_template ht)
  have hlocation : t.location ≠ l := hgone { t with status := .loaded } hnow rfl
  have hkeeps := Keeps.moves hmoves (Nat.ne_of_lt (Nat.lt_succ_self t.id)) hlocation
  rw [hkeeps.requests, (entered_aside s t).requests]
  refine h.others l fun u hu hl hloaded => ?_
  have hne := (ne_of_loaded hold hsound (List.mem_of_getElem? ht) hother hu hloaded).1
  exact hgone u (hsound.templates.mem_modify_of_ne _ hu hne) hloaded hl

theorem loadTemplate_filesScoped (h : FilesScoped env index before s) (hsound : s.catalog.Sound)
    {t : Template} (ht : s.catalog.templates[t.id]? = some t) (hother : t.status ≠ .loaded)
    (hblank : t.Blank) (hnone : s.catalog.importers t.id = [])
    (hsound' : (s.loadTemplate env t).catalog.Sound)
    (hindex : Indexes index (s.loadTemplate env t)) :
    FilesScoped env index before (s.loadTemplate env t) := by
  have hold : Indexes index { s with reads := s.reads ++ [t.location] } :=
    hindex.of_grows (loadTemplate_grows env s t)
  have hload := loadTemplate_eq env s t
  cases hsource : env.template t.location with
  | error p => exact failTemplate_filesScoped h hsound hold ht hother hsource hsound'
  | ok f =>
    rw [hsource] at hload
    have hmoves : Moves env t.origin (s.entered t) (s.loadTemplate env t) :=
      hload.symm ▸ Declarations.discover_moves env t.origin f (s.entered t)
    have hne {u : Template} (hu : u ∈ s.catalog.templates) (hloaded : u.status = .loaded) :=
      ne_of_loaded hold hsound (List.mem_of_getElem? ht) hother hu hloaded
    refine ⟨fun t' ht' hloaded f' hf' hregular => ?_, walk_others h hsound hold ht hother hmoves⟩
    obtain ⟨u, hu, hstage⟩ := (moves_joined hmoves).before ht'
      (.inr (by rw [hloaded]; exact Status.noConfusion))
    obtain ⟨hplace, hstatus⟩ := Prod.mk.inj hstage
    obtain ⟨hid, hrest⟩ := Prod.mk.inj hplace
    rw [← (Prod.mk.inj hrest).1] at hf'
    have hat := hsound'.templates.getElem?_of_mem ht'
    rw [← hid] at hat
    rcases mem_modify_of_some ht hu with hsame | rfl
    · -- a template that has been loaded before
      obtain ⟨hothers, hlocation⟩ := hne hsame (hstatus.trans hloaded)
      exact (h.loaded u hsame (hstatus.trans hloaded) f' hf' hregular).keeps
        (Keeps.trans (.of_aside _ _ (entered_aside s t)) (.moves hmoves hothers hlocation))
        (hsound.templates.getElem?_of_mem hsame) hat hplace.symm
    · obtain rfl := Except.ok.inj (hf'.symm.trans hsource)
      exact discover_fileScoped ht hblank hnone
        (h.others _ fun v hv hlocation hv' => (hne hv hv').2 hlocation.symm) hregular
        hload.symm hindex hat hplace.symm

theorem step_filesScoped (hstep : s.step env = some s') (hsound : s.Sound)
    (haccounted : TemplatesAccounted env s.queue s.catalog.templates s.catalog.components)
    (h : Indexes index s → FilesScoped env index before s) (hindex : Indexes index s') :
    FilesScoped env index before s' := by
  have hsound' := (step_sound env hstep hsound).catalog
  -- the job is taken from the queue
  have htaken (queue : List Job) (hold : Indexes index s) :
      FilesScoped env index before { s with queue } :=
    (h hold).of_aside (.of_eq rfl rfl rfl) hsound.catalog hsound.catalog
      (fun t ht _ => ⟨t, ht, rfl⟩) (fun t ht _ => ⟨t, ht, rfl⟩)
  rcases step_cases hstep hsound with ⟨t, queue, -, ht, hstatus, rfl⟩ | ⟨sheet, queue, -, -, -, rfl⟩
  · have hother : t.status ≠ .loaded := by rw [hstatus]; exact Status.noConfusion
    have hold : Indexes index { s with queue, reads := s.reads ++ [t.location] } :=
      hindex.of_grows (loadTemplate_grows env { s with queue } t)
    refine loadTemplate_filesScoped (htaken queue hold) hsound.catalog ht hother
      ((haccounted.templates t.id t ht).blank hother) ?_ hsound' hindex
    apply List.filter_eq_nil_iff.2
    intro e he hid
    obtain ⟨d, hd, rfl⟩ := List.mem_map.1 he
    exact haccounted.template_ne ht hother hd (of_decide_eq_true hid)
  · have hold : Indexes index { s with queue, reads := s.reads ++ [sheet.location] } :=
      hindex.of_grows (loadSheet_grows env { s with queue } sheet)
    exact loadSheet_filesScoped (htaken queue hold) hsound.catalog sheet hsound'

end

/-! ## preparations -/

theorem call_requests (env : Env) (s : Session) (c : Call) (l : Location) :
    (s.call env c).requests l = s.requests l ++ (c.request? l).toList := by
  cases c with
  | main l' =>
    have hcalls : (s.useMain l').2.calls = s.calls ++ [.main l'] := by
      unfold useMain registerTemplate
      dsimp only
      split
      · rfl
      · split <;> rfl
    show (s.useMain l').2.calls.filterMap _ = _
    rw [hcalls, List.filterMap_append]
    rfl
  | template reference origin =>
    refine (Declarations.useTemplate_requests s reference origin l).trans ?_
    show _ = _ ++ (if origin = l then some reference else none).toList
    split <;> rfl
  | sheet url origin =>
    exact ((Sheetwise.importSheet s url origin).requests l).trans (List.append_nil _).symm
  | inline source origin fromComponent =>
    exact ((Sheetwise.inlineSheet env s source origin fromComponent).requests l).trans
      (List.append_nil _).symm

theorem prepared_requests (env : Env) (siteRoot : Path) (lints : Bool) (cs : List Call)
    (l : Location) :
    (prepared env siteRoot lints cs).requests l = cs.filterMap (Call.request? l) := by
  induction cs using List.reverseRecOn with
  | nil => rfl
  | append_singleton cs c ih =>
    rw [prepared_concat, call_requests, ih, List.filterMap_append]
    rfl

theorem prepared_filesScoped (env : Env) (siteRoot : Path) (lints : Bool) (cs : List Call)
    (index : Location → TemplateId) :
    FilesScoped env index (fun l => cs.filterMap (Call.request? l))
      (prepared env siteRoot lints cs) := by
  constructor
  · intro t ht hloaded
    cases (prepared_pending env siteRoot lints cs t ht).symm.trans hloaded
  · exact fun l _ => prepared_requests env siteRoot lints cs l

/-! ## runs -/

theorem run_scopes (env : Env) (siteRoot : Path) (lints : Bool) (cs : List Call) (fuel : Nat)
    {s : Session} (hrun : (prepared env siteRoot lints cs).run env fuel = some s)
    {index : Location → TemplateId} (hindex : Indexes index s) :
    FilesScoped env index (fun l => cs.filterMap (Call.request? l)) s := by
  have hall : s.Sound ∧ (∃ record, Accounted env none s record) ∧ (Indexes index s →
      FilesScoped env index (fun l => cs.filterMap (Call.request? l)) s) := by
    refine run_induction (fun s => s.Sound ∧ (∃ record, Accounted env none s record) ∧
      (Indexes index s → FilesScoped env index _ s)) ?_ hrun
      ⟨prepared_sound env siteRoot lints cs,
        (accounted env).prepared ⟨[], Accounted.start env siteRoot lints⟩ cs,
        fun _ => prepared_filesScoped env siteRoot lints cs index⟩
    rintro s s' hstep ⟨hsound, ⟨record, hrecord⟩, h⟩
    exact ⟨step_sound env hstep hsound, (accounted env).step hstep hsound ⟨record, hrecord⟩,
      step_filesScoped hstep hsound hrecord.templates h⟩
  exact hall.2.2 hindex

/-! ## numbers and locations -/

/-- the number of the template at a location; of none if nothing is registered for it -/
def number (s : Session) (l : Location) : TemplateId :=
  ((s.catalog.template? l).map Template.id).getD s.catalog.templates.length

/-- the locations of the templates with the given numbers -/
def located (s : Session) (ids : List TemplateId) : List (Option Location) :=
  ids.map fun id => s.catalog.templates[id]?.map Template.location

section
variable {s : Session}

theorem location_number (hsound : s.catalog.Sound) {l : Location}
    (hl : s.number l ∈ s.catalog.templates.map Template.id) :
    s.catalog.templates[s.number l]?.map Template.location = some l := by
  unfold number at hl ⊢
  cases hfound : s.catalog.template? l with
  | none =>
    rw [hfound] at hl
    exact absurd (hsound.templates.lt_of_mem_map hl) (Nat.lt_irrefl _)
  | some t =>
    obtain ⟨ht, hlocation⟩ := Catalog.template?_eq_some hfound
    show s.catalog.templates[t.id]?.map Template.location = some l
    rw [hsound.templates.getElem?_of_mem ht, Option.map_some, hlocation]

/-- every template is the one at its location -/
theorem indexes_number (h : s.ledger.Recorded) (hsound : s.catalog.Sound) :
    Indexes s.number s := by
  intro t ht
  have hcards := h.tallied.accounts .template
  have hcard (u : Template) (hu : u ∈ s.catalog.templates) :
      (s.ledger.cards .template)[u.id]? = some u.card := by
    show (s.catalog.templates.map Template.card)[u.id]? = _
    rw [List.getElem?_map, hsound.templates.getElem?_of_mem hu, Option.map_some]
  unfold number
  cases hfound : s.catalog.template? t.location with
  | none => exact absurd (decide_eq_true rfl) (List.find?_eq_none.1 hfound t ht)
  | some u =>
    obtain ⟨hu, hlocation⟩ := Catalog.template?_eq_some hfound
    have hsame : u.card = t.card := hcards.eq_of_isAt (hcard u hu) (hcard t ht)
      (Card.isAt_iff.2 ⟨rfl, hlocation⟩) (Card.isAt_iff.2 ⟨rfl, rfl⟩)
    exact congrArg Card.id hsame

/-- imports by the numbers of registered templates -/
theorem located_addAll (hsound : s.catalog.Sound) (o : Origin) {refs : List Text}
    (hclosed : ∀ id ∈ addAll (numbers s.number o refs) [],
      id ∈ s.catalog.templates.map Template.id) :
    s.located (addAll (numbers s.number o refs) [])
      = (refs.map o.location.resolvePath).eraseDups.map some := by
  have hnumbers : numbers s.number o refs = (refs.map o.location.resolvePath).map s.number := by
    rw [List.map_map]
    rfl
  rw [Declarations.addAll_eq_eraseDups, hnumbers] at hclosed ⊢
  have hat (l : Location) (hl : l ∈ refs.map o.location.resolvePath) :
      s.catalog.templates[s.number l]?.map Template.location = some l :=
    location_number hsound (hclosed _ (List.mem_eraseDups.2 (List.mem_map_of_mem hl)))
  have hinj (a : Location) (ha : a ∈ refs.map o.location.resolvePath) (b : Location)
      (hb : b ∈ refs.map o.location.resolvePath) (hab : s.number a = s.number b) : a = b := by
    have hsame := hat a ha
    rw [hab, hat b hb] at hsame
    exact (Option.some.inj hsame).symm
  rw [eraseDups_map_of_injOn hinj]
  unfold located
  rw [List.map_map]
  apply List.map_congr_left
  intro l hl
  exact hat l (List.mem_eraseDups.1 hl)

/-- a template is there because a file has called for it, or as a main template -/
theorem called_of_mem (h : s.ledger.Recorded) {u : Template} (hu : u ∈ s.catalog.templates) :
    .main u.location ∈ s.calls ∨
      ∃ l, ∃ reference ∈ s.requests l, l.resolvePath reference = u.location := by
  have hmention := ((h.tallied.accounts .template).mem_firsts_iff u.location).2
    ⟨u.card, List.mem_map_of_mem hu, Card.isAt_iff.2 ⟨rfl, rfl⟩⟩
  obtain ⟨m, hm, hresource⟩ := List.mem_map.1 (mem_firsts.1 hmention)
  obtain ⟨c, hc, hcm⟩ := List.mem_filterMap.1 hm
  have hc : c ∈ s.calls := (Call.effective_sublist false s.calls).subset hc
  cases c with
  | main l =>
    obtain rfl := Option.some.inj hcm
    obtain rfl : l = u.location := congrArg Resource.location hresource
    exact .inl hc
  | template reference origin =>
    obtain rfl := Option.some.inj hcm
    refine .inr ⟨origin, reference, ?_, congrArg Resource.location hresource⟩
    exact List.mem_filterMap.2 ⟨_, hc, if_pos rfl⟩
  | sheet url origin =>
    obtain rfl := Option.some.inj hcm
    cases congrArg Resource.kind hresource
  | inline source origin fromComponent => cases hcm

end

/-! ## finished runs -/

/-- what a file and its declarations import, and what the file has called for on top of what
was called for at its location from outside -/
structure ImportsScoped (s : Session) (outside : List Text) (t : Template)
    (f : Html.Fragment) : Prop where
  file : s.located t.imports
    = ((topImportsOf f.children).map t.location.resolvePath).eraseDups.map some
  declarations : (s.catalog.declarations t).map (fun d => (d.name, s.located d.imports))
    = (declaredAll t.isMain [] f.children).map fun d =>
      (d.name, (d.imports.map t.location.resolvePath).eraseDups.map some)
  requests : (s.requests t.location).Perm (outside ++ (topImportsOf f.children
    ++ (declaredAll t.isMain [] f.children).flatMap Declared.imports))

/-- **Every import counts in its innermost scope, and no other import counts.**  Whatever is read
and parsed and whatever has been called for, at the end of a run the imports of a file and of its
declarations are the templates that its tree names there, in document order and each once; all of
them are registered.  A file has called for what they name and for nothing else, and what nobody
has called for is not there; so an `import` in a declaration that is refused registers nothing. -/
theorem run_scoped (env : Env) (siteRoot : Path) (lints : Bool) (cs : List Call) (fuel : Nat)
    (s : Session) (hrun : (prepared env siteRoot lints cs).run env fuel = some s) :
    (∀ t ∈ s.catalog.templates, ∀ f, env.template t.location = .ok f →
      areRegular f.children = true →
      s.ImportsScoped (cs.filterMap (Call.request? t.location)) t f) ∧
    ∀ u ∈ s.catalog.templates, .main u.location ∈ s.calls ∨
      ∃ l, ∃ reference ∈ s.requests l, l.resolvePath reference = u.location := by
  have hsound := (run_sound env fuel hrun (prepared_sound env siteRoot lints cs)).catalog
  have hrecorded := (run_recorded env fuel hrun (prepared_recorded env siteRoot lints cs)).1
  refine ⟨fun t ht f hf hregular => ?_, fun u hu => called_of_mem hrecorded hu⟩
  have hindex := indexes_number hrecorded hsound
  have h := (run_scopes env siteRoot lints cs fuel hrun hindex).loaded t ht
    (run_loaded env siteRoot lints cs fuel hrun ht hf) f hf hregular
  refine ⟨?_, ?_, h.requests⟩
  · have hclosed := (hsound.templates_closed t ht).imports
    rw [h.imports] at hclosed ⊢
    exact located_addAll hsound t.origin hclosed
  · have hcomponents := h.components
    rw [Catalog.importers_eq] at hcomponents
    have hboth := congrArg (List.map fun e => (e.name, s.located e.imports)) hcomponents
    rw [List.map_map, List.map_map] at hboth
    refine hboth.trans (List.map_congr_left fun d hd => ?_)
    -- the component of the declaration
    obtain ⟨c, hc, he⟩ := List.mem_map.1 (hcomponents.symm ▸ List.mem_map_of_mem hd :
      d.importer s.number t.origin ∈ (s.catalog.declarations t).map Component.importer)
    have himports : c.imports = addAll (numbers s.number t.origin d.imports) [] :=
      congrArg Importer.imports he
    have hclosed := (hsound.components_closed c (List.mem_filter.1 hc).1).imports
    rw [himports] at hclosed
    exact congrArg (d.name, ·) (located_addAll hsound t.origin hclosed)

def importNode (src : String) : Html.Node :=
  .element "import".toList (.ofList [("src".toList, src.toList)]) []

/-- a page with imports of its own, in nested declarations and in refused ones -/
def tangle : Html.Fragment :=
  let declaring (name : String) (children : List Html.Node) : Html.Node :=
    .element "component".toList (.ofList [("name".toList, name.toList)]) children
  ⟨[.fragment [importNode "b"] false,
    declaring "outer" [importNode "d",
      .element "p".toList .empty [importNode "b",
        declaring "inner" [importNode "c", importNode "q/../c"], importNode "d"]],
    declaring "OUTER" [importNode "never"],
    .element "component".toList .empty [importNode "never"],
    importNode "b"], true⟩

/-- the page, and other files in which `html` is refused -/
def tangled : Env where
  read _ := .ok []
  parseMarkup _ file := if file = "x/a".toList then .ok tangle
    else .ok ⟨[.element "html".toList .empty [importNode "never"]], false⟩
  parseCss _ _ := ⟨[], .ok (.sheet [])⟩

/-- each scope has its imports once and in order, and the refused ones have left nothing -/
theorem run_scoped_tangled : ∃ s,
    (prepared tangled ⟨true, []⟩ true [.main (.remote "x/a".toList)]).run tangled 5 = some s ∧
    (∃ t ∈ s.catalog.templates, t.location = .remote "x/a".toList ∧
      s.ImportsScoped [] t tangle ∧ s.located t.imports = [some (.remote "x/b".toList)]) ∧
    s.catalog.components.map (fun d => (d.name, s.located d.imports))
      = [("outer".toList, [some (.remote "x/d".toList), some (.remote "x/b".toList)]),
        ("inner".toList, [some (.remote "x/c".toList)])] ∧
    s.catalog.templates.map Template.location = [.remote "x/a".toList, .remote "x/b".toList,
      .remote "x/d".toList, .remote "x/c".toList] := by
  have hfacts : ((prepared tangled ⟨true, []⟩ true [.main (.remote "x/a".toList)]).run tangled
      5).map (fun s => (s.catalog.components.map (fun d => (d.name, s.located d.imports)),
        s.catalog.templates.map Template.location))
      = some ([("outer".toList, [some (.remote "x/d".toList), some (.remote "x/b".toList)]),
        ("inner".toList, [some (.remote "x/c".toList)])], [.remote "x/a".toList,
        .remote "x/b".toList, .remote "x/d".toList, .remote "x/c".toList]) := by
    decide
  obtain ⟨s, hrun, hs⟩ := Option.map_eq_some_iff.1 hfacts
  obtain ⟨hcomponents, hlocations⟩ := Prod.mk.inj hs
  have hpage : Location.remote "x/a".toList ∈ s.catalog.templates.map Template.location :=
    hlocations ▸ List.mem_cons_self
  obtain ⟨t, ht, hlocation⟩ := List.mem_map.1 hpage
  have hread : tangled.template t.location = .ok tangle := hlocation ▸ rfl
  have hscoped := (run_scoped _ _ _ _ _ s hrun).1 t ht tangle hread (by decide)
  refine ⟨s, hrun, ⟨t, ht, hlocation, hscoped, ?_⟩, hcomponents, hlocations⟩
  rw [hscoped.file, hlocation]
  decide

end Session

end PageTemplates
