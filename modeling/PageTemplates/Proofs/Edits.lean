import PageTemplates.Proofs.Sheetwise
import PageTemplates.Proofs.Sound

/-!
# What loading is made of

Calls, jobs and the walk of discovery change a session by edits of a few kinds.  Most edits touch
one object.  Between the moment when the source of a sheet is at hand and the moment when the sheet
is stored, other sheets are registered; in between, the sheet is neither in the queue nor done.

* `Env.template`, `Env.sheet`   what reading and parsing give, with the problem that is reported;
* `Filling`      the sheet that is being filled in;
* `Edit`         one edit, with what is known of its arguments;
* `Working`      the template whose tree is walked is registered and loaded;
* `Invariant`    what every edit keeps, and every move of discovery;
* `Invariant.prepared_run`      it holds at the end of every run.
-/

namespace PageTemplates

/-- what the template at a location comes to, or what is reported of it -/
def Env.template (env : Env) (l : Location) : Except Problem Html.Fragment :=
  (env.read l >>= fun source => env.parseMarkup source l.toText).mapError .resource

/-- what a sheet comes to whose source is at hand, or what is reported of it -/
def Env.sheet (env : Env) : Except ResourceError Text → Except Problem Css.Node
  | .error e => .error (.resource e)
  | .ok source => (env.parseCss true source).result.mapError .cssFailure

/-- the body of a `<style>` with its origin, if that is what is called for -/
def Call.inline? : Call → Option (Except ResourceError Text × Location × Bool)
  | .inline source origin fromComponent => some (.ok source, origin, fromComponent)
  | _ => none

/-- what stays of a template while others are registered and trees are walked -/
def Template.stage (t : Template) : (TemplateId × Location × Bool) × Status := (t.place, t.status)

theorem Template.status_of_stage {t : Template} {place : TemplateId × Location × Bool}
    {status : Status} (h : t.stage = (place, status)) : t.status = status := (Prod.mk.inj h).2

theorem Template.location_of_stage {t : Template} {id : TemplateId} {l : Location} {isMain : Bool}
    {status : Status} (h : t.stage = ((id, l, isMain), status)) : t.location = l :=
  (Prod.mk.inj (Prod.mk.inj (Prod.mk.inj h).1).2).1

namespace Session
open Declarations (Move Moves)

/-- a sheet that is being filled in, and what was read for it -/
structure Filling where
  id : SheetId
  source : Except ResourceError Text

/-- a template that nothing has referred to before -/
def newTemplate (s : Session) (l : Location) (usedFrom : Text) (isMain : Bool) : Session :=
  { s with
    catalog := { s.catalog with
      templates := s.catalog.templates ++ [.register s.catalog.templates.length l usedFrom isMain] }
    queue := s.queue ++ [.template s.catalog.templates.length] }

/-- a shared sheet that nothing has referred to before -/
def newSheet (s : Session) (l : Location) (usedFrom : Text) : Session :=
  { s with
    catalog := { s.catalog with
      sheets := s.catalog.sheets ++ [.register s.catalog.sheets.length l usedFrom false false] }
    queue := s.queue ++ [.sheet s.catalog.sheets.length] }

/-- a job is off the queue, and its location has been read -/
def taken (s : Session) (queue : List Job) (l : Location) : Session :=
  { s with queue, reads := s.reads ++ [l] }

/-- one edit; before and after it a sheet may be being filled in -/
inductive Edit (env : Env) : Option Filling → Session → Option Filling → Session → Prop where
  | warn {w : Option Filling} {s : Session} (file : Text) (faults : List Css.Fault) :
      Edit env w s w (s.mapCatalog (·.reportAll file (faults.map .cssProblem)))
  | note {w : Option Filling} {s : Session} (c : Call) (other : c.inline? = none) :
      Edit env w s w (s.note c)
  | main {w : Option Filling} {s : Session} (id : TemplateId)
      (registered : id ∈ s.catalog.templates.map Template.id) :
      Edit env w s w (s.mapCatalog fun c => { c with main := some id })
  | mentionTemplate {w : Option Filling} {s : Session} (id : TemplateId) (usedFrom : Text) :
      Edit env w s w (s.mapCatalog (·.modifyTemplate id (Template.mention usedFrom)))
  | newTemplate {w : Option Filling} {s : Session} (l : Location) (usedFrom : Text)
      (isMain : Bool) : Edit env w s w (s.newTemplate l usedFrom isMain)
  | mentionSheet {w : Option Filling} {s : Session} (id : SheetId) (usedFrom : Text) :
      Edit env w s w (s.mapCatalog (·.modifySheet id (Sheet.mention usedFrom)))
  | newSheet {w : Option Filling} {s : Session} (l : Location) (usedFrom : Text) :
      Edit env w s w (s.newSheet l usedFrom)
  | newInline {s : Session} (source : Text) (origin : Location) (fromComponent : Bool) :
      Edit env none s (some ⟨s.catalog.sheets.length, .ok source⟩)
        ((s.note (.inline source origin fromComponent)).registerInline origin fromComponent)
  | takeSheet {s : Session} (id : SheetId) (queue : List Job) (sheet : Sheet)
      (hq : s.queue = .sheet id :: queue) (hsheet : s.catalog.sheets[id]? = some sheet)
      (pending : sheet.status = .pending) :
      Edit env none s (some ⟨id, env.read sheet.location⟩) (s.taken queue sheet.location)
  | failSheet {s : Session} (f : Filling) (sheet : Sheet) (p : Problem)
      (hsheet : s.catalog.sheets[f.id]? = some sheet) (pending : sheet.status = .pending)
      (hp : env.sheet f.source = .error p) :
      Edit env (some f) s none
        ((s.mapCatalog (·.modifySheet f.id fun sheet => { sheet with status := .failed })).report
          sheet.file p)
  | fillSheet {s : Session} (f : Filling) (sheet : Sheet) (ast : Css.Node) (ids : List SheetId)
      (hsheet : s.catalog.sheets[f.id]? = some sheet) (pending : sheet.status = .pending)
      (hast : env.sheet f.source = .ok ast)
      (registered : ∀ id ∈ ids, id ∈ s.catalog.sheets.map Sheet.id) :
      Edit env (some f) s none (s.mapCatalog (·.modifySheet f.id fun sheet =>
        { sheet with ast := some ast, imports := ids, status := .loaded }))
  | failTemplate {s : Session} (t : Template) (queue : List Job) (p : Problem)
      (hq : s.queue = .template t.id :: queue) (ht : s.catalog.templates[t.id]? = some t)
      (pending : t.status = .pending) (hp : env.template t.location = .error p) :
      Edit env none s none
        (((s.taken queue t.location).mapCatalog
          (·.modifyTemplate t.id fun t => { t with status := .failed })).report t.file p)
  | takeTemplate {s : Session} (t : Template) (queue : List Job) (fragment : Html.Fragment)
      (hq : s.queue = .template t.id :: queue) (ht : s.catalog.templates[t.id]? = some t)
      (pending : t.status = .pending) (hf : env.template t.location = .ok fragment) :
      Edit env none s none
        ((s.taken queue t.location).mapCatalog
          (·.modifyTemplate t.id fun t => { t with status := .loaded }))

theorem newTemplate_grows (s : Session) (l : Location) (usedFrom : Text) (isMain : Bool) :
    s.Grows (s.newTemplate l usedFrom isMain) := by
  refine ⟨?_, List.prefix_refl _, List.prefix_refl _, List.prefix_refl _, rfl⟩
  show _ <+: (s.catalog.templates ++ [_]).map Template.place
  rw [List.map_append]
  exact List.prefix_append _ _

theorem newSheet_grows (s : Session) (l : Location) (usedFrom : Text) :
    s.Grows (s.newSheet l usedFrom) := by
  refine ⟨List.prefix_refl _, ?_, List.prefix_refl _, List.prefix_refl _, rfl⟩
  show _ <+: (s.catalog.sheets ++ [_]).map Sheet.place
  rw [List.map_append]
  exact List.prefix_append _ _

/-! ## the template at hand -/

theorem registerTemplate_stages (s : Session) (l : Location) (usedFrom : Text) (isMain : Bool) :
    s.catalog.templates.map Template.stage
      <+: (s.registerTemplate l usedFrom isMain).2.catalog.templates.map Template.stage := by
  unfold registerTemplate
  split
  · exact prefix_map_modify Template.stage (Template.mention usedFrom) (fun _ => rfl) _ _
  · show _ <+: (s.catalog.templates ++ [_]).map Template.stage
    rw [List.map_append]
    exact List.prefix_append _ _

theorem move_stages {env : Env} {o : Origin} {s s' : Session} (m : Move env o s s') :
    s.catalog.templates.map Template.stage <+: s'.catalog.templates.map Template.stage := by
  -- a change of the template at hand
  have change (f : Template → Template) (hf : ∀ t, (f t).stage = t.stage) :
      s.catalog.templates.map Template.stage
        <+: (s.catalog.templates.modify o.template f).map Template.stage :=
    prefix_map_modify Template.stage f hf _ _
  cases m with
  | report p => exact List.prefix_refl _
  | declare name params => exact change _ (fun _ => rfl)
  | body id body => exact List.prefix_refl _
  | useTemplate reference => exact registerTemplate_stages (s.note _) _ _ false
  | importSheet url =>
    exact ⟨[], (List.append_nil _).trans
      (congrArg (List.map _) (Sheetwise.importSheet s url o.location).templates).symm⟩
  | inlineSheet source =>
    exact ⟨[], (List.append_nil _).trans
      (congrArg (List.map _) (Sheetwise.inlineSheet env s source o.location _).templates).symm⟩
  | fileImport id => exact change _ (fun _ => rfl)
  | componentImport owner id => exact List.prefix_refl _
  | sheet id => exact change _ (fun _ => rfl)
  | fileLink link => exact change _ (fun _ => rfl)
  | componentLink owner link => exact List.prefix_refl _
  | testData l => exact change _ (fun _ => rfl)
  | host host id => exact change _ (fun t => by cases host <;> rfl)

/-- the template whose tree is walked is registered and loaded -/
def Working (o : Origin) (s : Session) : Prop :=
  ∃ t, s.catalog.templates[o.template]? = some t ∧
    t.stage = ((o.template, o.location, o.isMain), .loaded)

theorem Working.move {env : Env} {o : Origin} {s s' : Session} (h : Working o s)
    (m : Move env o s s') : Working o s' := by
  obtain ⟨t, ht, hstage⟩ := h
  obtain ⟨t', ht', he⟩ := getElem?_of_map_prefix Template.stage (move_stages m) ht
  exact ⟨t', ht', he.trans hstage⟩

/-! ## the sheet at hand -/

theorem importSheets_pending (urls : List Text) (origin : Location) {s : Session} {id : SheetId}
    {sheet : Sheet} (hsheet : s.catalog.sheets[id]? = some sheet)
    (pending : sheet.status = .pending) :
    ∃ sheet', (s.importSheets urls origin).2.catalog.sheets[id]? = some sheet' ∧
      sheet'.status = .pending := by
  induction urls generalizing s sheet with
  | nil => exact ⟨sheet, hsheet, pending⟩
  | cons url urls ih =>
    have hprefix : s.catalog.sheets.map Sheet.status
        <+: (s.importSheet url origin).2.catalog.sheets.map Sheet.status := by
      unfold importSheet registerSheet
      split
      · exact prefix_map_modify Sheet.status (Sheet.mention origin.toText) (fun _ => rfl) _ _
      · show _ <+: (s.catalog.sheets ++ [_]).map Sheet.status
        rw [List.map_append]
        exact List.prefix_append _ _
    obtain ⟨sheet', hsheet', he⟩ := getElem?_of_map_prefix Sheet.status hprefix hsheet
    exact ih hsheet' (he.trans pending)

/-! ## invariants -/

/-- what every edit keeps, and every move of discovery, given that calls keep it -/
structure Invariant (env : Env) (P : Option Filling → Session → Prop) : Prop where
  edit : ∀ {w s w' s'}, Edit env w s w' s' → P w s → P w' s'
  move : ∀ {o s s'}, Move env o s s' → Working o s → (∀ c, P none (s.call env c)) → P none s →
    P none s'

namespace Invariant
variable {env : Env} {P : Option Filling → Session → Prop} (h : Invariant env P)
include h

theorem registerTemplate {w : Option Filling} {s : Session} (hs : P w s) (l : Location)
    (usedFrom : Text) (isMain : Bool) : P w (s.registerTemplate l usedFrom isMain).2 := by
  unfold Session.registerTemplate
  split
  · exact h.edit (.mentionTemplate _ usedFrom) hs
  · exact h.edit (.newTemplate l usedFrom isMain) hs

theorem useMain {s : Session} (hs : P none s) (l : Location) : P none (s.useMain l).2 := by
  have hnote := h.edit (.note (.main l) rfl) hs
  unfold Session.useMain
  dsimp only
  split
  · exact hnote
  · exact h.edit (.main _ (registerTemplate_mem _ l "<entry>".toList true))
      (h.registerTemplate hnote l "<entry>".toList true)

theorem importSheet {w : Option Filling} {s : Session} (hs : P w s) (url : Text)
    (origin : Location) : P w (s.importSheet url origin).2 := by
  have hnote := h.edit (.note (.sheet url origin) rfl) hs
  unfold Session.importSheet registerSheet
  split
  · exact h.edit (.mentionSheet _ _) hnote
  · exact h.edit (.newSheet _ _) hnote

theorem importSheets {w : Option Filling} {s : Session} (hs : P w s) (urls : List Text)
    (origin : Location) : P w (s.importSheets urls origin).2 := by
  induction urls generalizing s with
  | nil => exact hs
  | cons url urls ih => exact ih (h.importSheet hs url origin)

/-- a sheet whose source could be read is parsed and stored -/
theorem parsed {s : Session} {id : SheetId} {source : Text} {sheet : Sheet}
    (hs : P (some ⟨id, .ok source⟩) s) (hsheet : s.catalog.sheets[id]? = some sheet)
    (pending : sheet.status = .pending) (l : Location) :
    P none ((s.parseSheet env source sheet.file).2.finishSheet id l
      (s.parseSheet env source sheet.file).1) := by
  have hwarn := h.edit (.warn sheet.file (env.parseCss true source).problems) hs
  unfold parseSheet
  dsimp only
  cases hresult : (env.parseCss true source).result with
  | error fault =>
    refine h.edit (.failSheet ⟨id, .ok source⟩ sheet (.cssFailure fault) hsheet pending ?_) hwarn
    show (env.parseCss true source).result.mapError Problem.cssFailure = _
    rw [hresult]
    rfl
  | ok ast =>
    have himports := h.importSheets hwarn ast.importUrls l
    obtain ⟨sheet', hsheet', pending'⟩ := importSheets_pending ast.importUrls l
      (s := s.mapCatalog (·.reportAll sheet.file ((env.parseCss true source).problems.map _)))
      hsheet pending
    refine h.edit (.fillSheet ⟨id, .ok source⟩ sheet' ast _ hsheet' pending' ?_
      (importSheets_mem _ ast.importUrls l)) himports
    show (env.parseCss true source).result.mapError Problem.cssFailure = _
    rw [hresult]
    rfl

theorem inlineSheet {s : Session} (hs : P none s) (source : Text) (origin : Location)
    (fromComponent : Bool) : P none (s.inlineSheet env source origin fromComponent).2 := by
  have hnew := h.edit (.newInline source origin fromComponent) hs
  exact h.parsed hnew (getElem?_registerInline s origin fromComponent) rfl origin

theorem call {s : Session} (hs : P none s) (c : Call) : P none (s.call env c) := by
  cases c with
  | main l => exact h.useMain hs l
  | template reference origin =>
    exact h.registerTemplate (h.edit (.note (.template reference origin) rfl) hs) _ _ false
  | sheet url origin => exact h.importSheet hs url origin
  | inline source origin fromComponent => exact h.inlineSheet hs source origin fromComponent

theorem moves {o : Origin} {s s' : Session} (m : Moves env o s s') (hwork : Working o s)
    (hs : P none s) : P none s' ∧ Working o s' := by
  induction m with
  | refl => exact ⟨hs, hwork⟩
  | tail _ m ih => exact ⟨h.move m ih.2 (h.call ih.1) ih.1, ih.2.move m⟩

theorem loadTemplate {s : Session} {queue : List Job} {t : Template}
    (hq : s.queue = .template t.id :: queue) (ht : s.catalog.templates[t.id]? = some t)
    (pending : t.status = .pending) (hs : P none s) :
    P none (({ s with queue } : Session).loadTemplate env t) := by
  unfold Session.loadTemplate
  dsimp only
  cases hread : env.read t.location >>= fun source => env.parseMarkup source t.file with
  | error e =>
    refine h.edit (.failTemplate t queue (.resource e) hq ht pending ?_) hs
    show (env.read t.location >>= fun source => env.parseMarkup source t.file).mapError _ = _
    rw [hread]
    rfl
  | ok fragment =>
    have htake := h.edit (.takeTemplate t queue fragment hq ht pending ?_) hs
    · refine (h.moves (Declarations.discover_moves env _ fragment _) ?_ htake).1
      refine ⟨{ t with status := .loaded }, ?_, rfl⟩
      show (s.catalog.templates.modify t.id _)[t.id]? = _
      rw [List.getElem?_modify_eq, ht]
      rfl
    · show (env.read t.location >>= fun source => env.parseMarkup source t.file).mapError _ = _
      rw [hread]
      rfl

theorem loadSheet {s : Session} {queue : List Job} {sheet : Sheet}
    (hq : s.queue = .sheet sheet.id :: queue)
    (hsheet : s.catalog.sheets[sheet.id]? = some sheet) (pending : sheet.status = .pending)
    (hs : P none s) : P none (({ s with queue } : Session).loadSheet env sheet) := by
  have htake := h.edit (.takeSheet sheet.id queue sheet hq hsheet pending) hs
  unfold Session.loadSheet
  dsimp only
  cases hread : env.read sheet.location with
  | error e =>
    rw [hread] at htake
    exact h.edit (.failSheet ⟨sheet.id, .error e⟩ sheet (.resource e) hsheet pending rfl) htake
  | ok source =>
    rw [hread] at htake
    exact h.parsed htake hsheet pending sheet.location

theorem step {s s' : Session} (hstep : s.step env = some s') (hsound : s.Sound)
    (hs : P none s) : P none s' := by
  rcases step_cases hstep hsound with
    ⟨t, queue, hq, ht, hstatus, rfl⟩ | ⟨sheet, queue, hq, hsheet, hstatus, rfl⟩
  · exact h.loadTemplate hq ht hstatus hs
  · exact h.loadSheet hq hsheet hstatus hs

theorem run (fuel : Nat) {s s' : Session} (hrun : s.run env fuel = some s') (hsound : s.Sound)
    (hs : P none s) : P none s' := by
  have hboth : s'.Sound ∧ P none s' := by
    refine run_induction (fun s' => s'.Sound ∧ P none s') (fun s s' hstep hs => ?_) hrun
      ⟨hsound, hs⟩
    exact ⟨step_sound env hstep hs.1, h.step hstep hs.1 hs.2⟩
  exact hboth.2

/-- an invariant that holds at the start holds of what has been prepared -/
theorem prepared {siteRoot : Path} {lints : Bool} (hstart : P none (start siteRoot lints))
    (cs : List Call) : P none (Session.prepared env siteRoot lints cs) := by
  induction cs using List.reverseRecOn with
  | nil => exact hstart
  | append_singleton cs c ih =>
    rw [prepared_concat]
    exact h.call ih c

/-- an invariant that holds at the start holds after every run -/
theorem prepared_run {siteRoot : Path} {lints : Bool} (hstart : P none (start siteRoot lints))
    (cs : List Call) (fuel : Nat) {s : Session}
    (hrun : (Session.prepared env siteRoot lints cs).run env fuel = some s) : P none s :=
  h.run fuel hrun (prepared_sound env siteRoot lints cs) (h.prepared hstart cs)

end Invariant

end Session

end PageTemplates
