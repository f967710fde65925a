import PageTemplates.Proofs.Edits

/-!
# Failures

A resource that cannot be read or understood leaves an empty object and one error, and nothing else
changes on its account.  The source of a sheet is not kept in the catalog; a `Record` holds every
sheet with what was read for it.

* `Sourced`               the record of a session: shared sheets are read at their locations, inline
                          sheets are the bodies that have been called for, in order;
* `TemplatesAccounted`    templates are what their sources come to, once no job is left for them;
* `SheetsAccounted`       the same of sheets;
* `FailuresAccounted`     the failures in the log are those of the failed objects, one for each;
* `accounted`             the invariant made of these;
* `Isolated`, `run_failures`   finished runs.
-/

namespace PageTemplates

/-! ## lists that change in one place -/

section
variable {α β : Type}

theorem filterMap_modify_of_eq (g : α → Option β) (f : α → α) (h : ∀ a, g (f a) = g a)
    (l : List α) (i : Nat) : (l.modify i f).filterMap g = l.filterMap g := by
  have hmap (l : List α) : l.filterMap g = (l.map g).filterMap id := by rw [List.filterMap_map]; rfl
  rw [hmap, map_modify_of_eq g f h, ← hmap]

/-- what an entry contributes after a change, if it contributed the same before -/
theorem flatMap_modify_of_eq (g : α → List β) (f : α → α) {l : List α} {i : Nat}
    (h : ∀ a, l[i]? = some a → g (f a) = g a) : (l.modify i f).flatMap g = l.flatMap g := by
  induction l generalizing i with
  | nil => rw [List.modify_nil]
  | cons b l ih =>
    cases i with
    | zero => rw [List.modify_zero_cons, List.flatMap_cons, List.flatMap_cons, h b rfl]
    | succ i => rw [List.modify_succ_cons, List.flatMap_cons, List.flatMap_cons, ih h]

/-- what an entry contributes after a change, if it contributed nothing before -/
theorem flatMap_modify_perm (g : α → List β) (f : α → α) {l : List α} {i : Nat} {a : α}
    (ha : l[i]? = some a) (hnone : g a = []) :
    ((l.modify i f).flatMap g).Perm (l.flatMap g ++ g (f a)) := by
  induction l generalizing i with
  | nil => cases ha
  | cons b l ih =>
    cases i with
    | zero =>
      obtain rfl : b = a := Option.some.inj ha
      rw [List.modify_zero_cons, List.flatMap_cons, List.flatMap_cons, hnone]
      exact List.perm_append_comm
    | succ i =>
      rw [List.modify_succ_cons, List.flatMap_cons, List.flatMap_cons, List.append_assoc]
      exact (ih ha).append_left _

end

/-! ## outcomes -/

theorem Problem.severity_of_isFailure {p : Problem} (h : p.isFailure = true) :
    p.severity = .error := by
  cases p <;> first | rfl | cases h

theorem Env.isFailure_of_template {env : Env} {l : Location} {p : Problem}
    (h : env.template l = .error p) : p.isFailure = true := by
  unfold template at h
  cases hread : env.read l >>= fun source => env.parseMarkup source l.toText with
  | error e =>
    rw [hread] at h
    exact Except.error.inj h ▸ rfl
  | ok fragment =>
    rw [hread] at h
    cases h

theorem Env.isFailure_of_sheet {env : Env} {source : Except ResourceError Text} {p : Problem}
    (h : env.sheet source = .error p) : p.isFailure = true := by
  unfold sheet at h
  split at h
  · exact Except.error.inj h ▸ rfl
  · next source =>
    cases hresult : (env.parseCss true source).result with
    | error fault =>
      rw [hresult] at h
      exact Except.error.inj h ▸ rfl
    | ok ast =>
      rw [hresult] at h
      cases h

/-- the error that stands for a failed object -/
def failure {α : Type} (file : Text) : Status → Except Problem α → List Entry
  | .failed, .error p => [⟨some file, p⟩]
  | _, _ => []

theorem failure_of_error {α : Type} {file : Text} {outcome : Except Problem α} {p : Problem}
    (hp : outcome = .error p) : failure file .failed outcome = [⟨some file, p⟩] := by
  rw [hp]
  rfl

theorem failure_of_not_failed {α : Type} {file : Text} {status : Status}
    {outcome : Except Problem α} (h : status ≠ .failed) : failure file status outcome = [] := by
  cases status with
  | failed => exact absurd rfl h
  | pending => rfl
  | loaded => rfl

def Template.failures (env : Env) (t : Template) : List Entry :=
  failure t.file t.status (env.template t.location)

/-- a sheet with what was read for it -/
abbrev Record := List (Sheet × Except ResourceError Text)

/-- the errors that stand for the sheets of a record -/
def sheetFailures (env : Env) (e : Sheet × Except ResourceError Text) : List Entry :=
  failure e.1.file e.1.status (env.sheet e.2)

/-- nothing has been found in the template -/
structure Template.Blank (t : Template) : Prop where
  tags : t.tags = .empty
  imports : t.imports = []
  sheets : t.sheets = []
  links : t.links = []
  fontHost : t.fontHost = none
  styleHost : t.styleHost = none
  testData : t.testData = none

/-- nothing has been found in the sheet -/
structure Sheet.Blank (s : Sheet) : Prop where
  ast : s.ast = none
  imports : s.imports = []

/-! ## templates -/

/-- a template is what its source comes to, or there is a job for it -/
structure TemplateAccounted (env : Env) (queue : List Job) (id : TemplateId) (t : Template) :
    Prop where
  pending : t.status = .pending → Job.template id ∈ queue
  failed : t.status = .failed → ∃ p, env.template t.location = .error p
  loaded : t.status = .loaded → ∃ fragment, env.template t.location = .ok fragment
  blank : t.status ≠ .loaded → t.Blank

structure TemplatesAccounted (env : Env) (queue : List Job) (ts : List Template)
    (ds : List Component) : Prop where
  templates : ∀ i t, ts[i]? = some t → TemplateAccounted env queue i t
  /-- only loaded templates have components -/
  components : ∀ d ∈ ds, ∃ t, ts[d.template]? = some t ∧ t.status = .loaded

theorem TemplateAccounted.of_stage {env : Env} {queue : List Job} {id : TemplateId}
    {t t' : Template} (h : TemplateAccounted env queue id t) (hstage : t'.stage = t.stage)
    (hblank : t'.status ≠ .loaded → t'.Blank) : TemplateAccounted env queue id t' := by
  have hstatus : t'.status = t.status := Template.status_of_stage hstage
  have hlocation : t'.location = t.location := Template.location_of_stage hstage
  refine ⟨fun hs => h.pending (hstatus.symm.trans hs), ?_, ?_, hblank⟩
  · rw [hlocation]
    exact fun hs => h.failed (hstatus.symm.trans hs)
  · rw [hlocation]
    exact fun hs => h.loaded (hstatus.symm.trans hs)

namespace TemplatesAccounted
variable {env : Env} {queue : List Job} {ts : List Template} {ds : List Component}

theorem nil (env : Env) (queue : List Job) : TemplatesAccounted env queue [] [] :=
  ⟨fun _ _ h => (by cases h), fun _ h => absurd h List.not_mem_nil⟩

/-- a template that is not loaded has no components -/
theorem template_ne (h : TemplatesAccounted env queue ts ds) {id : TemplateId} {t : Template}
    (ht : ts[id]? = some t) (hother : t.status ≠ .loaded) {d : Component} (hd : d ∈ ds) :
    d.template ≠ id := by
  obtain ⟨t', ht', hloaded⟩ := h.components d hd
  rintro rfl
  exact hother (Option.some.inj (ht'.symm.trans ht) ▸ hloaded)

theorem mono (h : TemplatesAccounted env queue ts ds) {queue' : List Job}
    (hq : ∀ i, Job.template i ∈ queue → Job.template i ∈ queue') :
    TemplatesAccounted env queue' ts ds :=
  ⟨fun i t ht => ⟨fun hp => hq i ((h.templates i t ht).pending hp), (h.templates i t ht).failed,
    (h.templates i t ht).loaded, (h.templates i t ht).blank⟩, h.components⟩

theorem register (h : TemplatesAccounted env queue ts ds) (l : Location) (usedFrom : Text)
    (isMain : Bool) : TemplatesAccounted env (queue ++ [.template ts.length])
      (ts ++ [.register ts.length l usedFrom isMain]) ds := by
  constructor
  · intro i t ht
    rcases getElem?_concat_eq_some ht with ht | ⟨rfl, rfl⟩
    · have hold := h.templates i t ht
      exact ⟨fun hp => List.mem_append_left _ (hold.pending hp), hold.failed, hold.loaded,
        hold.blank⟩
    · refine ⟨fun _ => List.mem_append_right _ List.mem_cons_self, fun hs => (by cases hs),
        fun hs => (by cases hs), fun _ => ⟨rfl, rfl, rfl, rfl, rfl, rfl, rfl⟩⟩
  · intro d hd
    obtain ⟨t, ht, hs⟩ := h.components d hd
    rw [List.getElem?_append_left (List.getElem?_eq_some_iff.1 ht).1]
    exact ⟨t, ht, hs⟩

/-- a change that leaves the state as it is, of a loaded template or of nothing that was found -/
theorem modify (h : TemplatesAccounted env queue ts ds) (id : TemplateId) (f : Template → Template)
    (hstage : ∀ t, (f t).stage = t.stage)
    (hblank : ∀ t, ts[id]? = some t → t.status = .loaded ∨ (t.Blank → (f t).Blank)) :
    TemplatesAccounted env queue (ts.modify id f) ds := by
  constructor
  · intro i t ht
    obtain ⟨b, hb, ⟨rfl, rfl⟩ | ⟨_, rfl⟩⟩ := getElem?_modify_eq_some ht
    · refine (h.templates id b hb).of_stage (hstage b) ?_
      intro hs
      have hs : b.status ≠ .loaded := Template.status_of_stage (hstage b) ▸ hs
      exact (hblank b hb).resolve_left hs ((h.templates id b hb).blank hs)
    · exact h.templates i t hb
  · intro d hd
    obtain ⟨t, ht, hs⟩ := h.components d hd
    obtain ⟨t', ht', he⟩ := getElem?_of_map_prefix Template.stage
      (prefix_map_modify Template.stage f hstage ts id) ht
    exact ⟨t', ht', (Template.status_of_stage he).trans hs⟩

/-- the job for a template is done -/
theorem settle {t : Template} {status : Status}
    (h : TemplatesAccounted env (.template t.id :: queue) ts ds) (ht : ts[t.id]? = some t)
    (pending : t.status = .pending) (hdone : status ≠ .pending)
    (hfailed : status = .failed → ∃ p, env.template t.location = .error p)
    (hloaded : status = .loaded → ∃ fragment, env.template t.location = .ok fragment) :
    TemplatesAccounted env queue (ts.modify t.id fun t => { t with status }) ds := by
  constructor
  · intro i t' ht'
    obtain ⟨b, hb, ⟨rfl, rfl⟩ | ⟨hne, rfl⟩⟩ := getElem?_modify_eq_some ht'
    · obtain rfl := Option.some.inj (hb.symm.trans ht)
      have hblank := (h.templates _ b hb).blank (by rw [pending]; decide)
      exact ⟨fun hp => absurd hp hdone, hfailed, hloaded, fun _ => ⟨hblank.tags, hblank.imports,
        hblank.sheets, hblank.links, hblank.fontHost, hblank.styleHost, hblank.testData⟩⟩
    · have hold := h.templates i t' hb
      refine ⟨fun hp => ?_, hold.failed, hold.loaded, hold.blank⟩
      exact (List.mem_cons.1 (hold.pending hp)).resolve_left fun he =>
        hne (Job.template.inj he).symm
  · intro d hd
    obtain ⟨t', ht', hs⟩ := h.components d hd
    have hne : t.id ≠ d.template := by
      intro he
      rw [← he] at ht'
      rw [Option.some.inj (ht'.symm.trans ht), pending] at hs
      cases hs
    rw [List.getElem?_modify_ne _ _ hne]
    exact ⟨t', ht', hs⟩

end TemplatesAccounted

/-! ## sheets -/

namespace Session

/-- a sheet is what its source comes to, or there is a job for it, or it is being filled in -/
structure SheetAccounted (env : Env) (queue : List Job) (w : Option Filling) (id : SheetId)
    (e : Sheet × Except ResourceError Text) : Prop where
  pending : e.1.status = .pending →
    Job.sheet id ∈ queue ∧ e.1.inline = false ∨ ∃ f, w = some f ∧ f.id = id
  failed : e.1.status = .failed → ∃ p, env.sheet e.2 = .error p
  loaded : e.1.status = .loaded → ∃ ast, env.sheet e.2 = .ok ast ∧ e.1.ast = some ast
  blank : e.1.status ≠ .loaded → e.1.Blank

structure SheetsAccounted (env : Env) (queue : List Job) (w : Option Filling) (record : Record) :
    Prop where
  sheets : ∀ i e, record[i]? = some e → SheetAccounted env queue w i e
  /-- the source at hand is that of the sheet -/
  filling : ∀ f, w = some f → ∃ e, record[f.id]? = some e ∧ e.2 = f.source

namespace SheetsAccounted
variable {env : Env} {queue : List Job} {w : Option Filling} {record : Record}

theorem nil (env : Env) (queue : List Job) : SheetsAccounted env queue none [] :=
  ⟨fun _ _ h => (by cases h), fun _ h => (by cases h)⟩

theorem mono (h : SheetsAccounted env queue w record) {queue' : List Job}
    (hq : ∀ i, Job.sheet i ∈ queue → Job.sheet i ∈ queue') :
    SheetsAccounted env queue' w record := by
  refine ⟨fun i e he => ?_, h.filling⟩
  have hold := h.sheets i e he
  exact ⟨fun hp => (hold.pending hp).imp_left fun h => ⟨hq i h.1, h.2⟩, hold.failed, hold.loaded,
    hold.blank⟩

theorem mention (h : SheetsAccounted env queue w record) (id : SheetId) (usedFrom : Text) :
    SheetsAccounted env queue w
      (record.modify id fun e => (Sheet.mention usedFrom e.1, e.2)) := by
  constructor
  · intro i e he
    obtain ⟨b, hb, ⟨rfl, rfl⟩ | ⟨_, rfl⟩⟩ := getElem?_modify_eq_some he
    · have hold := h.sheets id b hb
      exact ⟨hold.pending, hold.failed, hold.loaded,
        fun hs => ⟨(hold.blank hs).ast, (hold.blank hs).imports⟩⟩
    · exact h.sheets i e hb
  · intro f hf
    obtain ⟨e, he, hsource⟩ := h.filling f hf
    obtain ⟨e', he', hsnd⟩ := getElem?_of_map_prefix Prod.snd
      (prefix_map_modify Prod.snd (fun e => (Sheet.mention usedFrom e.1, e.2)) (fun _ => rfl)
        record id) he
    exact ⟨e', he', hsnd.trans hsource⟩

theorem concat (h : SheetsAccounted env queue w record) {queue' : List Job} {w' : Option Filling}
    {e : Sheet × Except ResourceError Text} (hq : queue ⊆ queue')
    (hw : ∀ f, w = some f → w' = some f)
    (hfilling : ∀ f, w' = some f → w = some f ∨ f.id = record.length ∧ e.2 = f.source)
    (he : SheetAccounted env queue' w' record.length e) :
    SheetsAccounted env queue' w' (record ++ [e]) := by
  constructor
  · intro i b hb
    rcases getElem?_concat_eq_some hb with hb | ⟨rfl, rfl⟩
    · have hold := h.sheets i b hb
      refine ⟨fun hp => ?_, hold.failed, hold.loaded, hold.blank⟩
      rcases hold.pending hp with ⟨hjob, hi⟩ | ⟨f, hf, hid⟩
      · exact .inl ⟨hq hjob, hi⟩
      · exact .inr ⟨f, hw f hf, hid⟩
    · exact he
  · intro f hf
    rcases hfilling f hf with hold | ⟨hid, hsource⟩
    · obtain ⟨b, hb, hsource⟩ := h.filling f hold
      rw [List.getElem?_append_left (List.getElem?_eq_some_iff.1 hb).1]
      exact ⟨b, hb, hsource⟩
    · rw [hid, List.getElem?_append_right (Nat.le_refl _), Nat.sub_self]
      exact ⟨e, rfl, hsource⟩

theorem take {id : SheetId} {e : Sheet × Except ResourceError Text}
    (h : SheetsAccounted env (.sheet id :: queue) none record) (he : record[id]? = some e) :
    SheetsAccounted env queue (some ⟨id, e.2⟩) record := by
  refine ⟨fun i b hb => ?_, fun f hf => Option.some.inj hf ▸ ⟨e, he, rfl⟩⟩
  have hold := h.sheets i b hb
  refine ⟨fun hp => ?_, hold.failed, hold.loaded, hold.blank⟩
  rcases hold.pending hp with ⟨hjob, hi⟩ | ⟨f, hf, -⟩
  · rcases List.mem_cons.1 hjob with hjob | hjob
    · exact .inr ⟨_, rfl, (Job.sheet.inj hjob).symm⟩
    · exact .inl ⟨hjob, hi⟩
  · cases hf

/-- the sheet that was being filled in is done -/
theorem settle {f : Filling} {e : Sheet × Except ResourceError Text}
    (h : SheetsAccounted env queue (some f) record) (he : record[f.id]? = some e)
    (g : Sheet → Sheet) (hdone : SheetAccounted env queue none f.id (g e.1, e.2)) :
    SheetsAccounted env queue none (record.modify f.id fun e => (g e.1, e.2)) := by
  refine ⟨fun i b' hb' => ?_, fun _ hf => (by cases hf)⟩
  obtain ⟨b, hb, ⟨rfl, rfl⟩ | ⟨hne, rfl⟩⟩ := getElem?_modify_eq_some hb'
  · exact Option.some.inj (he.symm.trans hb) ▸ hdone
  · have hold := h.sheets i _ hb
    refine ⟨fun hp => .inl ?_, hold.failed, hold.loaded, hold.blank⟩
    rcases hold.pending hp with hjob | ⟨f', hf', hid⟩
    · exact hjob
    · exact absurd (Option.some.inj hf' ▸ hid) hne

end SheetsAccounted

end Session

/-! ## sources -/

/-- what was parsed as the body of a `<style>`, and where that stands -/
def inlineOrigin (e : Sheet × Except ResourceError Text) :
    Option (Except ResourceError Text × Location × Bool) :=
  if e.1.inline then some (e.2, e.1.location, e.1.fromComponent) else none

/-- what was read for the sheets: shared sheets stand at their locations, and inline sheets are the
bodies that have been called for, in order -/
structure Sourced (env : Env) (sheets : List Sheet) (calls : List Call) (record : Record) :
    Prop where
  sheets : record.map Prod.fst = sheets
  shared : ∀ e ∈ record, e.1.inline = false → e.2 = env.read e.1.location
  inline : record.filterMap inlineOrigin = calls.filterMap Call.inline?

namespace Sourced
variable {env : Env} {sheets : List Sheet} {calls : List Call} {record : Record}

theorem length_eq (h : Sourced env sheets calls record) : record.length = sheets.length := by
  rw [← h.sheets, List.length_map]

/-- the entry of a sheet -/
theorem entry (h : Sourced env sheets calls record) {id : SheetId} {sheet : Sheet}
    (hsheet : sheets[id]? = some sheet) : ∃ e, record[id]? = some e ∧ e.1 = sheet := by
  rw [← h.sheets, List.getElem?_map] at hsheet
  exact Option.map_eq_some_iff.1 hsheet

theorem note (h : Sourced env sheets calls record) {c : Call} (other : c.inline? = none) :
    Sourced env sheets (calls ++ [c]) record := by
  refine ⟨h.sheets, h.shared, ?_⟩
  rw [List.filterMap_append, List.filterMap_cons_none other, List.filterMap_nil, List.append_nil]
  exact h.inline

theorem modify (h : Sourced env sheets calls record) (id : SheetId) (f : Sheet → Sheet)
    (hplace : ∀ sheet, (f sheet).place = sheet.place) :
    Sourced env (sheets.modify id f) calls (record.modify id fun e => (f e.1, e.2)) := by
  have hplace (sheet : Sheet) : (f sheet).location = sheet.location ∧
      (f sheet).inline = sheet.inline ∧ (f sheet).fromComponent = sheet.fromComponent := by
    obtain ⟨hlocation, hrest⟩ := Prod.mk.inj (Prod.mk.inj (hplace sheet)).2
    exact ⟨hlocation, Prod.mk.inj hrest⟩
  refine ⟨?_, ?_, ?_⟩
  · rw [map_modify Prod.fst _ f (fun _ => rfl), h.sheets]
  · intro e he hi
    rcases mem_modify he with he | ⟨b, hb, rfl⟩
    · exact h.shared e he hi
    · obtain ⟨hlocation, hinline, -⟩ := hplace b.1
      show b.2 = env.read (f b.1).location
      rw [hlocation]
      exact h.shared b hb (hinline ▸ hi)
  · rw [filterMap_modify_of_eq inlineOrigin]
    · exact h.inline
    · intro e
      obtain ⟨hlocation, hinline, hfrom⟩ := hplace e.1
      unfold inlineOrigin
      dsimp only
      rw [hlocation, hinline, hfrom]

theorem newShared (h : Sourced env sheets calls record) {sheet : Sheet}
    (shared : sheet.inline = false) :
    Sourced env (sheets ++ [sheet]) calls (record ++ [(sheet, env.read sheet.location)]) := by
  refine ⟨?_, ?_, ?_⟩
  · rw [List.map_append, h.sheets]
    rfl
  · intro e he hi
    rcases List.mem_append.1 he with he | he
    · exact h.shared e he hi
    · rw [List.mem_singleton.1 he]
  · have hnone : inlineOrigin (sheet, env.read sheet.location) = none := if_neg (by simp [shared])
    rw [List.filterMap_append, List.filterMap_cons_none hnone, List.filterMap_nil, List.append_nil]
    exact h.inline

theorem newInline (h : Sourced env sheets calls record) (id : SheetId) (source : Text)
    (origin : Location) (usedFrom : Text) (fromComponent : Bool) :
    Sourced env (sheets ++ [.register id origin usedFrom true fromComponent])
      (calls ++ [.inline source origin fromComponent])
      (record ++ [(.register id origin usedFrom true fromComponent, .ok source)]) := by
  refine ⟨?_, ?_, ?_⟩
  · rw [List.map_append, h.sheets]
    rfl
  · intro e he hi
    rcases List.mem_append.1 he with he | he
    · exact h.shared e he hi
    · rw [List.mem_singleton.1 he] at hi
      cases hi
  · rw [List.filterMap_append, List.filterMap_append, h.inline]
    rfl

end Sourced

/-! ## the log -/

/-- the failures in the log are those of the failed objects, and other errors are about loaded
templates -/
structure FailuresAccounted (env : Env) (ts : List Template) (record : Record)
    (entries : List Entry) : Prop where
  failures : (entries.filter fun e => e.problem.isFailure).Perm
    (ts.flatMap (Template.failures env) ++ record.flatMap (sheetFailures env))
  others : ∀ e ∈ entries, e.severity = .error → e.problem.isFailure = false →
    ∃ t ∈ ts, t.status = .loaded ∧ e.file = some t.file

/-- loaded templates are still there -/
def Kept (ts ts' : List Template) : Prop :=
  ∀ t ∈ ts, t.status = .loaded → ∃ t' ∈ ts', t'.status = .loaded ∧ t'.location = t.location

theorem Kept.refl (ts : List Template) : Kept ts ts := fun t hm hs => ⟨t, hm, hs, rfl⟩

theorem Kept.of_stages {ts ts' : List Template}
    (h : ts.map Template.stage <+: ts'.map Template.stage) : Kept ts ts' := by
  intro t hm hs
  obtain ⟨t', hm', he⟩ := List.mem_map.1 (h.subset (List.mem_map_of_mem hm))
  exact ⟨t', hm', (Template.status_of_stage he).trans hs, Template.location_of_stage he⟩

/-- an entry about a loaded template stays one -/
theorem Kept.about {ts ts' : List Template} (h : Kept ts ts') {file : Option Text} :
    (∃ t ∈ ts, t.status = .loaded ∧ file = some t.file) →
      ∃ t ∈ ts', t.status = .loaded ∧ file = some t.file := by
  rintro ⟨t, ht, hs, rfl⟩
  obtain ⟨t', ht', hs', hlocation⟩ := h t ht hs
  refine ⟨t', ht', hs', ?_⟩
  show some t.location.toText = some t'.location.toText
  rw [hlocation]

namespace FailuresAccounted
variable {env : Env} {ts ts' : List Template} {record record' : Record} {log : Log}

theorem nil (env : Env) : FailuresAccounted env [] [] [] :=
  ⟨List.Perm.nil, fun _ h => absurd h List.not_mem_nil⟩

/-- a change that fails nothing -/
theorem mono {entries : List Entry} (h : FailuresAccounted env ts record entries)
    (hkept : Kept ts ts')
    (hts : ts'.flatMap (Template.failures env) = ts.flatMap (Template.failures env))
    (hrecord : record'.flatMap (sheetFailures env) = record.flatMap (sheetFailures env)) :
    FailuresAccounted env ts' record' entries := by
  refine ⟨?_, ?_⟩
  · rw [hts, hrecord]
    exact h.failures
  · exact fun e he herror hother => hkept.about (h.others e he herror hother)

/-- a problem that is no failure -/
theorem report (h : FailuresAccounted env ts record log.entries) {file : Text} {p : Problem}
    (other : p.isFailure = false)
    (hfile : p.severity = .error → ∃ t ∈ ts, t.status = .loaded ∧ file = t.file) :
    FailuresAccounted env ts record (log.report (some file) p).entries := by
  unfold Log.report
  split
  · exact h
  · constructor
    · show ((log.entries ++ [_]).filter fun e : Entry => e.problem.isFailure).Perm _
      rw [List.filter_append, List.filter_cons_of_neg (by simp [other]), List.filter_nil,
        List.append_nil]
      exact h.failures
    · intro e he herror hother
      rcases List.mem_append.1 he with he | he
      · exact h.others e he herror hother
      · rw [List.mem_singleton.1 he] at herror ⊢
        obtain ⟨t, ht, hs, rfl⟩ := hfile herror
        exact ⟨t, ht, hs, rfl⟩

theorem warn (h : FailuresAccounted env ts record log.entries) (file : Text)
    (faults : List Css.Fault) : FailuresAccounted env ts record
      (log.reportAll (some file) (faults.map .cssProblem)).entries := by
  induction faults generalizing log with
  | nil => exact h
  | cons fault faults ih => exact ih (h.report rfl fun hs => (by cases hs))

/-- one more failed object with its failure -/
theorem fail (h : FailuresAccounted env ts record log.entries) {file : Text} {p : Problem}
    (hp : p.isFailure = true) (hkept : Kept ts ts')
    (hperm : (ts'.flatMap (Template.failures env) ++ record'.flatMap (sheetFailures env)).Perm
      ((ts.flatMap (Template.failures env) ++ record.flatMap (sheetFailures env))
        ++ [⟨some file, p⟩])) :
    FailuresAccounted env ts' record' (log.report (some file) p).entries := by
  rw [Catalog.report_of_error (Problem.severity_of_isFailure hp)]
  constructor
  · show ((log.entries ++ [_]).filter fun e : Entry => e.problem.isFailure).Perm _
    have hone : [(⟨some file, p⟩ : Entry)].filter (fun e => e.problem.isFailure)
        = [⟨some file, p⟩] := List.filter_cons_of_pos hp
    rw [List.filter_append, hone]
    exact (h.failures.append_right _).trans hperm.symm
  · intro e he herror hother
    rcases List.mem_append.1 he with he | he
    · exact hkept.about (h.others e he herror hother)
    · rw [List.mem_singleton.1 he, hp] at hother
      cases hother

end FailuresAccounted

/-! ## the invariant -/

namespace Session
open Declarations (Move)

/-- everything in the session is what its source comes to, and the log says what has failed -/
structure Accounted (env : Env) (w : Option Filling) (s : Session) (record : Record) : Prop where
  sourced : Sourced env s.catalog.sheets s.calls record
  sheets : SheetsAccounted env s.queue w record
  templates : TemplatesAccounted env s.queue s.catalog.templates s.catalog.components
  failures : FailuresAccounted env s.catalog.templates record s.catalog.log.entries

variable {env : Env} {w w' : Option Filling} {s s' : Session} {record : Record}

namespace Accounted

theorem start (env : Env) (siteRoot : Path) (lints : Bool) :
    Accounted env none (Session.start siteRoot lints) [] :=
  ⟨⟨rfl, fun _ h => absurd h List.not_mem_nil, rfl⟩, .nil env [], .nil env [], .nil env⟩

/-- a change of a template that leaves its state as it is -/
theorem modifyTemplate (h : Accounted env w s record) (id : TemplateId) (f : Template → Template)
    (hstage : ∀ t, (f t).stage = t.stage)
    (hblank : ∀ t, s.catalog.templates[id]? = some t →
      t.status = .loaded ∨ (t.Blank → (f t).Blank)) :
    Accounted env w (s.mapCatalog (·.modifyTemplate id f)) record := by
  refine ⟨h.sourced, h.sheets, h.templates.modify id f hstage hblank, ?_⟩
  refine h.failures.mono (.of_stages (prefix_map_modify Template.stage f hstage _ id)) ?_ rfl
  refine flatMap_modify_of_eq _ f ?_
  intro t _
  have hstatus : (f t).status = t.status := Template.status_of_stage (hstage t)
  have hlocation : (f t).location = t.location := Template.location_of_stage (hstage t)
  unfold Template.failures Template.file
  rw [hstatus, hlocation]

theorem modifyComponent (h : Accounted env w s record) (id : ComponentId)
    (f : Component → Component) (hplace : ∀ d, (f d).place = d.place) :
    Accounted env w (s.mapCatalog (·.modifyComponent id f)) record := by
  refine ⟨h.sourced, h.sheets, ⟨h.templates.templates, ?_⟩, h.failures⟩
  intro d hd
  rcases mem_modify hd with hd | ⟨b, hb, rfl⟩
  · exact h.templates.components d hd
  · rw [show (f b).template = b.template from (Prod.mk.inj (hplace b)).2]
    exact h.templates.components b hb

/-- a loaded template has one more component -/
theorem addComponent (h : Accounted env w s record) {id : TemplateId} {t : Template}
    (ht : s.catalog.templates[id]? = some t) (hloaded : t.status = .loaded) (name : Text)
    (params : Attributes) :
    Accounted env w (s.mapCatalog (·.addComponent id name params)) record := by
  refine ⟨h.sourced, h.sheets, ⟨h.templates.templates, ?_⟩, h.failures⟩
  intro d hd
  rcases List.mem_append.1 hd with hd | hd
  · exact h.templates.components d hd
  · rw [List.mem_singleton.1 hd]
    exact ⟨t, ht, hloaded⟩

theorem newTemplate (h : Accounted env w s record) (l : Location) (usedFrom : Text)
    (isMain : Bool) : Accounted env w (s.newTemplate l usedFrom isMain) record := by
  refine ⟨h.sourced, h.sheets.mono fun _ => List.mem_append_left _,
    h.templates.register l usedFrom isMain, ?_⟩
  refine h.failures.mono ?_ ?_ rfl
  · exact fun t hm hs => ⟨t, List.mem_append_left _ hm, hs, rfl⟩
  · show (s.catalog.templates ++ [_]).flatMap _ = _
    rw [List.flatMap_append]
    exact List.append_nil _

/-- the failures of a record with one more sheet that is still to be filled in -/
theorem flatMap_concat (env : Env) (record : Record) (id : SheetId) (l : Location) (usedFrom : Text)
    (inline fromComponent : Bool) (source : Except ResourceError Text) :
    (record ++ [(Sheet.register id l usedFrom inline fromComponent, source)]).flatMap
      (sheetFailures env) = record.flatMap (sheetFailures env) := by
  rw [List.flatMap_append]
  exact List.append_nil _

theorem newSheet (h : Accounted env w s record) (l : Location) (usedFrom : Text) :
    Accounted env w (s.newSheet l usedFrom)
      (record ++ [(.register s.catalog.sheets.length l usedFrom false false, env.read l)]) := by
  refine ⟨h.sourced.newShared rfl, ?_, h.templates.mono fun _ => List.mem_append_left _, ?_⟩
  · refine h.sheets.concat (fun _ => List.mem_append_left _) (fun _ hf => hf)
      (fun _ hf => .inl hf) ?_
    rw [h.sourced.length_eq]
    exact ⟨fun _ => .inl ⟨List.mem_append_right _ List.mem_cons_self, rfl⟩, fun hs => (by cases hs),
      fun hs => (by cases hs), fun _ => ⟨rfl, rfl⟩⟩
  · exact h.failures.mono (.refl _) rfl (flatMap_concat ..)

theorem newInline (h : Accounted env none s record) (source : Text) (origin : Location)
    (fromComponent : Bool) :
    Accounted env (some ⟨s.catalog.sheets.length, .ok source⟩)
      ((s.note (.inline source origin fromComponent)).registerInline origin fromComponent)
      (record ++ [(.register s.catalog.sheets.length origin origin.toText true fromComponent,
        .ok source)]) := by
  refine ⟨h.sourced.newInline .., ?_, h.templates, ?_⟩
  · refine h.sheets.concat (fun _ hm => hm) (fun _ hf => (by cases hf)) ?_ ?_
    · intro f hf
      rw [h.sourced.length_eq]
      exact .inr (Option.some.inj hf ▸ ⟨rfl, rfl⟩)
    · rw [h.sourced.length_eq]
      exact ⟨fun _ => .inr ⟨_, rfl, rfl⟩, fun hs => (by cases hs), fun hs => (by cases hs),
        fun _ => ⟨rfl, rfl⟩⟩
  · exact h.failures.mono (.refl _) rfl (flatMap_concat ..)

theorem takeSheet (h : Accounted env none s record) {id : SheetId} {queue : List Job}
    {sheet : Sheet} (hq : s.queue = .sheet id :: queue)
    (hsheet : s.catalog.sheets[id]? = some sheet) (pending : sheet.status = .pending) :
    Accounted env (some ⟨id, env.read sheet.location⟩) (s.taken queue sheet.location) record := by
  have hsheets := hq ▸ h.sheets
  have htemplates := hq ▸ h.templates
  obtain ⟨e, he, rfl⟩ := h.sourced.entry hsheet
  refine ⟨h.sourced, ?_, ?_, h.failures⟩
  · -- the sheet has been in the queue, so it is a shared one
    rcases (hsheets.sheets id e he).pending pending with ⟨-, hshared⟩ | ⟨_, hf, -⟩
    · rw [← h.sourced.shared e (List.mem_of_getElem? he) hshared]
      exact hsheets.take he
    · cases hf
  · refine htemplates.mono fun i hm => ?_
    exact (List.mem_cons.1 hm).resolve_left fun he => (by cases he)

/-- the entry of the sheet that is being filled in -/
theorem filled {f : Filling} (h : Accounted env (some f) s record) {sheet : Sheet}
    (hsheet : s.catalog.sheets[f.id]? = some sheet) :
    ∃ e, record[f.id]? = some e ∧ e.1 = sheet ∧ e.2 = f.source := by
  obtain ⟨e, he, heq⟩ := h.sourced.entry hsheet
  obtain ⟨e', he', hsource⟩ := h.sheets.filling f rfl
  obtain rfl := Option.some.inj (he.symm.trans he')
  exact ⟨e, he, heq, hsource⟩

theorem failSheet {f : Filling} (h : Accounted env (some f) s record) {sheet : Sheet} {p : Problem}
    (hsheet : s.catalog.sheets[f.id]? = some sheet) (pending : sheet.status = .pending)
    (hp : env.sheet f.source = .error p) :
    Accounted env none
      ((s.mapCatalog (·.modifySheet f.id fun sheet => { sheet with status := .failed })).report
        sheet.file p)
      (record.modify f.id fun e => ({ e.1 with status := .failed }, e.2)) := by
  obtain ⟨e, he, rfl, hsource⟩ := h.filled hsheet
  have hblank := (h.sheets.sheets f.id e he).blank (by rw [pending]; decide)
  refine ⟨h.sourced.modify f.id _ fun _ => rfl, ?_, h.templates, ?_⟩
  · refine h.sheets.settle he (fun sheet => { sheet with status := .failed }) ?_
    exact ⟨fun hs => (by cases hs), fun _ => ⟨p, hsource ▸ hp⟩, fun hs => (by cases hs),
      fun _ => ⟨hblank.ast, hblank.imports⟩⟩
  · refine h.failures.fail (Env.isFailure_of_sheet hp) (.refl _) ?_
    have hnone : sheetFailures env e = [] := failure_of_not_failed (by rw [pending]; decide)
    have hone : sheetFailures env ({ e.1 with status := .failed }, e.2)
        = [⟨some e.1.file, p⟩] := failure_of_error (hsource ▸ hp)
    rw [List.append_assoc, ← hone]
    exact (flatMap_modify_perm _ _ he hnone).append_left _

theorem fillSheet {f : Filling} (h : Accounted env (some f) s record) {sheet : Sheet}
    {ast : Css.Node} (ids : List SheetId) (hsheet : s.catalog.sheets[f.id]? = some sheet)
    (pending : sheet.status = .pending) (hast : env.sheet f.source = .ok ast) :
    Accounted env none (s.mapCatalog (·.modifySheet f.id fun sheet =>
        { sheet with ast := some ast, imports := ids, status := .loaded }))
      (record.modify f.id fun e =>
        ({ e.1 with ast := some ast, imports := ids, status := .loaded }, e.2)) := by
  obtain ⟨e, he, rfl, hsource⟩ := h.filled hsheet
  refine ⟨h.sourced.modify f.id _ fun _ => rfl, ?_, h.templates, ?_⟩
  · refine h.sheets.settle he
      (fun sheet => { sheet with ast := some ast, imports := ids, status := .loaded }) ?_
    exact ⟨fun hs => (by cases hs), fun hs => (by cases hs), fun _ => ⟨ast, hsource ▸ hast, rfl⟩,
      fun hs => absurd rfl hs⟩
  · refine h.failures.mono (.refl _) rfl (flatMap_modify_of_eq _ _ fun b hb => ?_)
    obtain rfl := Option.some.inj (he.symm.trans hb)
    exact (failure_of_not_failed (show Status.loaded ≠ .failed by decide)).trans
      (failure_of_not_failed (by rw [pending]; decide)).symm

/-- the job for a template is done, and it has a new state -/
theorem settleTemplate (h : Accounted env none s record) {t : Template} {queue : List Job}
    (hq : s.queue = .template t.id :: queue) (ht : s.catalog.templates[t.id]? = some t)
    (pending : t.status = .pending) (status : Status) (hdone : status ≠ .pending)
    (hfailed : status = .failed → ∃ p, env.template t.location = .error p)
    (hloaded : status = .loaded → ∃ fragment, env.template t.location = .ok fragment) :
    SheetsAccounted env queue none record ∧
      TemplatesAccounted env queue (s.catalog.templates.modify t.id fun t => { t with status })
        s.catalog.components ∧
      Kept s.catalog.templates (s.catalog.templates.modify t.id fun t => { t with status }) := by
  have hsheets := hq ▸ h.sheets
  have htemplates := hq ▸ h.templates
  refine ⟨?_, htemplates.settle ht pending hdone hfailed hloaded, ?_⟩
  · refine hsheets.mono fun i hm => ?_
    exact (List.mem_cons.1 hm).resolve_left fun he => (by cases he)
  · intro t' hm hs
    obtain ⟨i, hi⟩ := List.mem_iff_getElem?.1 hm
    have hne : t.id ≠ i := by
      rintro rfl
      rw [Option.some.inj (hi.symm.trans ht), pending] at hs
      cases hs
    rw [← List.getElem?_modify_ne (fun t => { t with status }) _ hne] at hi
    exact ⟨t', List.mem_of_getElem? hi, hs, rfl⟩

theorem failTemplate (h : Accounted env none s record) {t : Template} {queue : List Job}
    {p : Problem} (hq : s.queue = .template t.id :: queue)
    (ht : s.catalog.templates[t.id]? = some t) (pending : t.status = .pending)
    (hp : env.template t.location = .error p) :
    Accounted env none (((s.taken queue t.location).mapCatalog
      (·.modifyTemplate t.id fun t => { t with status := .failed })).report t.file p) record := by
  obtain ⟨hsheets, htemplates, hkept⟩ := h.settleTemplate hq ht pending .failed (by decide)
    (fun _ => ⟨p, hp⟩) (fun hs => (by cases hs))
  refine ⟨h.sourced, hsheets, htemplates, ?_⟩
  refine h.failures.fail (Env.isFailure_of_template hp) hkept ?_
  have hnone : t.failures env = [] := failure_of_not_failed (by rw [pending]; decide)
  have hone : Template.failures env { t with status := .failed } = [⟨some t.file, p⟩] :=
    failure_of_error hp
  have hperm := flatMap_modify_perm (Template.failures env)
    (fun t => { t with status := .failed }) ht hnone
  rw [hone] at hperm
  -- the new failure goes behind those of the sheets
  refine (hperm.append_right _).trans ?_
  rw [List.append_assoc, List.append_assoc]
  exact List.perm_append_comm.append_left _

theorem takeTemplate (h : Accounted env none s record) {t : Template} {queue : List Job}
    {fragment : Html.Fragment} (hq : s.queue = .template t.id :: queue)
    (ht : s.catalog.templates[t.id]? = some t) (pending : t.status = .pending)
    (hf : env.template t.location = .ok fragment) :
    Accounted env none ((s.taken queue t.location).mapCatalog
      (·.modifyTemplate t.id fun t => { t with status := .loaded })) record := by
  obtain ⟨hsheets, htemplates, hkept⟩ := h.settleTemplate hq ht pending .loaded (by decide)
    (fun hs => (by cases hs)) (fun _ => ⟨fragment, hf⟩)
  refine ⟨h.sourced, hsheets, htemplates, ?_⟩
  refine h.failures.mono hkept (flatMap_modify_of_eq _ _ fun b hb => ?_) rfl
  obtain rfl := Option.some.inj (ht.symm.trans hb)
  exact (failure_of_not_failed (show Status.loaded ≠ .failed by decide)).trans
    (failure_of_not_failed (by rw [pending]; decide)).symm

end Accounted

theorem edit_accounted (e : Edit env w s w' s') (h : ∃ record, Accounted env w s record) :
    ∃ record, Accounted env w' s' record := by
  obtain ⟨record, h⟩ := h
  cases e with
  | warn file faults =>
    exact ⟨record, h.sourced, h.sheets, h.templates, h.failures.warn file faults⟩
  | note c other => exact ⟨record, h.sourced.note other, h.sheets, h.templates, h.failures⟩
  | main id => exact ⟨record, h.sourced, h.sheets, h.templates, h.failures⟩
  | mentionTemplate id usedFrom =>
    refine ⟨record, h.modifyTemplate id _ (fun _ => rfl) fun t _ => .inr fun hb => ?_⟩
    exact ⟨hb.tags, hb.imports, hb.sheets, hb.links, hb.fontHost, hb.styleHost, hb.testData⟩
  | newTemplate l usedFrom isMain => exact ⟨record, h.newTemplate l usedFrom isMain⟩
  | mentionSheet id usedFrom =>
    refine ⟨_, h.sourced.modify id _ fun _ => rfl, h.sheets.mention id usedFrom, h.templates, ?_⟩
    exact h.failures.mono (.refl _) rfl (flatMap_modify_of_eq _ _ fun _ _ => rfl)
  | newSheet l usedFrom => exact ⟨_, h.newSheet l usedFrom⟩
  | newInline source origin fromComponent => exact ⟨_, h.newInline source origin fromComponent⟩
  | takeSheet id queue sheet hq hsheet pending => exact ⟨record, h.takeSheet hq hsheet pending⟩
  | failSheet f sheet p hsheet pending hp => exact ⟨_, h.failSheet hsheet pending hp⟩
  | fillSheet f sheet ast ids hsheet pending hast => exact ⟨_, h.fillSheet ids hsheet pending hast⟩
  | failTemplate t queue p hq ht pending hp => exact ⟨record, h.failTemplate hq ht pending hp⟩
  | takeTemplate t queue fragment hq ht pending hf =>
    exact ⟨record, h.takeTemplate hq ht pending hf⟩

theorem move_accounted {o : Origin} (m : Move env o s s') (hwork : Working o s)
    (hcall : ∀ c, ∃ record, Accounted env none (s.call env c) record)
    (h : ∃ record, Accounted env none s record) : ∃ record, Accounted env none s' record := by
  obtain ⟨record, h⟩ := h
  obtain ⟨t, ht, hstage⟩ := hwork
  have hloaded := Template.status_of_stage hstage
  -- the template at hand is loaded
  have change (f : Template → Template) (hf : ∀ t, (f t).stage = t.stage) :
      ∃ record, Accounted env none (Declarations.modifyTemplate o f s) record :=
    ⟨record, h.modifyTemplate o.template f hf fun b hb =>
      .inl (Option.some.inj (ht.symm.trans hb) ▸ hloaded)⟩
  cases m with
  | report p _ other =>
    refine ⟨record, h.sourced, h.sheets, h.templates, h.failures.report other fun _ => ?_⟩
    refine ⟨t, List.mem_of_getElem? ht, hloaded, ?_⟩
    show _ = t.location.toText
    rw [Template.location_of_stage hstage]
  | declare name params =>
    refine ⟨record, (h.addComponent ht hloaded name params).modifyTemplate o.template _
      (fun _ => rfl) fun b hb => .inl ?_⟩
    exact Option.some.inj (ht.symm.trans hb) ▸ hloaded
  | body id body => exact ⟨record, h.modifyComponent id _ fun _ => rfl⟩
  | useTemplate reference => exact hcall (.template reference o.location)
  | importSheet url => exact hcall (.sheet url o.location)
  | inlineSheet source => exact hcall (.inline source o.location !o.isMain)
  | fileImport id => exact change _ fun _ => rfl
  | componentImport owner id => exact ⟨record, h.modifyComponent owner _ fun _ => rfl⟩
  | sheet id => exact change _ fun _ => rfl
  | fileLink link => exact change _ fun _ => rfl
  | componentLink owner link => exact ⟨record, h.modifyComponent owner _ fun _ => rfl⟩
  | testData l => exact change _ fun _ => rfl
  | host host id => exact change _ fun t => by cases host <;> rfl

/-- sessions are accounted for -/
theorem accounted (env : Env) :
    Invariant env fun w s => ∃ record, Accounted env w s record where
  edit e h := edit_accounted e h
  move m hwork hcall h := move_accounted m hwork hcall h

/-! ## finished runs -/

/-- every object is loaded or has failed; one that has failed is empty, and it is the subject of
one error -/
structure Isolated (env : Env) (s : Session) (record : Record) : Prop where
  sourced : Sourced env s.catalog.sheets s.calls record
  template_done : ∀ t ∈ s.catalog.templates, t.status = .loaded ∨ t.status = .failed
  template_failed : ∀ t ∈ s.catalog.templates,
    (t.status = .failed ↔ ∃ p, env.template t.location = .error p)
  template_blank : ∀ t ∈ s.catalog.templates, t.status = .failed →
    t.Blank ∧ ∀ d ∈ s.catalog.components, d.template ≠ t.id
  sheet_done : ∀ e ∈ record, e.1.status = .loaded ∨ e.1.status = .failed
  sheet_failed : ∀ e ∈ record, (e.1.status = .failed ↔ ∃ p, env.sheet e.2 = .error p)
  sheet_empty : ∀ e ∈ record, (e.1.status = .failed ↔ e.1.ast = none)
  sheet_imports : ∀ e ∈ record, e.1.status = .failed → e.1.imports = []
  /-- one error for each failed object, with its file and with what went wrong -/
  failures : ((s.catalog.log.withSeverity .error).filter fun e => e.problem.isFailure).Perm
    (s.catalog.templates.flatMap (Template.failures env) ++ record.flatMap (sheetFailures env))
  /-- all other errors are about loaded templates -/
  others : ∀ e ∈ s.catalog.log.withSeverity .error, e.problem.isFailure = false →
    ∃ t ∈ s.catalog.templates, t.status = .loaded ∧ e.file = some t.file

/-- failures are errors -/
theorem filter_withSeverity (log : Log) :
    (log.withSeverity .error).filter (fun e => e.problem.isFailure)
      = log.entries.filter fun e => e.problem.isFailure := by
  unfold Log.withSeverity
  rw [List.filter_filter]
  apply List.filter_congr
  intro e _
  cases hp : e.problem.isFailure with
  | false => rfl
  | true => exact decide_eq_true (Problem.severity_of_isFailure hp)

theorem done_of_not_pending {status : Status} (h : status ≠ .pending) :
    status = .loaded ∨ status = .failed := by
  cases status with
  | pending => exact absurd rfl h
  | loaded => exact .inl rfl
  | failed => exact .inr rfl

/-- once the queue is empty, nothing is left to be done -/
theorem Accounted.isolated (h : Accounted env none s record) (hsound : s.Sound)
    (hqueue : s.queue = []) : s.Isolated env record := by
  have htemplate (t : Template) (ht : t ∈ s.catalog.templates) :
      TemplateAccounted env [] t.id t :=
    hqueue ▸ h.templates.templates t.id t (hsound.catalog.templates.getElem?_of_mem ht)
  have hsheet (e : Sheet × Except ResourceError Text) (he : e ∈ record) :
      ∃ id, SheetAccounted env [] none id e := by
    obtain ⟨id, hid⟩ := List.mem_iff_getElem?.1 he
    exact ⟨id, hqueue ▸ h.sheets.sheets id e hid⟩
  have template_done (t : Template) (ht : t ∈ s.catalog.templates) :
      t.status = .loaded ∨ t.status = .failed :=
    done_of_not_pending fun hp => absurd ((htemplate t ht).pending hp) List.not_mem_nil
  have sheet_done (e : Sheet × Except ResourceError Text) (he : e ∈ record) :
      e.1.status = .loaded ∨ e.1.status = .failed := by
    obtain ⟨id, h⟩ := hsheet e he
    refine done_of_not_pending fun hp => ?_
    rcases h.pending hp with ⟨hjob, -⟩ | ⟨_, hf, -⟩
    · exact absurd hjob List.not_mem_nil
    · cases hf
  refine ⟨h.sourced, template_done, ?_, ?_, sheet_done, ?_, ?_, ?_, ?_, ?_⟩
  · intro t ht
    refine ⟨(htemplate t ht).failed, ?_⟩
    rintro ⟨p, hp⟩
    refine (template_done t ht).resolve_left fun hs => ?_
    obtain ⟨fragment, hf⟩ := (htemplate t ht).loaded hs
    cases hp.symm.trans hf
  · intro t ht hs
    have hother : t.status ≠ .loaded := by rw [hs]; decide
    exact ⟨(htemplate t ht).blank hother, fun d hd =>
      h.templates.template_ne (hsound.catalog.templates.getElem?_of_mem ht) hother hd⟩
  · intro e he
    obtain ⟨id, h⟩ := hsheet e he
    refine ⟨h.failed, ?_⟩
    rintro ⟨p, hp⟩
    refine (sheet_done e he).resolve_left fun hs => ?_
    obtain ⟨ast, hast, -⟩ := h.loaded hs
    cases hp.symm.trans hast
  · intro e he
    obtain ⟨id, h⟩ := hsheet e he
    refine ⟨fun hs => (h.blank (by rw [hs]; decide)).ast, fun hnone => ?_⟩
    refine (sheet_done e he).resolve_left fun hs => ?_
    obtain ⟨ast, -, hast⟩ := h.loaded hs
    cases hnone.symm.trans hast
  · intro e he hs
    obtain ⟨id, h⟩ := hsheet e he
    exact (h.blank (by rw [hs]; decide)).imports
  · rw [filter_withSeverity]
    exact h.failures.failures
  · intro e he hother
    obtain ⟨he, herror⟩ := List.mem_filter.1 he
    exact h.failures.others e he (of_decide_eq_true herror) hother

/-- **Failures are isolated.**  Whatever is read and parsed and whatever has been called for, at the
end of a run nothing is left to be done; templates and sheets have failed exactly if their sources
cannot be read or understood, and then they are empty; every failure is reported once, and errors of
any other kind are about templates that are loaded. -/
theorem run_failures (env : Env) (siteRoot : Path) (lints : Bool) (cs : List Call) (fuel : Nat)
    (s : Session) (hrun : (prepared env siteRoot lints cs).run env fuel = some s) :
    ∃ record, s.Isolated env record := by
  obtain ⟨record, h⟩ :=
    (accounted env).prepared_run ⟨[], Accounted.start env siteRoot lints⟩ cs fuel hrun
  have hsound := run_sound env fuel hrun (prepared_sound env siteRoot lints cs)
  exact ⟨record, h.isolated hsound (run_queue env fuel hrun)⟩

/-- a page that imports a file that is missing, and whose two sheets cannot be parsed -/
def frail : Env where
  read l := if l = .remote "x/b".toList then .error (.io []) else .ok []
  parseMarkup _ _ := .ok ⟨[.element "import".toList (.ofList [("src".toList, "b".toList)]) [],
    .element "link".toList
      (.ofList [("rel".toList, "stylesheet".toList), ("href".toList, "c".toList)]) [],
    .element "style".toList .empty []], true⟩
  parseCss _ _ := ⟨[], .error ⟨.strayBrace, 0⟩⟩

/-- the page is loaded, and three failures are reported under their files -/
theorem run_failures_frail : ∃ s,
    (prepared frail ⟨true, []⟩ true [.main (.remote "x/a".toList)]).run frail 3 = some s ∧
    (∃ record, s.Isolated frail record) ∧
    s.catalog.templates.map Template.status = [.loaded, .failed] ∧
    s.catalog.sheets.map Sheet.status = [.failed, .failed] ∧
    s.catalog.log.entries.map Entry.file
      = [some "x/a".toList, some "x/b".toList, some "x/c".toList] := by
  have hfacts : ((prepared frail ⟨true, []⟩ true [.main (.remote "x/a".toList)]).run frail 3).map
      (fun s => (s.catalog.templates.map Template.status, s.catalog.sheets.map Sheet.status,
        s.catalog.log.entries.map Entry.file))
      = some ([.loaded, .failed], [.failed, .failed],
        [some "x/a".toList, some "x/b".toList, some "x/c".toList]) := by
    decide
  obtain ⟨s, hrun, hs⟩ := Option.map_eq_some_iff.1 hfacts
  obtain ⟨htemplates, hrest⟩ := Prod.mk.inj hs
  obtain ⟨hsheets, hfiles⟩ := Prod.mk.inj hrest
  exact ⟨s, hrun, run_failures _ _ _ _ _ s hrun, htemplates, hsheets, hfiles⟩

end Session

end PageTemplates
