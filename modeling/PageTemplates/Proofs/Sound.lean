import Mathlib.Data.List.Induction
import PageTemplates.Proofs.Discovery
import PageTemplates.Proofs.Names
import PageTemplates.StyleHosts

/-!
# Sound catalogs

What holds of every catalog that a session can reach, whatever is read and however it is parsed.

* `Filed`            the names of the templates and the components belong to each other;
* `Template.Closed`, `Component.Closed`   every number stands for something registered, and bodies
                     are settled;
* `Sheet.Stated`     a sheet is loaded if and only if it holds something;
* `Catalog.Sound`    all of it;
* `Session.Sound`    and the jobs in the queue are different and still to be done;
* `step_cases`       what the next job is, and what it does;
* `Catalog.Loaded`   the catalogs of finished runs, before and after rules are moved into hosts.
-/

namespace PageTemplates

/-! ## declarations -/

def Template.face (t : Template) : TemplateId × NameMap ComponentId := (t.id, t.tags)
def Component.face (d : Component) : ComponentId × TemplateId × Text := (d.id, d.template, d.name)

/-- numbers are places, every component is filed in its template under its name, and nothing else
is filed -/
structure Filed (ts : List (TemplateId × NameMap ComponentId))
    (ds : List (ComponentId × TemplateId × Text)) : Prop where
  templates : Numbered Prod.fst ts
  components : Numbered Prod.fst ds
  declared : ∀ d ∈ ds, ∃ t, ts[d.2.1]? = some t ∧ (d.2.2, d.1) ∈ t.2.entries
  tags : ∀ t ∈ ts, ∀ e ∈ t.2.entries, ds[e.2]? = some (e.2, t.1, e.1)

namespace Filed
variable {ts : List (TemplateId × NameMap ComponentId)}
  {ds : List (ComponentId × TemplateId × Text)}

theorem nil : Filed [] [] :=
  ⟨.nil _, .nil _, fun _ h => absurd h List.not_mem_nil, fun _ h => absurd h List.not_mem_nil⟩

theorem register (h : Filed ts ds) : Filed (ts ++ [(ts.length, .empty)]) ds := by
  refine ⟨h.templates.concat rfl, h.components, ?_, ?_⟩
  · intro d hd
    obtain ⟨t, ht, hm⟩ := h.declared d hd
    refine ⟨t, ?_, hm⟩
    rw [List.getElem?_append_left (List.getElem?_eq_some_iff.1 ht).1, ht]
  · intro t ht
    rcases List.mem_append.1 ht with ht | ht
    · exact h.tags t ht
    · rw [List.mem_singleton.1 ht]
      exact fun _ he => absurd he List.not_mem_nil

/-- a new component under a new name -/
theorem declare (h : Filed ts ds) {o : TemplateId} {t : TemplateId × NameMap ComponentId}
    (ht : ts[o]? = some t) {name : Text} (hnew : name ∉ t.2.names) :
    Filed (ts.modify o fun t => (t.1, t.2.insert name ds.length))
      (ds ++ [(ds.length, o, name)]) := by
  have hentries : (t.2.insert name ds.length).entries = t.2.entries ++ [(name, ds.length)] :=
    NameMap.entries_insert_of_not_mem hnew
  refine ⟨?_, h.components.concat rfl, ?_, ?_⟩
  · exact h.templates.modify (fun t => (t.1, t.2.insert name ds.length)) (fun _ => rfl) o
  · intro d hd
    rcases List.mem_append.1 hd with hd | hd
    · obtain ⟨t', ht', hm⟩ := h.declared d hd
      by_cases ho : o = d.2.1
      · rw [← ho] at ht' ⊢
        obtain rfl := Option.some.inj (ht'.symm.trans ht)
        rw [List.getElem?_modify_eq, ht]
        refine ⟨_, rfl, ?_⟩
        rw [hentries]
        exact List.mem_append_left _ hm
      · rw [List.getElem?_modify_ne _ _ ho, ht']
        exact ⟨_, rfl, hm⟩
    · rw [List.mem_singleton.1 hd, List.getElem?_modify_eq, ht]
      refine ⟨_, rfl, ?_⟩
      rw [hentries]
      exact List.mem_append_right _ List.mem_cons_self
  · intro t' ht' e he
    have hold {t : TemplateId × NameMap ComponentId} (ht : t ∈ ts) {e : Text × ComponentId}
        (he : e ∈ t.2.entries) : (ds ++ [(ds.length, o, name)])[e.2]? = some (e.2, t.1, e.1) := by
      have h1 := h.tags t ht e he
      rw [List.getElem?_append_left (List.getElem?_eq_some_iff.1 h1).1, h1]
    obtain ⟨i, hi⟩ := List.mem_iff_getElem?.1 ht'
    obtain ⟨b, hb, ⟨rfl, rfl⟩ | ⟨_, rfl⟩⟩ := getElem?_modify_eq_some hi
    · obtain rfl := Option.some.inj (hb.symm.trans ht)
      rw [hentries] at he
      rcases List.mem_append.1 he with he | he
      · exact hold (List.mem_of_getElem? hb) he
      · rw [List.mem_singleton.1 he, List.getElem?_append_right (Nat.le_refl _), Nat.sub_self,
          show b.1 = o from h.templates o b hb]
        rfl
    · exact hold (List.mem_of_getElem? hb) he

end Filed

/-! ## references -/

/-- every number in a template stands for something registered -/
structure Template.Closed (c : Catalog) (t : Template) : Prop where
  imports : ∀ id ∈ t.imports, id ∈ c.templates.map Template.id
  sheets : ∀ id ∈ t.sheets, id ∈ c.sheets.map Sheet.id
  hosts : ∀ h, ∀ id ∈ t.host? h, id ∈ c.sheets.map Sheet.id
  links : ∀ l ∈ t.links, l.sheet ∈ c.sheets.map Sheet.id

/-- every number in a component stands for something registered, and discovery has left its body -/
structure Component.Closed (c : Catalog) (d : Component) : Prop where
  imports : ∀ id ∈ d.imports, id ∈ c.templates.map Template.id
  links : ∀ l ∈ d.links, l.sheet ∈ c.sheets.map Sheet.id
  elements : ∃ t, c.templates[d.template]? = some t ∧
    ∀ e ∈ BodyNode.elementsOf d.body, Declarations.Plain t.isMain e
  styles : ∀ sheet ∈ BodyNode.stylesOf d.body, sheet ∈ c.sheets.map Sheet.id

/-- a sheet is loaded if and only if it holds something -/
def Sheet.Stated (s : Sheet) : Prop := s.status = .loaded ↔ s.ast.isSome = true

structure Catalog.Sound (c : Catalog) : Prop where
  filed : Filed (c.templates.map Template.face) (c.components.map Component.face)
  sheets : Numbered Sheet.id c.sheets
  templates_closed : ∀ t ∈ c.templates, t.Closed c
  components_closed : ∀ d ∈ c.components, d.Closed c
  stated : ∀ sheet ∈ c.sheets, sheet.Stated

theorem Catalog.Sound.templates {c : Catalog} (h : c.Sound) : Numbered Template.id c.templates :=
  h.filed.templates.of_map

theorem Catalog.Sound.components {c : Catalog} (h : c.Sound) :
    Numbered Component.id c.components :=
  h.filed.components.of_map

/-- the state of what a job is for -/
def Job.status? (c : Catalog) : Job → Option Status
  | .template id => c.templates[id]?.map Template.status
  | .sheet id => c.sheets[id]?.map Sheet.status

namespace Session

/-- the catalog is sound, and every job in the queue is there once and is still to be done -/
structure Sound (s : Session) : Prop where
  catalog : s.catalog.Sound
  nodup : s.queue.Nodup
  pending : ∀ job ∈ s.queue, job.status? s.catalog = some .pending

variable {s s' : Session}

theorem closed_mono (hg : s.Grows s') {t : Template} (h : t.Closed s.catalog) :
    t.Closed s'.catalog :=
  ⟨fun id hid => hg.template_mem (h.imports id hid), fun id hid => hg.sheet_mem (h.sheets id hid),
    fun host id hid => hg.sheet_mem (h.hosts host id hid),
    fun l hl => hg.sheet_mem (h.links l hl)⟩

theorem component_closed_mono (hg : s.Grows s') {d : Component} (h : d.Closed s.catalog) :
    d.Closed s'.catalog := by
  refine ⟨fun id hid => hg.template_mem (h.imports id hid),
    fun l hl => hg.sheet_mem (h.links l hl), ?_, fun id hid => hg.sheet_mem (h.styles id hid)⟩
  obtain ⟨t, ht, he⟩ := h.elements
  obtain ⟨t', ht', hp⟩ := hg.template ht
  have hmain : t'.isMain = t.isMain := (Prod.mk.inj (Prod.mk.inj hp).2).2
  exact ⟨t', ht', hmain ▸ he⟩

/-! ## what a change of one object keeps -/

theorem mapCatalog_sound (h : s.Sound) (f : Catalog → Catalog)
    (ht : (f s.catalog).templates = s.catalog.templates)
    (hs : (f s.catalog).sheets = s.catalog.sheets)
    (hd : (f s.catalog).components = s.catalog.components) : (s.mapCatalog f).Sound := by
  have hg : s.Grows (s.mapCatalog f) :=
    .mapCatalog s f (congrArg _ ht) (congrArg _ hs) (congrArg _ hd)
  refine ⟨⟨?_, ?_, ?_, ?_, ?_⟩, h.nodup, ?_⟩
  · show Filed ((f s.catalog).templates.map _) ((f s.catalog).components.map _)
    rw [ht, hd]
    exact h.catalog.filed
  · show Numbered _ (f s.catalog).sheets
    rw [hs]
    exact h.catalog.sheets
  · intro t hm
    exact closed_mono hg (h.catalog.templates_closed t (ht ▸ hm))
  · intro d hm
    exact component_closed_mono hg (h.catalog.components_closed d (hd ▸ hm))
  · show ∀ sheet ∈ (f s.catalog).sheets, sheet.Stated
    rw [hs]
    exact h.catalog.stated
  · intro job hjob
    rw [← h.pending job hjob]
    cases job with
    | template i => exact congrArg (·[i]?.map Template.status) ht
    | sheet i => exact congrArg (·[i]?.map Sheet.status) hs

theorem withLog_sound (h : s.Sound) (log : Log) : (s.withLog log).Sound :=
  mapCatalog_sound h ({ · with log }) rfl rfl rfl

theorem note_sound (h : s.Sound) (c : Call) : (s.note c).Sound :=
  ⟨h.catalog, h.nodup, h.pending⟩

theorem modifyTemplate_sound (h : s.Sound) (id : TemplateId) (f : Template → Template)
    (hface : ∀ t, (f t).face = t.face) (hplace : ∀ t, (f t).place = t.place)
    (hstatus : (∀ t, (f t).status = t.status) ∨ Job.template id ∉ s.queue)
    (hclosed : ∀ t, t.Closed s.catalog → (f t).Closed s.catalog) :
    (s.mapCatalog (·.modifyTemplate id f)).Sound := by
  have hg := modifyTemplate_grows s id f hplace
  refine ⟨⟨?_, h.catalog.sheets, ?_, ?_, h.catalog.stated⟩, h.nodup, ?_⟩
  · show Filed ((s.catalog.templates.modify id f).map Template.face) _
    rw [map_modify_of_eq _ _ hface]
    exact h.catalog.filed
  · intro t ht
    refine closed_mono hg ?_
    rcases mem_modify ht with ht | ⟨b, hb, rfl⟩
    · exact h.catalog.templates_closed t ht
    · exact hclosed b (h.catalog.templates_closed b hb)
  · intro d hd
    exact component_closed_mono hg (h.catalog.components_closed d hd)
  · intro job hjob
    have hp := h.pending job hjob
    cases job with
    | sheet i => exact hp
    | template i =>
      show ((s.catalog.templates.modify id f)[i]?).map Template.status = _
      rcases hstatus with hstatus | hqueue
      · rw [← List.getElem?_map, map_modify_of_eq _ _ hstatus, List.getElem?_map]
        exact hp
      · have hne : id ≠ i := fun he => hqueue (he ▸ hjob)
        rw [List.getElem?_modify_ne _ _ hne]
        exact hp

theorem modifySheet_sound (h : s.Sound) (id : SheetId) (f : Sheet → Sheet)
    (hplace : ∀ sheet, (f sheet).place = sheet.place)
    (hstatus : (∀ sheet, (f sheet).status = sheet.status) ∨ Job.sheet id ∉ s.queue)
    (hstated : ∀ sheet, s.catalog.sheets[id]? = some sheet → sheet.Stated → (f sheet).Stated) :
    (s.mapCatalog (·.modifySheet id f)).Sound := by
  have hg := modifySheet_grows s id f hplace
  refine ⟨⟨h.catalog.filed, ?_, ?_, ?_, ?_⟩, h.nodup, ?_⟩
  · exact h.catalog.sheets.modify f (fun sheet => (Prod.mk.inj (hplace sheet)).1) id
  · intro t ht
    exact closed_mono hg (h.catalog.templates_closed t ht)
  · intro d hd
    exact component_closed_mono hg (h.catalog.components_closed d hd)
  · intro sheet hsheet
    obtain ⟨i, hi⟩ := List.mem_iff_getElem?.1 hsheet
    obtain ⟨b, hb, ⟨rfl, rfl⟩ | ⟨_, rfl⟩⟩ := getElem?_modify_eq_some hi
    · exact hstated b hb (h.catalog.stated b (List.mem_of_getElem? hb))
    · exact h.catalog.stated _ (List.mem_of_getElem? hb)
  · intro job hjob
    have hp := h.pending job hjob
    cases job with
    | template i => exact hp
    | sheet i =>
      show ((s.catalog.sheets.modify id f)[i]?).map Sheet.status = _
      rcases hstatus with hstatus | hqueue
      · rw [← List.getElem?_map, map_modify_of_eq _ _ hstatus, List.getElem?_map]
        exact hp
      · have hne : id ≠ i := fun he => hqueue (he ▸ hjob)
        rw [List.getElem?_modify_ne _ _ hne]
        exact hp

theorem modifyComponent_sound (h : s.Sound) (id : ComponentId) (f : Component → Component)
    (hface : ∀ d, (f d).face = d.face)
    (hclosed : ∀ d, s.catalog.components[id]? = some d → d.Closed s.catalog →
      (f d).Closed s.catalog) : (s.mapCatalog (·.modifyComponent id f)).Sound := by
  have hplace (d : Component) : (f d).place = d.place := by
    obtain ⟨hid, hrest⟩ := Prod.mk.inj (hface d)
    show ((f d).id, (f d).template) = (d.id, d.template)
    rw [hid, (Prod.mk.inj hrest).1]
  have hg := modifyComponent_grows s id f hplace
  refine ⟨⟨?_, h.catalog.sheets, ?_, ?_, h.catalog.stated⟩, h.nodup,
    h.pending⟩
  · show Filed _ ((s.catalog.components.modify id f).map Component.face)
    rw [map_modify_of_eq _ _ hface]
    exact h.catalog.filed
  · intro t ht
    exact closed_mono hg (h.catalog.templates_closed t ht)
  · intro d hd
    refine component_closed_mono hg ?_
    obtain ⟨i, hi⟩ := List.mem_iff_getElem?.1 hd
    obtain ⟨b, hb, ⟨rfl, rfl⟩ | ⟨_, rfl⟩⟩ := getElem?_modify_eq_some hi
    · exact hclosed b hb (h.catalog.components_closed b (List.mem_of_getElem? hb))
    · exact h.catalog.components_closed _ (List.mem_of_getElem? hb)

/-! ## what a registration keeps -/

/-- a job in the queue has an object, so the next number is free -/
theorem template_fresh (h : s.Sound) : Job.template s.catalog.templates.length ∉ s.queue := by
  intro hq
  obtain ⟨t, ht, _⟩ := Option.map_eq_some_iff.1 (h.pending _ hq)
  exact absurd (List.getElem?_eq_some_iff.1 ht).1 (Nat.lt_irrefl _)

theorem sheet_fresh (h : s.Sound) : Job.sheet s.catalog.sheets.length ∉ s.queue := by
  intro hq
  obtain ⟨sheet, hs, _⟩ := Option.map_eq_some_iff.1 (h.pending _ hq)
  exact absurd (List.getElem?_eq_some_iff.1 hs).1 (Nat.lt_irrefl _)

theorem nodup_queue_concat {queue : List Job} {job : Job} (h : queue.Nodup) (hnew : job ∉ queue) :
    (queue ++ [job]).Nodup :=
  List.nodup_append.2 ⟨h, List.nodup_singleton _, fun _ ha _ hb hab =>
    hnew (List.mem_singleton.1 hb ▸ hab ▸ ha)⟩

theorem status_append {α : Type} {l : List α} {a : α} {g : α → Status} {i : Nat} {status : Status}
    (h : l[i]?.map g = some status) : (l ++ [a])[i]?.map g = some status := by
  obtain ⟨b, hb, _⟩ := Option.map_eq_some_iff.1 h
  rw [List.getElem?_append_left (List.getElem?_eq_some_iff.1 hb).1]
  exact h

theorem registerTemplate_sound (h : s.Sound) (l : Location) (usedFrom : Text) (isMain : Bool) :
    (s.registerTemplate l usedFrom isMain).2.Sound := by
  have hg := registerTemplate_grows s l usedFrom isMain
  cases hfind : s.catalog.template? l with
  | some t =>
    unfold registerTemplate
    rw [hfind]
    exact modifyTemplate_sound h t.id _ (fun _ => rfl) (fun _ => rfl) (.inl fun _ => rfl)
      (fun _ ht => ⟨ht.imports, ht.sheets, ht.hosts, ht.links⟩)
  | none =>
    unfold registerTemplate at hg ⊢
    rw [hfind] at hg ⊢
    refine ⟨⟨?_, h.catalog.sheets, ?_, ?_, h.catalog.stated⟩, ?_, ?_⟩
    · have h1 := h.catalog.filed.register
      rw [List.length_map] at h1
      show Filed ((s.catalog.templates ++ [_]).map Template.face) _
      rw [List.map_append]
      exact h1
    · intro t ht
      rcases List.mem_append.1 ht with ht | ht
      · exact closed_mono hg (h.catalog.templates_closed t ht)
      · rw [List.mem_singleton.1 ht]
        refine ⟨fun _ hm => absurd hm List.not_mem_nil, fun _ hm => absurd hm List.not_mem_nil,
          ?_, fun _ hm => absurd hm List.not_mem_nil⟩
        intro host _ hm
        cases host <;> cases hm
    · intro d hd
      exact component_closed_mono hg (h.catalog.components_closed d hd)
    · exact nodup_queue_concat h.nodup (template_fresh h)
    · intro job hjob
      rcases List.mem_append.1 hjob with hjob | hjob
      · have hp := h.pending job hjob
        cases job with
        | template i => exact status_append hp
        | sheet i => exact hp
      · rw [List.mem_singleton.1 hjob]
        show (s.catalog.templates ++ [_])[s.catalog.templates.length]?.map Template.status = _
        rw [List.getElem?_append_right (Nat.le_refl _), Nat.sub_self]
        rfl

theorem useMain_sound (h : s.Sound) (l : Location) : (s.useMain l).2.Sound := by
  unfold useMain
  dsimp only
  split
  · exact note_sound h _
  · exact mapCatalog_sound (registerTemplate_sound (note_sound h (.main l)) l "<entry>".toList true)
      (fun c => { c with main := _ }) rfl rfl rfl

theorem useTemplate_sound (h : s.Sound) (reference : Text) (origin : Location) :
    (s.useTemplate reference origin).2.Sound :=
  registerTemplate_sound (note_sound h _) _ _ _

/-- one more sheet -/
theorem concatSheet_sound (h : s.Sound) {sheet : Sheet} (hg : s.Grows s')
    (hid : sheet.id = s.catalog.sheets.length) (hast : sheet.ast = none)
    (hstatus : sheet.status = .pending) (ht : s'.catalog.templates = s.catalog.templates)
    (hd : s'.catalog.components = s.catalog.components)
    (hs : s'.catalog.sheets = s.catalog.sheets ++ [sheet])
    (hq : s'.queue = s.queue ∨ s'.queue = s.queue ++ [.sheet s.catalog.sheets.length]) :
    s'.Sound := by
  have hold (job : Job) (hp : job.status? s.catalog = some .pending) :
      job.status? s'.catalog = some .pending := by
    cases job with
    | template i =>
      rw [← hp]
      exact congrArg (·[i]?.map Template.status) ht
    | sheet i =>
      show s'.catalog.sheets[i]?.map Sheet.status = _
      rw [hs]
      exact status_append hp
  refine ⟨⟨?_, ?_, ?_, ?_, ?_⟩, ?_, ?_⟩
  · rw [ht, hd]
    exact h.catalog.filed
  · rw [hs]
    exact h.catalog.sheets.concat hid
  · intro t hm
    exact closed_mono hg (h.catalog.templates_closed t (ht ▸ hm))
  · intro d hm
    exact component_closed_mono hg (h.catalog.components_closed d (hd ▸ hm))
  · intro other hm
    rw [hs] at hm
    rcases List.mem_append.1 hm with hm | hm
    · exact h.catalog.stated other hm
    · rw [List.mem_singleton.1 hm]
      show sheet.status = _ ↔ _
      rw [hstatus, hast]
      decide
  · rcases hq with hq | hq
    · rw [hq]
      exact h.nodup
    · rw [hq]
      exact nodup_queue_concat h.nodup (sheet_fresh h)
  · intro job hjob
    rcases hq with hq | hq
    · exact hold job (h.pending job (hq ▸ hjob))
    · rw [hq] at hjob
      rcases List.mem_append.1 hjob with hjob | hjob
      · exact hold job (h.pending job hjob)
      · rw [List.mem_singleton.1 hjob]
        show s'.catalog.sheets[s.catalog.sheets.length]?.map Sheet.status = _
        rw [hs, List.getElem?_append_right (Nat.le_refl _), Nat.sub_self]
        exact congrArg some hstatus

theorem registerSheet_sound (h : s.Sound) (l : Location) (usedFrom : Text) :
    (s.registerSheet l usedFrom).2.Sound := by
  have hg := registerSheet_grows s l usedFrom
  cases hfind : s.catalog.sharedSheet? l with
  | some sheet =>
    unfold registerSheet
    rw [hfind]
    exact modifySheet_sound h sheet.id _ (fun _ => rfl) (.inl fun _ => rfl) (fun _ _ hs => hs)
  | none =>
    unfold registerSheet at hg ⊢
    rw [hfind] at hg ⊢
    exact concatSheet_sound h hg rfl rfl rfl rfl rfl rfl (.inr rfl)

theorem importSheet_sound (h : s.Sound) (url : Text) (origin : Location) :
    (s.importSheet url origin).2.Sound :=
  registerSheet_sound (note_sound h _) _ _

theorem importSheets_sound (h : s.Sound) (urls : List Text) (origin : Location) :
    (s.importSheets urls origin).2.Sound := by
  induction urls generalizing s with
  | nil => exact h
  | cons url urls ih => exact ih (importSheet_sound h url origin)

theorem parseSheet_sound (env : Env) (h : s.Sound) (source file : Text) :
    (s.parseSheet env source file).2.Sound := by
  obtain ⟨log, hlog⟩ := parseSheet_eq env s source file
  rw [hlog]
  exact withLog_sound h log

/-! ## what filling in a sheet keeps -/

/-- the sheet exists, and no job waits for it -/
def Idle (s : Session) (id : SheetId) : Prop :=
  id < s.catalog.sheets.length ∧ Job.sheet id ∉ s.queue

theorem registerSheet_idle {id : SheetId} (h : s.Idle id) (l : Location) (usedFrom : Text) :
    (s.registerSheet l usedFrom).2.Idle id := by
  unfold registerSheet
  split
  · refine ⟨?_, h.2⟩
    show id < (s.catalog.sheets.modify _ _).length
    rw [List.length_modify]
    exact h.1
  · constructor
    · show id < (s.catalog.sheets ++ [_]).length
      rw [List.length_append]
      exact Nat.lt_of_lt_of_le h.1 (Nat.le_add_right _ _)
    · intro hm
      rcases List.mem_append.1 hm with hm | hm
      · exact h.2 hm
      · have hid : id = s.catalog.sheets.length := Job.sheet.inj (List.mem_singleton.1 hm)
        exact absurd (hid ▸ h.1) (Nat.lt_irrefl _)

theorem importSheets_idle {id : SheetId} (h : s.Idle id) (urls : List Text) (origin : Location) :
    (s.importSheets urls origin).2.Idle id := by
  induction urls generalizing s with
  | nil => exact h
  | cons url urls ih => exact ih (registerSheet_idle (s := s.note _) h _ _)

theorem finishSheet_sound (h : s.Sound) {id : SheetId} (hidle : s.Idle id)
    (hpending : s.catalog.sheets[id]?.map Sheet.status = some .pending) (l : Location)
    (ast : Option Css.Node) : (s.finishSheet id l ast).Sound := by
  cases ast with
  | none =>
    apply modifySheet_sound h id (fun sheet => { sheet with status := .failed }) (fun _ => rfl)
      (.inr hidle.2)
    intro sheet hsheet hstated
    rw [hsheet] at hpending
    have hstatus : sheet.status = .pending := Option.some.inj hpending
    refine ⟨fun hf => (by cases hf), ?_⟩
    intro hast
    have hloaded : sheet.status = .loaded := hstated.2 hast
    rw [hstatus] at hloaded
    cases hloaded
  | some ast =>
    refine modifySheet_sound (importSheets_sound h ast.importUrls l) id _ (fun _ => rfl)
      (.inr (importSheets_idle hidle _ l).2) ?_
    intro _ _ _
    exact ⟨fun _ => rfl, fun _ => rfl⟩

theorem inlineSheet_sound (env : Env) (h : s.Sound) (source : Text) (origin : Location)
    (fromComponent : Bool) : (s.inlineSheet env source origin fromComponent).2.Sound := by
  have hnote := note_sound h (.inline source origin fromComponent)
  have hnew := concatSheet_sound hnote (registerInline_grows _ origin fromComponent)
    rfl rfl rfl rfl rfl rfl (.inl rfl)
  have hparse := parseSheet_sound env hnew source origin.toText
  obtain ⟨log, hlog⟩ := parseSheet_eq env
    ((s.note (.inline source origin fromComponent)).registerInline origin fromComponent)
    source origin.toText
  unfold inlineSheet
  refine finishSheet_sound hparse ⟨?_, ?_⟩ ?_ origin _
  · rw [hlog]
    show s.catalog.sheets.length < (s.catalog.sheets ++ [_]).length
    rw [List.length_append]
    exact Nat.lt_succ_self _
  · rw [hlog]
    exact sheet_fresh h
  · rw [hlog]
    show (s.catalog.sheets ++ [_])[s.catalog.sheets.length]?.map Sheet.status = _
    rw [List.getElem?_append_right (Nat.le_refl _), Nat.sub_self]
    rfl

theorem call_sound (env : Env) (h : s.Sound) (c : Call) : (s.call env c).Sound := by
  cases c with
  | main l => exact useMain_sound h l
  | template reference origin => exact useTemplate_sound h reference origin
  | sheet url origin => exact importSheet_sound h url origin
  | inline source origin fromComponent => exact inlineSheet_sound env h source origin _

/-! ## what discovery keeps -/

theorem forall_mem_addOnce {p : Nat → Prop} {n : Nat} {ns : List Nat} (h : ∀ m ∈ ns, p m)
    (hn : p n) : ∀ m ∈ Declarations.addOnce n ns, p m := by
  unfold Declarations.addOnce
  split
  · exact h
  · exact List.forall_mem_append.2 ⟨h, List.forall_mem_singleton.2 hn⟩

theorem declared_sound (h : s.Sound) (o : Origin) {name : Text} (params : Attributes) {t : Template}
    (ht : s.catalog.templates[o.template]? = some t) (hnew : t.tags.contains name = false) :
    (Declarations.declared o name params s).Sound := by
  have hg := Declarations.declared_grows o s name params
  have hname : name ∉ t.tags.names := fun hm => by
    rw [NameMap.contains_iff.2 hm] at hnew
    cases hnew
  have hface : (s.catalog.templates.map Template.face)[o.template]? = some t.face := by
    rw [List.getElem?_map, ht, Option.map_some]
  have hfiled := h.catalog.filed.declare hface hname
  rw [List.length_map] at hfiled
  refine ⟨⟨?_, h.catalog.sheets, ?_, ?_, h.catalog.stated⟩, h.nodup, ?_⟩
  · show Filed ((s.catalog.templates.modify _ _).map Template.face)
      ((s.catalog.components ++ [_]).map Component.face)
    rw [map_modify Template.face _ (fun t => (t.1, t.2.insert name s.catalog.components.length))
      (fun _ => rfl), List.map_append]
    exact hfiled
  · intro t' hm
    refine closed_mono hg ?_
    rcases mem_modify hm with hm | ⟨b, hb, rfl⟩
    · exact h.catalog.templates_closed t' hm
    · have hb := h.catalog.templates_closed b hb
      exact ⟨hb.imports, hb.sheets, hb.hosts, hb.links⟩
  · intro d hm
    rcases List.mem_append.1 hm with hm | hm
    · exact component_closed_mono hg (h.catalog.components_closed d hm)
    · rw [List.mem_singleton.1 hm]
      obtain ⟨t', ht', _⟩ := hg.template ht
      exact ⟨fun _ hm => absurd hm List.not_mem_nil, fun _ hm => absurd hm List.not_mem_nil,
        ⟨t', ht', fun _ hm => absurd hm List.not_mem_nil⟩, fun _ hm => absurd hm List.not_mem_nil⟩
  · intro job hjob
    have hp := h.pending job hjob
    cases job with
    | sheet i => exact hp
    | template i =>
      rw [← hp]
      show ((s.catalog.templates.modify o.template fun t =>
        { t with tags := t.tags.insert name s.catalog.components.length })[i]?).map _ = _
      rw [← List.getElem?_map, map_modify_of_eq]
      · exact List.getElem?_map
      · exact fun _ => rfl

/-- the template of an origin is registered as the origin says -/
def Known (o : Origin) (s : Session) : Prop :=
  ∃ t, s.catalog.templates[o.template]? = some t ∧ t.place = (o.template, o.location, o.isMain)

theorem Known.mono {o : Origin} (h : Known o s) (hg : s.Grows s') : Known o s' := by
  obtain ⟨t, ht, hp⟩ := h
  obtain ⟨t', ht', hp'⟩ := hg.template ht
  exact ⟨t', ht', hp'.trans hp⟩

theorem move_sound {env : Env} {o : Origin} (m : Declarations.Move env o s s') (h : s.Sound)
    (hknown : Known o s) : s'.Sound := by
  -- a change of the template at hand
  have change (f : Template → Template) (hface : ∀ t, (f t).face = t.face)
      (hplace : ∀ t, (f t).place = t.place) (hstatus : ∀ t, (f t).status = t.status)
      (hclosed : ∀ t, t.Closed s.catalog → (f t).Closed s.catalog) :
      (Declarations.modifyTemplate o f s).Sound :=
    modifyTemplate_sound h o.template f hface hplace (.inl hstatus) hclosed
  cases m with
  | report p => exact withLog_sound h _
  | declare name params _ t ht hnew => exact declared_sound h o params ht hnew
  | body id body _ owned settled =>
    refine modifyComponent_sound h id _ (fun _ => rfl) ?_
    intro d hd hc
    obtain ⟨d', hd', hp⟩ := owned
    obtain rfl := Option.some.inj (hd.symm.trans hd')
    obtain ⟨t, ht, htp⟩ := hknown
    have htemplate : d.template = o.template := (Prod.mk.inj hp).2
    have hmain : t.isMain = o.isMain := (Prod.mk.inj (Prod.mk.inj htp).2).2
    exact ⟨hc.imports, hc.links, ⟨t, htemplate ▸ ht, hmain ▸ settled.elements⟩, settled.styles⟩
  | useTemplate reference => exact useTemplate_sound h reference o.location
  | importSheet url => exact importSheet_sound h url o.location
  | inlineSheet source => exact inlineSheet_sound env h source o.location _
  | fileImport id _ registered =>
    refine change _ (fun _ => rfl) (fun _ => rfl) (fun _ => rfl) ?_
    intro t ht
    exact ⟨forall_mem_addOnce ht.imports registered, ht.sheets, ht.hosts, ht.links⟩
  | componentImport owner id _ owned registered =>
    refine modifyComponent_sound h owner _ (fun _ => rfl) ?_
    intro d _ hd
    exact ⟨forall_mem_addOnce hd.imports registered, hd.links, hd.elements, hd.styles⟩
  | sheet id _ registered =>
    refine change _ (fun _ => rfl) (fun _ => rfl) (fun _ => rfl) ?_
    intro t ht
    exact ⟨ht.imports, forall_mem_addOnce ht.sheets registered, ht.hosts, ht.links⟩
  | fileLink link _ registered =>
    refine change _ (fun _ => rfl) (fun _ => rfl) (fun _ => rfl) ?_
    intro t ht
    exact ⟨ht.imports, ht.sheets, ht.hosts,
      List.forall_mem_append.2 ⟨ht.links, List.forall_mem_singleton.2 registered⟩⟩
  | componentLink owner link _ owned other registered =>
    refine modifyComponent_sound h owner _ (fun _ => rfl) ?_
    intro d _ hd
    exact ⟨hd.imports, List.forall_mem_append.2 ⟨hd.links, List.forall_mem_singleton.2 registered⟩,
      hd.elements, hd.styles⟩
  | testData l =>
    exact change _ (fun _ => rfl) (fun _ => rfl) (fun _ => rfl)
      (fun _ ht => ⟨ht.imports, ht.sheets, ht.hosts, ht.links⟩)
  | host host id _ t main hostable =>
    refine change _ ?_ (Declarations.place_setHost host id) ?_ ?_
    · intro t
      cases host <;> rfl
    · intro t
      cases host <;> rfl
    · intro t ht
      refine ⟨?_, ?_, ?_, ?_⟩
      · cases host <;> exact ht.imports
      · cases host <;> exact ht.sheets
      · intro h' i hi
        rw [Declarations.host?_setHost] at hi
        by_cases hh : host = h'
        · rw [if_pos hh] at hi
          exact Option.some.inj hi ▸ hostable.registered
        · rw [if_neg hh] at hi
          exact ht.hosts h' i hi
      · cases host <;> exact ht.links

theorem moves_sound {env : Env} {o : Origin} (m : Declarations.Moves env o s s') (h : s.Sound)
    (hknown : Known o s) : s'.Sound ∧ Known o s' := by
  induction m with
  | refl => exact ⟨h, hknown⟩
  | tail _ m ih => exact ⟨move_sound m ih.1 ih.2, ih.2.mono m.grows⟩

/-! ## runs -/

theorem loadTemplate_sound (env : Env) (h : s.Sound) {t : Template}
    (ht : s.catalog.templates[t.id]? = some t) (hqueue : Job.template t.id ∉ s.queue) :
    (s.loadTemplate env t).Sound := by
  have hread : ({ s with reads := s.reads ++ [t.location] } : Session).Sound :=
    ⟨h.catalog, h.nodup, h.pending⟩
  have mark (status : Status) := modifyTemplate_sound hread t.id
    (fun t => { t with status }) (fun _ => rfl) (fun _ => rfl) (.inr hqueue)
    (fun _ ht => ⟨ht.imports, ht.sheets, ht.hosts, ht.links⟩)
  unfold loadTemplate
  dsimp only
  split
  · exact withLog_sound (mark .failed) _
  · refine (moves_sound (Declarations.discover_moves env _ _ _) (mark .loaded) ?_).1
    refine ⟨{ t with status := .loaded }, ?_, rfl⟩
    show (s.catalog.templates.modify t.id _)[t.id]? = _
    rw [List.getElem?_modify_eq, ht]
    rfl

theorem loadSheet_sound (env : Env) (h : s.Sound) {sheet : Sheet}
    (hsheet : s.catalog.sheets[sheet.id]? = some sheet) (hpending : sheet.status = .pending)
    (hqueue : Job.sheet sheet.id ∉ s.queue) : (s.loadSheet env sheet).Sound := by
  have hread : ({ s with reads := s.reads ++ [sheet.location] } : Session).Sound :=
    ⟨h.catalog, h.nodup, h.pending⟩
  have hidle : s.Idle sheet.id := ⟨(List.getElem?_eq_some_iff.1 hsheet).1, hqueue⟩
  have hstatus : s.catalog.sheets[sheet.id]?.map Sheet.status = some .pending := by
    rw [hsheet, Option.map_some, hpending]
  unfold loadSheet
  dsimp only
  split
  · exact withLog_sound (finishSheet_sound hread hidle hstatus sheet.location none) _
  · next source _ =>
    have hparse := parseSheet_sound env hread source sheet.file
    obtain ⟨log, hlog⟩ := parseSheet_eq env { s with reads := s.reads ++ [sheet.location] }
      source sheet.file
    refine finishSheet_sound hparse ?_ ?_ sheet.location _
    · rw [hlog]
      exact hidle
    · rw [hlog]
      exact hstatus

/-- a job loads a template or a sheet that is still to be read -/
theorem step_cases {env : Env} (hstep : s.step env = some s') (h : s.Sound) :
    (∃ t queue, s.queue = .template t.id :: queue ∧ s.catalog.templates[t.id]? = some t ∧
      t.status = .pending ∧ s' = ({ s with queue } : Session).loadTemplate env t) ∨
    (∃ sheet queue, s.queue = .sheet sheet.id :: queue ∧
      s.catalog.sheets[sheet.id]? = some sheet ∧ sheet.status = .pending ∧
      s' = ({ s with queue } : Session).loadSheet env sheet) := by
  unfold step at hstep
  split at hstep
  · cases hstep
  · next job queue hq =>
    obtain rfl := Option.some.inj hstep
    have hpending := h.pending job (hq ▸ List.mem_cons_self)
    cases job with
    | template id =>
      obtain ⟨t, ht, hstatus⟩ := Option.map_eq_some_iff.1 hpending
      obtain rfl : t.id = id := h.catalog.templates id t ht
      refine .inl ⟨t, queue, hq, ht, hstatus, ?_⟩
      unfold perform
      dsimp only
      rw [ht]
    | sheet id =>
      obtain ⟨sheet, hsheet, hstatus⟩ := Option.map_eq_some_iff.1 hpending
      obtain rfl : sheet.id = id := h.catalog.sheets id sheet hsheet
      refine .inr ⟨sheet, queue, hq, hsheet, hstatus, ?_⟩
      unfold perform
      dsimp only
      rw [hsheet]

theorem step_sound (env : Env) (hstep : s.step env = some s') (h : s.Sound) : s'.Sound := by
  -- the queue without its first job
  have hrest {job : Job} {queue : List Job} (hq : s.queue = job :: queue) :
      job ∉ queue ∧ ({ s with queue } : Session).Sound := by
    have hnodup := h.nodup
    rw [hq, List.nodup_cons] at hnodup
    exact ⟨hnodup.1, h.catalog, hnodup.2,
      fun job hj => h.pending job (hq ▸ List.mem_cons_of_mem _ hj)⟩
  rcases step_cases hstep h with ⟨t, queue, hq, ht, -, rfl⟩ | ⟨sheet, queue, hq, hsheet, hs, rfl⟩
  · obtain ⟨hnew, hsound⟩ := hrest hq
    exact loadTemplate_sound env hsound ht hnew
  · obtain ⟨hnew, hsound⟩ := hrest hq
    exact loadSheet_sound env hsound hsheet hs hnew

theorem run_sound (env : Env) (fuel : Nat) (hrun : s.run env fuel = some s') (h : s.Sound) :
    s'.Sound :=
  run_induction Session.Sound (fun _ _ hstep h => step_sound env hstep h) hrun h

theorem start_sound (siteRoot : Path) (lints : Bool) : (start siteRoot lints).Sound :=
  ⟨⟨.nil, .nil _, fun _ h => absurd h List.not_mem_nil, fun _ h => absurd h List.not_mem_nil,
    fun _ h => absurd h List.not_mem_nil⟩, List.nodup_nil, fun _ h => absurd h List.not_mem_nil⟩

theorem prepared_sound (env : Env) (siteRoot : Path) (lints : Bool) (cs : List Call) :
    (prepared env siteRoot lints cs).Sound := by
  unfold prepared
  induction cs using List.reverseRecOn with
  | nil => exact start_sound siteRoot lints
  | append_singleton cs c ih =>
    rw [List.foldl_append]
    exact call_sound env ih c

end Session

/-! ## loaded catalogs -/

namespace Catalog

/-- the catalogs of finished runs, before and after rules are moved into host sheets -/
inductive Loaded : Catalog → Prop where
  | run (env : Env) (siteRoot : Path) (lints : Bool) (cs : List Call) (fuel : Nat) (s : Session)
      (h : (Session.prepared env siteRoot lints cs).run env fuel = some s) : Loaded s.catalog
  | collectFonts (c : Catalog) (host : SheetId) (h : Loaded c) : Loaded (c.collectFonts host)
  | collectStyles (c : Catalog) (host : SheetId) (h : Loaded c) : Loaded (c.collectStyles host)

/-- the sheets may hold something else, as long as their states say so -/
theorem Sound.withSheets {c c' : Catalog} (h : c.Sound) (ht : c'.templates = c.templates)
    (hd : c'.components = c.components) (hids : c'.sheets.map Sheet.id = c.sheets.map Sheet.id)
    (hstated : ∀ sheet ∈ c'.sheets, sheet.Stated) : c'.Sound := by
  refine ⟨?_, h.sheets.of_map_eq hids, ?_, ?_, hstated⟩
  · rw [ht, hd]
    exact h.filed
  · intro t hm
    have hc := h.templates_closed t (ht ▸ hm)
    exact ⟨ht ▸ hc.imports, hids ▸ hc.sheets, hids ▸ hc.hosts, hids ▸ hc.links⟩
  · intro d hm
    have hc := h.components_closed d (hd ▸ hm)
    exact ⟨ht ▸ hc.imports, hids ▸ hc.links, ht ▸ hc.elements, hids ▸ hc.styles⟩

theorem reportSheets_eq (c : Catalog) (p : Sheet → Bool) (problem : Problem) :
    c.reportSheets p problem = { c with
      log := (c.sheets.filter p).foldl (fun log s => log.report (some s.file) problem) c.log } := by
  unfold reportSheets
  generalize c.sheets.filter p = sheets
  induction sheets generalizing c with
  | nil => rfl
  | cons sheet sheets ih =>
    rw [List.foldl_cons, ih]
    rfl

/-- an error is always recorded -/
theorem report_of_error {p : Problem} (h : p.severity = .error) (log : Log) (file : Option Text) :
    log.report file p = { log with entries := log.entries ++ [⟨file, p⟩] } := by
  apply if_neg
  rw [h]
  exact fun hl => absurd hl.1 (by decide)

/-- errors about sheets are recorded one after another -/
theorem entries_reportSheets (c : Catalog) (p : Sheet → Bool) {problem : Problem}
    (h : problem.severity = .error) : (c.reportSheets p problem).log.entries
      = c.log.entries ++ (c.sheets.filter p).map fun s => ⟨some s.file, problem⟩ := by
  rw [reportSheets_eq]
  show ((c.sheets.filter p).foldl (fun log s => log.report (some s.file) problem) c.log).entries = _
  generalize c.sheets.filter p = sheets, c.log = log
  induction sheets generalizing log with
  | nil => exact (List.append_nil _).symm
  | cons sheet sheets ih =>
    rw [List.foldl_cons, ih, report_of_error h, List.append_assoc]
    rfl

/-- rules at the end of a sheet, after a change of every sheet that keeps numbers and states -/
theorem Sound.moveRules {c : Catalog} (h : c.Sound) (log : Log) (f : Sheet → Sheet)
    (hid : ∀ sheet, (f sheet).id = sheet.id) (hf : ∀ sheet, sheet.Stated → (f sheet).Stated)
    (host : SheetId) (more : List Css.Node) :
    ({ { c with log } with sheets := c.sheets.map f }.modifySheet host
      (Sheet.append more)).Sound := by
  refine h.withSheets rfl rfl ?_ ?_
  · show ((c.sheets.map f).modify host _).map Sheet.id = _
    rw [map_modify_of_eq Sheet.id (Sheet.append more) (fun _ => rfl), List.map_map]
    exact List.map_congr_left (fun sheet _ => hid sheet)
  · intro sheet hm
    have happend (sheet : Sheet) (hs : sheet.Stated) : (sheet.append more).Stated := by
      show sheet.status = _ ↔ (sheet.ast.map _).isSome = true
      rw [Option.isSome_map]
      exact hs
    have hmap (sheet : Sheet) (hm : sheet ∈ c.sheets.map f) : sheet.Stated := by
      obtain ⟨b, hb, rfl⟩ := List.mem_map.1 hm
      exact hf b (h.stated b hb)
    rcases mem_modify hm with hm | ⟨b, hb, rfl⟩
    · exact hmap sheet hm
    · exact happend b (hmap b hb)

theorem collectFonts_sound {c : Catalog} (h : c.Sound) (host : SheetId) :
    (c.collectFonts host).Sound := by
  unfold collectFonts
  split
  · exact h
  · next sheet _ =>
    split
    · exact h.withSheets rfl rfl rfl h.stated
    · rw [reportSheets_eq]
      refine h.moveRules _ Sheet.withoutFontFaces ?_ ?_ host _
      · intro sheet
        unfold Sheet.withoutFontFaces
        split <;> rfl
      · intro sheet hs
        unfold Sheet.withoutFontFaces
        split
        · show sheet.status = _ ↔ (sheet.ast.map _).isSome = true
          rw [Option.isSome_map]
          exact hs
        · exact hs

theorem collectStyles_sound {c : Catalog} (h : c.Sound) (host : SheetId) :
    (c.collectStyles host).Sound := by
  unfold collectStyles
  split
  · exact h
  · next sheet _ =>
    split
    · exact h.withSheets rfl rfl rfl h.stated
    · rw [reportSheets_eq]
      refine h.moveRules _ (Sheet.withoutRules host) ?_ ?_ host _
      · intro sheet
        unfold Sheet.withoutRules
        split <;> rfl
      · intro sheet hs
        unfold Sheet.withoutRules
        split
        · next hsource =>
          obtain ⟨hsource, _⟩ := Bool.and_eq_true_iff.1 hsource
          have hloaded : sheet.status = .loaded :=
            of_decide_eq_true (Bool.and_eq_true_iff.1 hsource).2
          exact ⟨fun _ => rfl, fun _ => hloaded⟩
        · exact hs

theorem Loaded.sound {c : Catalog} (h : c.Loaded) : c.Sound := by
  induction h with
  | run env siteRoot lints cs fuel s h =>
    exact (Session.run_sound env fuel h (Session.prepared_sound env siteRoot lints cs)).catalog
  | collectFonts c host _ ih => exact collectFonts_sound ih host
  | collectStyles c host _ ih => exact collectStyles_sound ih host

end Catalog

end PageTemplates
