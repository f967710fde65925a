import PageTemplates.Proofs.Edits

/-!
# The main template

Which template is the main one is recorded twice, once in the catalog and once in the template
itself.  The first call for a main template settles both.  It marks only a template that it
registers itself: one that an earlier call has registered for the same location stays as it is, and
then the catalog points to a template that is not marked.

* `Catalog.Joined`              only unmarked templates join, which are still to be read;
* `Session.calls_joined`        calls, as long as none of them settles the main template;
* `Catalog.SameMain`            the marked templates are those from before;
* `Session.step_sameMain`       one job;
* `Session.useMain_marks`       what the first call for a main template does;
* `Session.run_main`            which template is marked after a run.
-/

namespace PageTemplates

/-- templates may join that are not marked as main and are still to be read; the main template of
the catalog stays -/
structure Catalog.Joined (c c' : Catalog) : Prop where
  main : c'.main = c.main
  stages : ∃ more, c'.templates.map Template.stage = c.templates.map Template.stage ++ more ∧
    ∀ stage ∈ more, stage.1.2.2 = false ∧ stage.2 = .pending

namespace Catalog.Joined
variable {c c' c'' : Catalog}

/-- nothing joins -/
theorem of_stages (hmain : c'.main = c.main)
    (hstages : c'.templates.map Template.stage = c.templates.map Template.stage) : c.Joined c' :=
  ⟨hmain, [], hstages.trans (List.append_nil _).symm, fun _ h => absurd h List.not_mem_nil⟩

theorem refl (c : Catalog) : c.Joined c := of_stages rfl rfl

theorem trans (h : c.Joined c') (h' : c'.Joined c'') : c.Joined c'' := by
  obtain ⟨more, hmore, hnew⟩ := h.stages
  obtain ⟨more', hmore', hnew'⟩ := h'.stages
  refine ⟨h'.main.trans h.main, more ++ more', ?_, List.forall_mem_append.2 ⟨hnew, hnew'⟩⟩
  rw [hmore', hmore, List.append_assoc]

theorem modifyTemplate (c : Catalog) (id : TemplateId) (f : Template → Template)
    (hf : ∀ t, (f t).stage = t.stage) : c.Joined (c.modifyTemplate id f) :=
  of_stages rfl (map_modify_of_eq Template.stage f hf _ _)

/-- a template that has been read, or is marked, has been there before -/
theorem before (h : c.Joined c') {t' : Template} (ht' : t' ∈ c'.templates)
    (hold : t'.isMain = true ∨ t'.status ≠ .pending) : ∃ t ∈ c.templates, t.stage = t'.stage := by
  obtain ⟨more, hmore, hnew⟩ := h.stages
  have hm : t'.stage ∈ c'.templates.map Template.stage := List.mem_map_of_mem ht'
  rw [hmore] at hm
  rcases List.mem_append.1 hm with hm | hm
  · exact List.mem_map.1 hm
  · obtain ⟨hunmarked, hpending⟩ := hnew _ hm
    rcases hold with hold | hold
    · exact absurd (hold.symm.trans hunmarked) (by decide)
    · exact absurd hpending hold

theorem after (h : c.Joined c') {t : Template} (ht : t ∈ c.templates) :
    ∃ t' ∈ c'.templates, t'.stage = t.stage := by
  obtain ⟨more, hmore, -⟩ := h.stages
  have hm : t.stage ∈ c'.templates.map Template.stage :=
    hmore ▸ List.mem_append_left _ (List.mem_map_of_mem ht)
  exact List.mem_map.1 hm

end Catalog.Joined

/-- the marked templates and the main template of the catalog stay -/
structure Catalog.SameMain (c c' : Catalog) : Prop where
  main : c'.main = c.main
  before : ∀ t' ∈ c'.templates, t'.isMain = true → ∃ t ∈ c.templates, t.place = t'.place
  after : ∀ t ∈ c.templates, ∃ t' ∈ c'.templates, t'.place = t.place

namespace Catalog.SameMain
variable {c c' c'' : Catalog}

theorem of_places (hmain : c'.main = c.main)
    (hplaces : c'.templates.map Template.place = c.templates.map Template.place) :
    c.SameMain c' := by
  refine ⟨hmain, fun t' ht' _ => ?_, fun t ht => ?_⟩
  · exact List.mem_map.1 (hplaces ▸ List.mem_map_of_mem ht')
  · exact List.mem_map.1 (hplaces ▸ List.mem_map_of_mem ht)

theorem refl (c : Catalog) : c.SameMain c := of_places rfl rfl

theorem trans (h : c.SameMain c') (h' : c'.SameMain c'') : c.SameMain c'' := by
  refine ⟨h'.main.trans h.main, fun t'' ht'' hmarked => ?_, fun t ht => ?_⟩
  · obtain ⟨t', ht', hp'⟩ := h'.before t'' ht'' hmarked
    obtain ⟨t, ht, hp⟩ := h.before t' ht' ((congrArg (·.2.2) hp').trans hmarked)
    exact ⟨t, ht, hp.trans hp'⟩
  · obtain ⟨t', ht', hp⟩ := h.after t ht
    obtain ⟨t'', ht'', hp'⟩ := h'.after t' ht'
    exact ⟨t'', ht'', hp'.trans hp⟩

theorem of_joined (h : c.Joined c') : c.SameMain c' := by
  refine ⟨h.main, fun t' ht' hmarked => ?_, fun t ht => ?_⟩
  · obtain ⟨t, ht, hstage⟩ := h.before ht' (.inl hmarked)
    exact ⟨t, ht, (Prod.mk.inj hstage).1⟩
  · obtain ⟨t', ht', hstage⟩ := h.after ht
    exact ⟨t', ht', (Prod.mk.inj hstage).1⟩

end Catalog.SameMain

namespace Session
open Declarations (Move Moves)
open Catalog (Joined SameMain)

/-! ## calls that do not settle the main template -/

theorem registerTemplate_joined (s : Session) (l : Location) (usedFrom : Text) :
    s.catalog.Joined (s.registerTemplate l usedFrom false).2.catalog := by
  unfold registerTemplate
  split
  · exact .modifyTemplate s.catalog _ _ (fun _ => rfl)
  · refine ⟨rfl, [((s.catalog.templates.length, l, false), .pending)], ?_, ?_⟩
    · exact List.map_append
    · exact List.forall_mem_singleton.2 ⟨rfl, rfl⟩

theorem useTemplate_joined (s : Session) (reference : Text) (origin : Location) :
    s.catalog.Joined (s.useTemplate reference origin).2.catalog :=
  registerTemplate_joined (s.note _) _ _

theorem Sheetwise.joined {s s' : Session} (h : Sheetwise s s') : s.catalog.Joined s'.catalog :=
  .of_stages h.main (congrArg (List.map Template.stage) h.templates)

/-- once there is a main template, or for a call for anything else -/
theorem call_joined (env : Env) (s : Session) (c : Call)
    (h : (∀ l, c ≠ .main l) ∨ s.catalog.main.isSome) :
    s.catalog.Joined (s.call env c).catalog := by
  cases c with
  | main l =>
    rcases h with h | h
    · exact absurd rfl (h l)
    · obtain ⟨id, hid⟩ := Option.isSome_iff_exists.1 h
      show s.catalog.Joined (s.useMain l).2.catalog
      unfold useMain
      dsimp only [note]
      rw [hid]
      exact .refl s.catalog
  | template reference origin => exact useTemplate_joined s reference origin
  | sheet url origin => exact (Sheetwise.importSheet s url origin).joined
  | inline source origin fromComponent => exact (Sheetwise.inlineSheet env s source origin _).joined

/-! ## jobs -/

theorem move_joined {env : Env} {o : Origin} {s s' : Session} (m : Move env o s s') :
    s.catalog.Joined s'.catalog := by
  -- a change of the template at hand
  have change (f : Template → Template) (hf : ∀ t, (f t).stage = t.stage) :
      s.catalog.Joined (s.catalog.modifyTemplate o.template f) :=
    .modifyTemplate s.catalog o.template f hf
  cases m with
  | report p => exact .of_stages rfl rfl
  | declare name params =>
    refine .of_stages rfl ?_
    exact map_modify_of_eq Template.stage
      (fun t => { t with tags := t.tags.insert name s.catalog.components.length }) (fun _ => rfl)
      s.catalog.templates o.template
  | body id body => exact .of_stages rfl rfl
  | useTemplate reference => exact useTemplate_joined s reference o.location
  | importSheet url => exact (Sheetwise.importSheet s url o.location).joined
  | inlineSheet source => exact (Sheetwise.inlineSheet env s source o.location _).joined
  | fileImport id => exact change _ (fun _ => rfl)
  | componentImport owner id => exact .of_stages rfl rfl
  | sheet id => exact change _ (fun _ => rfl)
  | fileLink link => exact change _ (fun _ => rfl)
  | componentLink owner link => exact .of_stages rfl rfl
  | testData l => exact change _ (fun _ => rfl)
  | host h id => exact change _ (fun t => by cases h <;> rfl)

theorem moves_joined {env : Env} {o : Origin} {s s' : Session} (m : Moves env o s s') :
    s.catalog.Joined s'.catalog := by
  induction m with
  | refl => exact .refl s.catalog
  | tail _ m ih => exact ih.trans (move_joined m)

/-- the session in which the tree of a template is walked -/
def entered (s : Session) (t : Template) : Session :=
  { s with reads := s.reads ++ [t.location] }.mapCatalog
    (·.modifyTemplate t.id fun t => { t with status := .loaded })

theorem entered_template {s : Session} {t : Template}
    (ht : s.catalog.templates[t.id]? = some t) :
    (s.entered t).catalog.templates[t.id]? = some { t with status := .loaded } := by
  show (s.catalog.templates.modify _ _)[t.id]? = _
  rw [List.getElem?_modify_eq, ht]
  rfl

theorem loadTemplate_sameMain (env : Env) (s : Session) (t : Template) :
    s.catalog.SameMain (s.loadTemplate env t).catalog := by
  have mark (status : Status) :
      s.catalog.SameMain (s.catalog.modifyTemplate t.id fun t => { t with status }) :=
    .of_places rfl (map_modify_of_eq Template.place (fun t => { t with status }) (fun _ => rfl) _ _)
  unfold loadTemplate
  dsimp only
  split
  · exact (mark .failed).trans (.of_places rfl rfl)
  · next fragment _ =>
    have hmoves := moves_joined (Declarations.discover_moves env ⟨t.id, t.location, t.isMain⟩
      fragment (s.entered t))
    exact (mark .loaded).trans (.of_joined hmoves)

theorem step_sameMain (env : Env) {s s' : Session} (hstep : s.step env = some s') :
    s.catalog.SameMain s'.catalog := by
  unfold step at hstep
  split at hstep
  · cases hstep
  · next job queue _ =>
    obtain rfl := Option.some.inj hstep
    cases job with
    | template id =>
      unfold perform
      dsimp only
      split
      · next t _ => exact loadTemplate_sameMain env { s with queue } t
      · exact .refl s.catalog
    | sheet id =>
      unfold perform
      dsimp only
      split
      · next sheet _ =>
        exact .of_joined (Sheetwise.loadSheet env { s with queue } sheet).joined
      · exact .refl s.catalog

theorem run_sameMain (env : Env) (fuel : Nat) {s s' : Session} (hrun : s.run env fuel = some s') :
    s.catalog.SameMain s'.catalog :=
  run_induction (s.catalog.SameMain ·.catalog)
    (fun _ _ hstep h => h.trans (step_sameMain env hstep)) hrun (.refl s.catalog)

/-! ## preparations -/

/-- calls that follow a main template, or are for anything else -/
theorem calls_joined (env : Env) (cs : List Call) (s : Session)
    (h : (∀ l, Call.main l ∉ cs) ∨ s.catalog.main.isSome) :
    s.catalog.Joined (cs.foldl (call env) s).catalog := by
  induction cs generalizing s with
  | nil => exact .refl s.catalog
  | cons c cs ih =>
    have hfirst : s.catalog.Joined (s.call env c).catalog := by
      apply call_joined
      rcases h with h | h
      · exact .inl fun l hl => h l (hl ▸ List.mem_cons_self)
      · exact .inr h
    refine hfirst.trans (ih (s.call env c) ?_)
    rcases h with h | h
    · exact .inl fun l hl => h l (List.mem_cons_of_mem c hl)
    · exact .inr (hfirst.main ▸ h)

theorem prepared_joined (env : Env) (siteRoot : Path) (lints : Bool) (cs : List Call)
    (h : ∀ l, Call.main l ∉ cs) :
    (start siteRoot lints).catalog.Joined (prepared env siteRoot lints cs).catalog :=
  calls_joined env cs (start siteRoot lints) (.inl h)

theorem mem_locations_registerTemplate (s : Session) (l l' : Location) (usedFrom : Text)
    (isMain : Bool) :
    l' ∈ (s.registerTemplate l usedFrom isMain).2.catalog.templates.map Template.location ↔
      l' ∈ s.catalog.templates.map Template.location ∨ l' = l := by
  unfold registerTemplate
  cases h : s.catalog.template? l with
  | some t =>
    obtain ⟨ht, hl⟩ := Catalog.template?_eq_some h
    show l' ∈ (s.catalog.templates.modify t.id _).map Template.location ↔ _
    rw [map_modify_of_eq Template.location (Template.mention usedFrom) (fun _ => rfl)]
    refine ⟨.inl, ?_⟩
    rintro (hm | rfl)
    · exact hm
    · exact List.mem_map.2 ⟨t, ht, hl⟩
  | none =>
    show l' ∈ (s.catalog.templates ++ [_]).map Template.location ↔ _
    rw [List.map_append, List.mem_append]
    exact or_congr_right List.mem_singleton

/-- calls other than those for a main template register what the calls for templates name -/
theorem mem_locations_prepared (env : Env) (siteRoot : Path) (lints : Bool) (cs : List Call)
    (h : ∀ l, Call.main l ∉ cs) (l : Location) :
    l ∈ (prepared env siteRoot lints cs).catalog.templates.map Template.location ↔
      ∃ reference origin, Call.template reference origin ∈ cs ∧
        origin.resolvePath reference = l := by
  induction cs using List.reverseRecOn with
  | nil =>
    constructor
    · exact fun hl => absurd hl List.not_mem_nil
    · rintro ⟨_, _, hc, _⟩
      exact absurd hc List.not_mem_nil
  | append_singleton cs c ih =>
    have hold := ih fun l hl => h l (List.mem_append_left _ hl)
    -- a call for anything but a template adds to neither side
    have quiet (hc : ∀ reference origin, c ≠ .template reference origin)
        (ht : ((prepared env siteRoot lints cs).call env c).catalog.templates
          = (prepared env siteRoot lints cs).catalog.templates) :
        l ∈ (prepared env siteRoot lints (cs ++ [c])).catalog.templates.map Template.location ↔
          ∃ reference origin, Call.template reference origin ∈ cs ++ [c] ∧
            origin.resolvePath reference = l := by
      rw [prepared_concat, ht, hold]
      constructor
      · rintro ⟨reference, origin, hm, hl⟩
        exact ⟨reference, origin, List.mem_append_left _ hm, hl⟩
      · rintro ⟨reference, origin, hm, hl⟩
        rcases List.mem_append.1 hm with hm | hm
        · exact ⟨reference, origin, hm, hl⟩
        · exact absurd (List.mem_singleton.1 hm).symm (hc reference origin)
    cases c with
    | main l' => exact absurd (List.mem_append_right _ List.mem_cons_self) (h l')
    | sheet url origin =>
      exact quiet (fun _ _ => Call.noConfusion) (Sheetwise.importSheet _ url origin).templates
    | inline source origin fromComponent =>
      exact quiet (fun _ _ => Call.noConfusion)
        (Sheetwise.inlineSheet env _ source origin _).templates
    | template reference origin =>
      rw [prepared_concat]
      show l ∈ (registerTemplate _ _ _ _).2.catalog.templates.map Template.location ↔ _
      rw [mem_locations_registerTemplate]
      show l ∈ (prepared env siteRoot lints cs).catalog.templates.map Template.location ∨ _ ↔ _
      rw [hold]
      constructor
      · rintro (⟨reference', origin', hm, hl⟩ | rfl)
        · exact ⟨reference', origin', List.mem_append_left _ hm, hl⟩
        · exact ⟨reference, origin, List.mem_append_right _ List.mem_cons_self, rfl⟩
      · rintro ⟨reference', origin', hm, hl⟩
        rcases List.mem_append.1 hm with hm | hm
        · exact .inl ⟨reference', origin', hm, hl⟩
        · obtain ⟨rfl, rfl⟩ := Call.template.inj (List.mem_singleton.1 hm)
          exact .inr hl.symm

/-! ## the call that settles the main template -/

/-- the first call for a main template marks the template that it registers; a template that is
registered already is only pointed to -/
theorem useMain_marks {s : Session} (hnone : s.catalog.main = none)
    (hunmarked : ∀ t ∈ s.catalog.templates, t.isMain = false) (l : Location) :
    ∃ t ∈ (s.useMain l).2.catalog.templates, (s.useMain l).2.catalog.main = some t.id ∧
      t.location = l ∧ (t.isMain = true ↔ l ∉ s.catalog.templates.map Template.location) ∧
      ∀ t' ∈ (s.useMain l).2.catalog.templates, t'.isMain = true → t' = t := by
  unfold useMain
  dsimp only [note]
  rw [hnone]
  unfold registerTemplate
  dsimp only
  cases hfind : s.catalog.template? l with
  | some t =>
    obtain ⟨ht, hl⟩ := Catalog.template?_eq_some hfind
    have hplaces : (s.catalog.templates.modify t.id (Template.mention "<entry>".toList)).map
        Template.place = s.catalog.templates.map Template.place :=
      map_modify_of_eq Template.place (Template.mention _) (fun _ => rfl) _ _
    -- nothing that is registered is marked, before or afterwards
    have hstill (t' : Template)
        (ht' : t' ∈ s.catalog.templates.modify t.id (Template.mention "<entry>".toList)) :
        t'.isMain = false := by
      obtain ⟨b, hb, hp⟩ := List.mem_map.1 (hplaces ▸ List.mem_map_of_mem ht')
      exact (congrArg (·.2.2) hp).symm.trans (hunmarked b hb)
    obtain ⟨t', ht', hp⟩ := List.mem_map.1 (hplaces.symm ▸ List.mem_map_of_mem ht)
    refine ⟨t', ht', congrArg some (congrArg (·.1) hp).symm, (congrArg (·.2.1) hp).trans hl, ?_, ?_⟩
    · rw [hstill t' ht']
      exact ⟨Bool.noConfusion, fun h => absurd (List.mem_map.2 ⟨t, ht, hl⟩) h⟩
    · intro t'' ht'' hmarked
      rw [hstill t'' ht''] at hmarked
      cases hmarked
  | none =>
    refine ⟨.register s.catalog.templates.length l "<entry>".toList true,
      List.mem_append_right _ List.mem_cons_self, rfl, rfl, ⟨fun _ hm => ?_, fun _ => rfl⟩, ?_⟩
    · obtain ⟨t, ht, hl⟩ := List.mem_map.1 hm
      exact absurd (decide_eq_true hl) (List.find?_eq_none.1 hfind t ht)
    · intro t' ht' hmarked
      rcases List.mem_append.1 ht' with ht' | ht'
      · rw [hunmarked t' ht'] at hmarked
        cases hmarked
      · exact List.mem_singleton.1 ht'

/-! ## runs -/

/-- **The main template.**  Whatever is read and called for, the catalog of a finished run points to
the template of the first call for a main one.  That template is marked, and no other is, unless
a template was called for at its location before; in that case no template is marked. -/
theorem run_main (env : Env) (siteRoot : Path) (lints : Bool) (before after : List Call)
    (l : Location) (first : ∀ l', Call.main l' ∉ before) (fuel : Nat) (s : Session)
    (hrun : (prepared env siteRoot lints (before ++ .main l :: after)).run env fuel = some s) :
    ∃ t, s.catalog.main = some t.id ∧ s.catalog.templates[t.id]? = some t ∧ t.location = l ∧
      ∀ t' ∈ s.catalog.templates, t'.isMain = true ↔
        t' = t ∧ ∀ reference origin, Call.template reference origin ∈ before →
          origin.resolvePath reference ≠ l := by
  have hids : Numbered Template.id s.catalog.templates :=
    (run_sound env fuel hrun (prepared_sound env siteRoot lints _)).catalog.templates
  have hbefore := prepared_joined env siteRoot lints before first
  have hnone : (prepared env siteRoot lints before).catalog.main = none := hbefore.main
  have hunmarked (t : Template) (ht : t ∈ (prepared env siteRoot lints before).catalog.templates) :
      t.isMain = false := by
    cases hmarked : t.isMain with
    | false => rfl
    | true =>
      obtain ⟨_, hnil, -⟩ := hbefore.before ht (.inl hmarked)
      exact absurd hnil List.not_mem_nil
  obtain ⟨t₀, ht₀, hmain, hl, hmarked, honly⟩ := useMain_marks hnone hunmarked l
  -- from that call on nothing changes of this
  have hafter :
      ((prepared env siteRoot lints before).useMain l).2.catalog.SameMain s.catalog := by
    refine .trans (.of_joined ?_) (run_sameMain env fuel hrun)
    have hsplit : prepared env siteRoot lints (before ++ .main l :: after)
        = after.foldl (call env) ((prepared env siteRoot lints before).useMain l).2 := by
      unfold prepared
      rw [List.foldl_append]
      rfl
    rw [hsplit]
    exact calls_joined env after _ (.inr (hmain ▸ rfl))
  obtain ⟨t, ht, hp⟩ := hafter.after t₀ ht₀
  obtain ⟨hid, hrest⟩ := Prod.mk.inj hp
  obtain ⟨hlocation, hsame⟩ := Prod.mk.inj hrest
  have hnew : t.isMain = true ↔ ∀ reference origin, Call.template reference origin ∈ before →
      origin.resolvePath reference ≠ l := by
    rw [hsame, hmarked, mem_locations_prepared env siteRoot lints before first]
    exact ⟨fun h reference origin hc hl => h ⟨reference, origin, hc, hl⟩,
      fun h ⟨reference, origin, hc, hl⟩ => h reference origin hc hl⟩
  refine ⟨t, ?_, hids.getElem?_of_mem ht, hlocation.trans hl, ?_⟩
  · rw [hafter.main, hmain, hid]
  · intro t' ht'
    rw [← hnew]
    constructor
    · intro hmarked'
      obtain ⟨t₁, ht₁, hp'⟩ := hafter.before t' ht' hmarked'
      have hfirst : t₁ = t₀ := honly t₁ ht₁ ((congrArg (·.2.2) hp').trans hmarked')
      have heq : t' = t :=
        hids.eq_of_mem ht' ht ((congrArg (·.1) hp').symm.trans (hfirst ▸ hid.symm))
      exact ⟨heq, heq ▸ hmarked'⟩
    · rintro ⟨rfl, hyes⟩
      exact hyes

/-- every file is empty -/
def blank : Env where
  read _ := .ok []
  parseMarkup _ _ := .ok ⟨[], true⟩
  parseCss _ _ := ⟨[], .ok (.sheet [])⟩

/-- a template that is called for afterwards is not marked, nor is a second main one -/
theorem run_main_blank : ∃ s,
    (prepared blank ⟨true, []⟩ true ([.template "b".toList (.remote "x/c".toList)]
      ++ .main (.remote "x/a".toList)
      :: [.template "a".toList (.remote "x/c".toList), .main (.remote "x/b".toList)])).run
        blank 2 = some s ∧
    (∃ t, s.catalog.main = some t.id ∧ s.catalog.templates[t.id]? = some t ∧
      t.location = .remote "x/a".toList ∧
      ∀ t' ∈ s.catalog.templates, t'.isMain = true ↔
        t' = t ∧ ∀ reference origin,
          Call.template reference origin ∈ [Call.template "b".toList (.remote "x/c".toList)] →
            origin.resolvePath reference ≠ .remote "x/a".toList) ∧
    s.catalog.templates.map Template.isMain = [false, true] := by
  have hmarks : ((prepared blank ⟨true, []⟩ true ([.template "b".toList (.remote "x/c".toList)]
      ++ .main (.remote "x/a".toList)
      :: [.template "a".toList (.remote "x/c".toList), .main (.remote "x/b".toList)])).run
        blank 2).map (fun s => s.catalog.templates.map Template.isMain)
      = some [false, true] := by decide
  obtain ⟨s, hrun, hs⟩ := Option.map_eq_some_iff.1 hmarks
  refine ⟨s, hrun, run_main _ _ _ _ _ _ ?_ _ s hrun, hs⟩
  intro l' hl'
  cases List.mem_singleton.1 hl'

/-- a template that is called for before is pointed to and stays unmarked -/
theorem run_main_registered : ∃ s,
    (prepared blank ⟨true, []⟩ true [.template "a".toList (.remote "x/c".toList),
      .main (.remote "x/a".toList)]).run blank 1 = some s ∧
    s.catalog.main = some 0 ∧ s.catalog.templates.map Template.isMain = [false] := by
  have hmarks : ((prepared blank ⟨true, []⟩ true [.template "a".toList (.remote "x/c".toList),
      .main (.remote "x/a".toList)]).run blank 1).map
        (fun s => (s.catalog.main, s.catalog.templates.map Template.isMain))
      = some (some 0, [false]) := by decide
  obtain ⟨s, hrun, hs⟩ := Option.map_eq_some_iff.1 hmarks
  obtain ⟨hmain, hmarked⟩ := Prod.mk.inj hs
  exact ⟨s, hrun, hmain, hmarked⟩

end Session

end PageTemplates
