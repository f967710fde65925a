import PageTemplates.Program
import PageTemplates.Proofs.MainTemplate
import PageTemplates.Proofs.Quiet

/-!
# Where hosts stand

A sheet becomes a host as soon as its `style` element is met, and the element is put into a body
only when the declaration around it is finished.  Nothing gets lost on the way: a declaration that
is refused is not walked, and what a walk has met it either hands on to the declaration around or
stands at the top level of the file.

* `Session.Held`              some body holds a style with a sheet;
* `Declarations.fileSheets`   the sheets of the styles outside of all elements of a file;
* `Declarations.Sheltered`    what a part of a walk does to bodies and hosts;
* `Declarations.Sheltered.store`   a declaration from the walk through its body;
* `bodyNodes_sheltered`, `topNodes_sheltered`   walks;
* `Session.step_sheltered`    jobs, once the main template has been read;
* `Compiler.load_hosts`       the hosts of a loaded project.
-/

namespace PageTemplates

/-- some body holds a style with the sheet -/
def Session.Held (s : Session) (id : SheetId) : Prop :=
  ∃ body ∈ s.catalog.components.map Component.body, id ∈ BodyNode.stylesOf body

namespace Declarations

mutual
/-- the sheets of the styles at the top level that a node stands for, in the session in which it
is walked -/
def topSheet (env : Env) (o : Origin) : Html.Node → Session → List SheetId
  | .fragment children _, s => topSheets env o children s
  | .text _, _ => []
  | .element name attributes children, s =>
    match Role.ofName name with
    | .style => BodyNode.stylesOf (style env o attributes children s).1
    | _ => []
def topSheets (env : Env) (o : Origin) : List Html.Node → Session → List SheetId
  | [], _ => []
  | n :: ns, s => topSheet env o n s ++ topSheets env o ns (topNode env o n s)
end

/-- the sheets of the styles outside of all elements of a file -/
def fileSheets (env : Env) (o : Origin) (f : Html.Fragment) (s : Session) : List SheetId :=
  topSheets env o f.children
    (if o.isMain && !f.hasDoctype then report o .missingDoctype s else s)

/-- what a part of a walk does that hands on the styles of `ids`: bodies stay, and a sheet that has
become a host is in a body or handed on; in a template that is not the main one no sheet does -/
structure Sheltered (isMain : Bool) (ids : List SheetId) (s s' : Session) : Prop where
  bodies : s.catalog.components.map Component.body <+: s'.catalog.components.map Component.body
  hosts : ∀ h id, s'.Hosted h id → s.Hosted h id ∨ isMain = true ∧ (id ∈ ids ∨ s'.Held id)

namespace Sheltered
variable {isMain : Bool} {ids ids' : List SheetId} {s s' s'' : Session}

theorem held (h : Sheltered isMain ids s s') {id : SheetId} (hid : s.Held id) : s'.Held id := by
  obtain ⟨body, hbody, hid⟩ := hid
  exact ⟨body, h.bodies.subset hbody, hid⟩

theorem of_calm (h : Calm s s') (isMain : Bool) (ids : List SheetId) : Sheltered isMain ids s s' :=
  ⟨h.bodies ▸ List.prefix_refl _, fun host id hid => .inl (h.hosts host id hid)⟩

theorem refl (isMain : Bool) (s : Session) : Sheltered isMain [] s s := of_calm (.refl s) isMain []

theorem trans (h : Sheltered isMain ids s s') (h' : Sheltered isMain ids' s' s'') :
    Sheltered isMain (ids ++ ids') s s'' := by
  refine ⟨h.bodies.trans h'.bodies, fun host id hid => ?_⟩
  rcases h'.hosts host id hid with hid | ⟨hmain, hid | hid⟩
  · rcases h.hosts host id hid with hid | ⟨hmain, hid | hid⟩
    · exact .inl hid
    · exact .inr ⟨hmain, .inl (List.mem_append_left _ hid)⟩
    · exact .inr ⟨hmain, .inr (h'.held hid)⟩
  · exact .inr ⟨hmain, .inl (List.mem_append_right _ hid)⟩
  · exact .inr ⟨hmain, .inr hid⟩

end Sheltered

section
variable {o : Origin}

/-! ## styles -/

theorem markHost_sheltered (o : Origin) (sheet : SheetId) (h : Host) (s : Session) :
    Sheltered o.isMain [sheet] s (markHost o sheet h s) := by
  unfold markHost
  split
  · exact .of_calm (Still.report o _ s).toCalm _ _
  · next hmain =>
    have hmain : o.isMain = true := by rwa [Bool.not_eq_true', Bool.not_eq_false] at hmain
    split
    · exact .of_calm (.refl s) _ _
    · split
      · exact .of_calm (Still.report o _ s).toCalm _ _
      · refine ⟨List.prefix_refl _, ?_⟩
        rintro host id ⟨t', ht', hid⟩
        rcases mem_modify ht' with ht' | ⟨t, ht, rfl⟩
        · exact .inl ⟨t', ht', hid⟩
        · rw [host?_setHost] at hid
          split at hid
          · exact .inr ⟨hmain, .inl (List.mem_singleton.2 (Option.some.inj hid).symm)⟩
          · exact .inl ⟨t, ht, hid⟩

theorem markHosts_sheltered (o : Origin) (attributes : Attributes) (sheet : SheetId)
    (hosts : List Host) (s : Session) :
    Sheltered o.isMain [sheet] s (markHosts o attributes sheet hosts s) := by
  unfold markHosts
  induction hosts.filter (fun h => attributes.contains h.marker) generalizing s with
  | nil => exact .of_calm (.refl s) _ _
  | cons h hosts ih =>
    have hboth := (markHost_sheltered o sheet h s).trans (ih (markHost o sheet h s))
    refine ⟨hboth.bodies, fun host id hid => ?_⟩
    rcases hboth.hosts host id hid with hid | ⟨hmain, hid | hid⟩
    · exact .inl hid
    · exact .inr ⟨hmain, .inl (List.mem_append.1 hid |>.elim (·) (·))⟩
    · exact .inr ⟨hmain, .inr hid⟩

/-- a style hands on its own sheet -/
theorem style_sheltered (env : Env) (o : Origin) (attributes : Attributes)
    (children : List Html.Node) (s : Session) :
    Sheltered o.isMain (BodyNode.stylesOf (style env o attributes children s).1) s
      (style env o attributes children s).2 := by
  unfold style
  split
  · exact .of_calm (Still.report o _ s).toCalm _ _
  · next source _ =>
    exact (Sheltered.of_calm (Still.inlinedSheet env o source s).toCalm o.isMain []).trans
      (markHosts_sheltered o attributes _ _ _)

/-! ## declarations -/

/-- a body that is stored in a new component holds what the walk through it has handed on -/
theorem Sheltered.store {isMain : Bool} {s s' s'' : Session} {body : List BodyNode}
    (h : Sheltered isMain (BodyNode.stylesOf body) s' s'')
    (hnew : s'.catalog.components.map Component.body
      = s.catalog.components.map Component.body ++ [[]])
    (hhosts : ∀ host id, s'.Hosted host id → s.Hosted host id) :
    Sheltered isMain [] s (s''.mapCatalog (·.modifyComponent s.catalog.components.length
      fun c => { c with body })) := by
  obtain ⟨more, hmore⟩ := h.bodies
  rw [hnew] at hmore
  have hplace : s.catalog.components.length
      < (s.catalog.components.map Component.body ++ [[]]).length := by
    rw [List.length_append, List.length_map]
    exact Nat.lt_succ_self _
  have hlast := modify_concat (fun _ => body) (s.catalog.components.map Component.body) []
  rw [List.length_map] at hlast
  have hbodies : (s''.catalog.components.modify s.catalog.components.length
      fun c => { c with body }).map Component.body
      = s.catalog.components.map Component.body ++ [body] ++ more := by
    rw [map_modify Component.body _ (fun _ => body) (fun _ => rfl), ← hmore,
      modify_append_of_lt _ hplace, hlast]
  refine ⟨?_, fun host id hid => ?_⟩
  · show _ <+: List.map _ (List.modify _ _ _)
    rw [hbodies, List.append_assoc]
    exact List.prefix_append _ _
  · rcases h.hosts host id hid with hid | ⟨hmain, hid⟩
    · exact .inl (hhosts host id hid)
    · refine .inr ⟨hmain, .inr ?_⟩
      show ∃ b ∈ List.map _ (List.modify _ _ _), id ∈ BodyNode.stylesOf b
      rw [hbodies]
      rcases hid with hid | ⟨b, hb, hid⟩
      · exact ⟨body, List.mem_append_left _ (List.mem_append_right _ List.mem_cons_self), hid⟩
      · rw [← hmore] at hb
        refine ⟨b, ?_, hid⟩
        rcases List.mem_append.1 hb with hb | hb
        · rcases List.mem_append.1 hb with hb | hb
          · exact List.mem_append_left _ (List.mem_append_left _ hb)
          · rw [List.mem_singleton.1 hb] at hid
            exact absurd hid List.not_mem_nil
        · exact List.mem_append_right _ hb

/-- a declaration hands on nothing; if it is refused, nothing in it has been met -/
theorem declareBody_sheltered {walk : ComponentId → Session → List BodyNode × Session}
    (hw : ∀ id s, Sheltered o.isMain (BodyNode.stylesOf (walk id s).1) s (walk id s).2)
    (name : Text) (params : Attributes) (s : Session) :
    Sheltered o.isMain [] s (declareBody o name params walk s) := by
  unfold declareBody declare
  dsimp only
  cases s.catalog.templates[o.template]? with
  | none => exact .refl o.isMain s
  | some t =>
    dsimp only
    by_cases hname : t.tags.contains (Text.lower name) = true
    · rw [if_pos hname]
      exact .of_calm (Still.report o _ s).toCalm _ _
    · rw [if_neg hname]
      refine (hw s.catalog.components.length (declared o (Text.lower name) params s)).store
        List.map_append ?_
      rintro host id ⟨t', ht', hid⟩
      rcases mem_modify ht' with ht' | ⟨b, hb, rfl⟩
      · exact ⟨t', ht', hid⟩
      · exact ⟨b, hb, by cases host <;> exact hid⟩

theorem component_sheltered {walk : ComponentId → Session → List BodyNode × Session}
    (hw : ∀ id s, Sheltered o.isMain (BodyNode.stylesOf (walk id s).1) s (walk id s).2)
    (attributes : Attributes) (s : Session) :
    Sheltered o.isMain [] s (component o attributes walk s) := by
  unfold component
  split
  · exact .of_calm (Still.report o _ s).toCalm _ _
  · exact declareBody_sheltered hw _ _ s

/-! ## walks -/

mutual
/-- a node of a body hands on the styles that it leaves in the body -/
theorem bodyNode_sheltered (env : Env) (o : Origin) (owner : ComponentId) (n : Html.Node)
    (s : Session) :
    Sheltered o.isMain (BodyNode.stylesOf (bodyNode env o owner n s).1) s
      (bodyNode env o owner n s).2 := by
  cases n with
  | text run =>
    rw [bodyNode]
    exact .of_calm (.refl s) _ _
  | fragment children _ =>
    rw [bodyNode]
    exact bodyNodes_sheltered env o owner children s
  | element name attributes children =>
    -- an element that stays, behind what has happened before it
    have hkept {s' : Session} (h : Calm s s') :
        Sheltered o.isMain (BodyNode.stylesOf [.element name attributes
          (bodyNodes env o owner children s').1]) s (bodyNodes env o owner children s').2 := by
      have hstyles : BodyNode.stylesOf [.element name attributes
          (bodyNodes env o owner children s').1]
          = BodyNode.stylesOf (bodyNodes env o owner children s').1 := List.append_nil _
      rw [hstyles]
      exact (Sheltered.of_calm h o.isMain []).trans (bodyNodes_sheltered env o owner children s')
    rw [bodyNode]
    cases Role.ofName name with
    | importing => exact .of_calm (Still.importTemplate o attributes (some owner) s).toCalm _ _
    | style => exact style_sheltered env o attributes children s
    | page => exact hkept (.refl s)
    | other => exact hkept (.refl s)
    | component =>
      exact component_sheltered (fun id s => bodyNodes_sheltered env o id children s) attributes s
    | link =>
      have hlink := Calm.link o attributes (some owner) s
      dsimp only
      cases hfate : link o attributes (some owner) s with
      | mk fate s' =>
        rw [hfate] at hlink
        cases fate with
        | gone => exact .of_calm hlink _ _
        | inlined sheet more => exact .of_calm hlink _ _
        | kept => exact hkept hlink
theorem bodyNodes_sheltered (env : Env) (o : Origin) (owner : ComponentId) (ns : List Html.Node)
    (s : Session) :
    Sheltered o.isMain (BodyNode.stylesOf (bodyNodes env o owner ns s).1) s
      (bodyNodes env o owner ns s).2 := by
  cases ns with
  | nil =>
    rw [bodyNodes]
    exact .of_calm (.refl s) _ _
  | cons n ns =>
    rw [bodyNodes, BodyNode.stylesOf_append]
    exact (bodyNode_sheltered env o owner n s).trans (bodyNodes_sheltered env o owner ns _)
end

/-- an element at the top level hands on nothing but a style -/
theorem topElement_sheltered (env : Env) (o : Origin) (name : Text) (attributes : Attributes)
    (children : List Html.Node) (s : Session) :
    Sheltered o.isMain (topSheet env o (.element name attributes children) s) s
      (topElement env o name attributes children s) := by
  unfold topElement
  rw [topSheet]
  cases Role.ofName name with
  | importing => exact .of_calm (Still.importTemplate o attributes none s).toCalm _ _
  | style => exact style_sheltered env o attributes children s
  | link => exact .of_calm (Calm.link o attributes none s) _ _
  | component =>
    exact component_sheltered (fun id s => bodyNodes_sheltered env o id children s) attributes s
  | page =>
    dsimp only
    split
    · exact .of_calm (Still.report o _ s).toCalm _ _
    · refine declareBody_sheltered (fun id s => ?_) name .empty s
      have hstyles : BodyNode.stylesOf [.element name attributes
          (bodyNodes env o id children s).1]
          = BodyNode.stylesOf (bodyNodes env o id children s).1 := List.append_nil _
      dsimp only
      rw [hstyles]
      exact bodyNodes_sheltered env o id children s
  | other =>
    have hreport : Calm s
        (if Html.isStandard name then report o (.shadowsElement name) s else s) := by
      split
      · exact (Still.report o _ s).toCalm
      · exact .refl s
    exact (Sheltered.of_calm hreport o.isMain []).trans (declareBody_sheltered
      (fun id s => bodyNodes_sheltered env o id children s) name attributes _)

mutual
theorem topNode_sheltered (env : Env) (o : Origin) (n : Html.Node) (s : Session) :
    Sheltered o.isMain (topSheet env o n s) s (topNode env o n s) := by
  cases n with
  | text run =>
    rw [topNode]
    split
    · exact .of_calm (.refl s) _ _
    · exact .of_calm (Still.report o _ s).toCalm _ _
  | fragment children _ =>
    rw [topNode, topSheet]
    exact topNodes_sheltered env o children s
  | element name attributes children =>
    rw [topNode]
    exact topElement_sheltered env o name attributes children s
theorem topNodes_sheltered (env : Env) (o : Origin) (ns : List Html.Node) (s : Session) :
    Sheltered o.isMain (topSheets env o ns s) s (topNodes env o ns s) := by
  cases ns with
  | nil =>
    rw [topNodes, topSheets]
    exact .refl o.isMain s
  | cons n ns =>
    rw [topNodes, topSheets]
    exact (topNode_sheltered env o n s).trans (topNodes_sheltered env o ns _)
end

theorem discover_sheltered (env : Env) (o : Origin) (f : Html.Fragment) (s : Session) :
    Sheltered o.isMain (fileSheets env o f s) s (discover env o f s) := by
  unfold discover fileSheets
  dsimp only
  split
  · exact (Sheltered.of_calm (Still.report o _ s).toCalm o.isMain []).trans
      (topNodes_sheltered env o f.children _)
  · exact topNodes_sheltered env o f.children s

end

end Declarations

namespace Session
open Declarations (Sheltered fileSheets)
variable {env : Env} {s s' : Session}

/-! ## jobs -/

/-- the sheets of the styles outside of all elements of a template that is read next -/
def looseSheets (env : Env) (s : Session) (t : Template) : List SheetId :=
  match env.read t.location >>= fun source => env.parseMarkup source t.file with
  | .error _ => []
  | .ok f => fileSheets env ⟨t.id, t.location, t.isMain⟩ f (s.entered t)

theorem loadTemplate_sheltered (env : Env) (s : Session) (t : Template) :
    Sheltered t.isMain (s.looseSheets env t) s (s.loadTemplate env t) := by
  have mark (s : Session) (status : Status) :
      Declarations.Calm s (s.mapCatalog (·.modifyTemplate t.id fun t => { t with status })) :=
    .modifyTemplate s t.id (fun t => { t with status }) (fun _ h => by cases h <;> rfl)
  have hread : Declarations.Calm s { s with reads := s.reads ++ [t.location] } := .of_eq rfl rfl
  unfold loadTemplate looseSheets
  cases env.read t.location >>= fun source => env.parseMarkup source t.file with
  | error e =>
    have hfailed := hread.trans (mark { s with reads := s.reads ++ [t.location] } .failed)
    refine .of_calm ?_ t.isMain []
    exact ⟨hfailed.bodies, hfailed.hosts⟩
  | ok f =>
    exact (Sheltered.of_calm (hread.trans (mark _ .loaded)) t.isMain []).trans
      (Declarations.discover_sheltered env ⟨t.id, t.location, t.isMain⟩ f (s.entered t))

/-- no template that is marked as main is still to be read -/
def MainRead (s : Session) : Prop :=
  ∀ t ∈ s.catalog.templates, t.isMain = true → t.status ≠ .pending

theorem MainRead.of_joined (h : s.MainRead) (hj : s.catalog.Joined s'.catalog) : s'.MainRead := by
  intro t' ht' hmain
  obtain ⟨t, ht, hstage⟩ := hj.before ht' (.inl hmain)
  obtain ⟨hplace, hstatus⟩ := Prod.mk.inj hstage
  rw [← hstatus]
  exact h t ht ((congrArg (·.2.2) hplace).trans hmain)

/-- reading a template settles its own status, and no other marked template joins -/
theorem loadTemplate_mainRead {t : Template} (h : ∀ t' ∈ s.catalog.templates, t'.isMain = true →
    t'.id ≠ t.id → t'.status ≠ .pending)
    (hnumbered : Numbered Template.id s.catalog.templates) : (s.loadTemplate env t).MainRead := by
  have mark (s' : Session) (status : Status) (hstatus : status ≠ .pending)
      (hs : s'.catalog.templates = s.catalog.templates) :
      (s'.mapCatalog (·.modifyTemplate t.id fun t => { t with status })).MainRead := by
    intro t' ht' hmain
    obtain ⟨i, hi⟩ := List.mem_iff_getElem?.1 ht'
    obtain ⟨b, hb, ⟨-, rfl⟩ | ⟨hne, rfl⟩⟩ := getElem?_modify_eq_some hi
    · exact hstatus
    · rw [hs] at hb
      refine h t' (List.mem_of_getElem? hb) hmain fun he => hne ?_
      rw [← he, hnumbered i t' hb]
  unfold loadTemplate
  dsimp only
  split
  · exact mark { s with reads := s.reads ++ [t.location] } .failed Status.noConfusion rfl
  · next f _ =>
    have hmarked := mark { s with reads := s.reads ++ [t.location] } .loaded Status.noConfusion rfl
    exact hmarked.of_joined
      (moves_joined (Declarations.discover_moves env ⟨t.id, t.location, t.isMain⟩ f _))

/-- once the main template has been read, no job makes a sheet a host -/
theorem step_sheltered (hstep : s.step env = some s') (hsound : s.Sound) (h : s.MainRead) :
    Sheltered false [] s s' ∧ s'.MainRead := by
  have hqueue (queue : List Job) : Declarations.Calm s { s with queue } := .of_eq rfl rfl
  rcases step_cases hstep hsound with ⟨t, queue, -, ht, hstatus, rfl⟩ | ⟨sheet, queue, -, -, -, rfl⟩
  · have hother : t.isMain = false := by
      by_contra hmain
      exact h t (List.mem_of_getElem? ht) (eq_true_of_ne_false hmain) hstatus
    constructor
    · have hload := loadTemplate_sheltered env { s with queue } t
      rw [hother] at hload
      have hboth := (Sheltered.of_calm (hqueue queue) false []).trans hload
      exact ⟨hboth.bodies, fun host id hid =>
        .inl ((hboth.hosts host id hid).resolve_right fun he => Bool.false_ne_true he.1)⟩
    · exact loadTemplate_mainRead (fun t' ht' hmain _ => h t' ht' hmain) hsound.catalog.templates
  · have hsheet := Sheetwise.loadSheet env { s with queue } sheet
    have hload := (Declarations.Still.of_sheetwise hsheet).toCalm
    exact ⟨.of_calm ((hqueue queue).trans hload) false [],
      MainRead.of_joined (s := { s with queue }) h hsheet.joined⟩

theorem run_sheltered (fuel : Nat) (hrun : s.run env fuel = some s') (hsound : s.Sound)
    (h : s.MainRead) : Sheltered false [] s s' := by
  have hall : s'.Sound ∧ s'.MainRead ∧ Sheltered false [] s s' := by
    refine run_induction (fun s' => s'.Sound ∧ s'.MainRead ∧ Sheltered false [] s s') ?_ hrun
      ⟨hsound, h, .refl false s⟩
    rintro s₁ s₂ hstep ⟨hsound, h, hbefore⟩
    obtain ⟨hnext, hread⟩ := step_sheltered hstep hsound h
    exact ⟨step_sound env hstep hsound, hread, hbefore.trans hnext⟩
  exact hall.2.2

end Session

namespace Compiler

/-- the sheets of the styles that stand outside of all elements of the entry template -/
def looseSheets (c : Compiler) (entry : Path) : List SheetId :=
  let s := ((Session.start c.siteRoot c.lints).useMain (.ofPath entry)).2
  { s with queue := [] }.looseSheets c.env (.register 0 (.ofPath entry) "<entry>".toList true)

/-- a host of a loaded project stands in a body, or outside of all elements of the entry template -/
theorem load_hosts {c : Compiler} {fuel : Nat} {entry : Path} {s : Session}
    (hload : c.load fuel entry = some s) {h : Host} {id : SheetId} (hid : s.Hosted h id) :
    id ∈ c.looseSheets entry ∨ s.Held id := by
  -- the first job is the entry template, and it is the only one so far
  have hsound : ((Session.start c.siteRoot c.lints).useMain (.ofPath entry)).2.Sound :=
    Session.useMain_sound (Session.start_sound c.siteRoot c.lints) (.ofPath entry)
  unfold load at hload
  cases fuel with
  | zero => cases hload
  | succ fuel =>
    have hstep : ((Session.start c.siteRoot c.lints).useMain (.ofPath entry)).2.step c.env
        = some (Session.loadTemplate c.env
          { ((Session.start c.siteRoot c.lints).useMain (.ofPath entry)).2 with queue := [] }
          (.register 0 (.ofPath entry) "<entry>".toList true)) := rfl
    rw [Session.run, hstep] at hload
    have hfirst := Session.loadTemplate_sheltered c.env
      { ((Session.start c.siteRoot c.lints).useMain (.ofPath entry)).2 with queue := [] }
      (.register 0 (.ofPath entry) "<entry>".toList true)
    have hread : (Session.loadTemplate c.env
        { ((Session.start c.siteRoot c.lints).useMain (.ofPath entry)).2 with queue := [] }
        (.register 0 (.ofPath entry) "<entry>".toList true)).MainRead := by
      refine Session.loadTemplate_mainRead (fun t' ht' _ hne => ?_) hsound.catalog.templates
      obtain rfl := List.mem_singleton.1 ht'
      exact absurd rfl hne
    have hrest := Session.run_sheltered fuel hload (Session.step_sound c.env hstep hsound) hread
    rcases hrest.hosts h id hid with hid | ⟨hmain, -⟩
    · rcases hfirst.hosts h id hid with ⟨t, ht, hhost⟩ | ⟨-, hid | hid⟩
      · rw [List.mem_singleton.1 ht] at hhost
        cases h <;> cases hhost
      · exact .inl hid
      · exact .inr (hrest.held hid)
    · cases hmain

end Compiler

end PageTemplates
