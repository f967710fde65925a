import PageTemplates.Proofs.Numbered
import PageTemplates.Proofs.Sheetwise

/-!
# What a walk leaves alone

Most of what discovery does for an element changes nothing of the components.  Registering what an
element refers to leaves them as they are, apart from their imports; only a declaration, a link that
is hoisted and a host that is recorded leave more behind.

* `Component.outline`    what is looked at of a component apart from its body;
* `Declarations.Quiet`   outlines and names stay;
* `Declarations.Calm`    bodies stay, and no host is recorded;
* `Declarations.Still`   both.
-/

namespace PageTemplates

def Link.written (l : Link) : Text × Attributes := (l.href, l.attributes)

/-- what is looked at of a component: its template, its name and its links -/
structure Outline where
  template : TemplateId
  name : Text
  links : List (Text × Attributes)
deriving DecidableEq

def Component.outline (d : Component) : Outline := ⟨d.template, d.name, d.links.map Link.written⟩

/-- some template has the sheet for a host -/
def Session.Hosted (s : Session) (h : Host) (id : SheetId) : Prop :=
  ∃ t ∈ s.catalog.templates, t.host? h = some id

namespace Declarations
open Session

/-- neither the outlines nor the names change -/
structure Quiet (s s' : Session) : Prop where
  outlines :
    s'.catalog.components.map Component.outline = s.catalog.components.map Component.outline
  tags : s.catalog.templates.map Template.tags <+: s'.catalog.templates.map Template.tags

/-- no body changes, and no host is recorded -/
structure Calm (s s' : Session) : Prop where
  bodies : s'.catalog.components.map Component.body = s.catalog.components.map Component.body
  hosts : ∀ h id, s'.Hosted h id → s.Hosted h id

structure Still (s s' : Session) : Prop extends Quiet s s', Calm s s'

namespace Quiet
variable {s s' s'' : Session}

theorem of_eq (hd : s'.catalog.components = s.catalog.components)
    (ht : s'.catalog.templates = s.catalog.templates) : Quiet s s' :=
  ⟨congrArg _ hd, ht ▸ List.prefix_refl _⟩

theorem refl (s : Session) : Quiet s s := of_eq rfl rfl

theorem trans (h : Quiet s s') (h' : Quiet s' s'') : Quiet s s'' :=
  ⟨h'.outlines.trans h.outlines, h.tags.trans h'.tags⟩

theorem modifyTemplate (s : Session) (id : TemplateId) (f : Template → Template)
    (hf : ∀ t, (f t).tags = t.tags) : Quiet s (s.mapCatalog (·.modifyTemplate id f)) :=
  ⟨rfl, prefix_map_modify Template.tags f hf _ _⟩

end Quiet

namespace Calm
variable {s s' s'' : Session}

theorem of_eq (hd : s'.catalog.components = s.catalog.components)
    (ht : s'.catalog.templates = s.catalog.templates) : Calm s s' := by
  refine ⟨congrArg _ hd, fun h id hhost => ?_⟩
  unfold Hosted at hhost
  rwa [ht] at hhost

theorem refl (s : Session) : Calm s s := of_eq rfl rfl

theorem trans (h : Calm s s') (h' : Calm s' s'') : Calm s s'' :=
  ⟨h'.bodies.trans h.bodies, fun host id hhost => h.hosts host id (h'.hosts host id hhost)⟩

theorem modifyTemplate (s : Session) (id : TemplateId) (f : Template → Template)
    (hf : ∀ t h, (f t).host? h = t.host? h) :
    Calm s (s.mapCatalog (·.modifyTemplate id f)) := by
  refine ⟨rfl, ?_⟩
  rintro h sheet ⟨t, ht, hhost⟩
  rcases mem_modify ht with ht | ⟨b, hb, rfl⟩
  · exact ⟨t, ht, hhost⟩
  · exact ⟨b, hb, (hf b h).symm.trans hhost⟩

theorem modifyComponent (s : Session) (id : ComponentId) (f : Component → Component)
    (hf : ∀ d, (f d).body = d.body) : Calm s (s.mapCatalog (·.modifyComponent id f)) :=
  ⟨map_modify_of_eq Component.body f hf _ _, fun _ _ h => h⟩

end Calm

namespace Still
variable {s s' s'' : Session}

theorem of_eq (hd : s'.catalog.components = s.catalog.components)
    (ht : s'.catalog.templates = s.catalog.templates) : Still s s' :=
  ⟨.of_eq hd ht, .of_eq hd ht⟩

theorem refl (s : Session) : Still s s := of_eq rfl rfl

theorem trans (h : Still s s') (h' : Still s' s'') : Still s s'' :=
  ⟨h.toQuiet.trans h'.toQuiet, h.toCalm.trans h'.toCalm⟩

theorem modifyTemplate (s : Session) (id : TemplateId) (f : Template → Template)
    (hf : ∀ t, (f t).tags = t.tags) (hh : ∀ t h, (f t).host? h = t.host? h) :
    Still s (s.mapCatalog (·.modifyTemplate id f)) :=
  ⟨.modifyTemplate s id f hf, .modifyTemplate s id f hh⟩

/-- a change of a component that shows neither in its outline nor in its body -/
theorem modifyComponent (s : Session) (id : ComponentId) (f : Component → Component)
    (ho : ∀ d, (f d).outline = d.outline) (hb : ∀ d, (f d).body = d.body) :
    Still s (s.mapCatalog (·.modifyComponent id f)) :=
  ⟨⟨map_modify_of_eq Component.outline f ho _ _, List.prefix_refl _⟩, .modifyComponent s id f hb⟩

theorem registerTemplate (s : Session) (l : Location) (usedFrom : Text) (isMain : Bool) :
    Still s (s.registerTemplate l usedFrom isMain).2 := by
  unfold Session.registerTemplate
  split
  · exact modifyTemplate s _ _ (fun _ => rfl) (fun _ h => by cases h <;> rfl)
  · refine ⟨⟨rfl, ?_⟩, ⟨rfl, ?_⟩⟩
    · show _ <+: (s.catalog.templates ++ [_]).map Template.tags
      rw [List.map_append]
      exact List.prefix_append _ _
    · rintro h id ⟨t, ht, hhost⟩
      rcases List.mem_append.1 ht with ht | ht
      · exact ⟨t, ht, hhost⟩
      · rw [List.mem_singleton.1 ht] at hhost
        cases h <;> cases hhost

theorem useTemplate (s : Session) (reference : Text) (origin : Location) :
    Still s (s.useTemplate reference origin).2 :=
  .trans (.of_eq rfl rfl : Still s (s.note (.template reference origin)))
    (registerTemplate _ _ _ false)

theorem of_sheetwise (h : Sheetwise s s') : Still s s' := of_eq h.components h.templates

theorem report (o : Origin) (p : Problem) (s : Session) : Still s (report o p s) := of_eq rfl rfl

theorem addSheet (o : Origin) (sheet : SheetId) (s : Session) : Still s (addSheet o sheet s) :=
  modifyTemplate s _ _ (fun _ => rfl) (fun _ h => by cases h <;> rfl)

/-- a sheet that the template refers to -/
theorem importedSheet (o : Origin) (url : Text) (s : Session) :
    Still s (Declarations.addSheet o (s.importSheet url o.location).1
      (s.importSheet url o.location).2) :=
  (of_sheetwise (.importSheet s url o.location)).trans (addSheet o _ _)

/-- a sheet that the template holds -/
theorem inlinedSheet (env : Env) (o : Origin) (source : Text) (s : Session) :
    Still s (Declarations.addSheet o (s.inlineSheet env source o.location !o.isMain).1
      (s.inlineSheet env source o.location !o.isMain).2) :=
  (of_sheetwise (.inlineSheet env s source o.location _)).trans (addSheet o _ _)

theorem importTemplate (o : Origin) (attributes : Attributes) (owner : Option ComponentId)
    (s : Session) : Still s (importTemplate o attributes owner s) := by
  unfold Declarations.importTemplate
  split
  · exact report o .importWithoutSrc s
  · next src _ =>
    refine (useTemplate s src o.location).trans ?_
    cases owner with
    | some id => exact modifyComponent _ _ _ (fun _ => rfl) (fun _ => rfl)
    | none => exact modifyTemplate _ _ _ (fun _ => rfl) (fun _ h => by cases h <;> rfl)

theorem testDataLink (o : Origin) (attributes : Attributes) (s : Session) :
    Still s (testDataLink o attributes s) := by
  unfold Declarations.testDataLink
  split
  · exact report o .testDataWithoutHref s
  · split
    · exact refl s
    · split
      · exact report o _ s
      · exact modifyTemplate s _ _ (fun _ => rfl) (fun _ h => by cases h <;> rfl)

end Still

/-! ## hosts and links -/

theorem Quiet.markHost (o : Origin) (sheet : SheetId) (h : Host) (s : Session) :
    Quiet s (markHost o sheet h s) := by
  unfold Declarations.markHost
  split
  · exact of_eq rfl rfl
  · split
    · exact refl s
    · split
      · exact of_eq rfl rfl
      · exact modifyTemplate s _ _ (fun t => by cases h <;> rfl)

theorem Quiet.markHosts (o : Origin) (attributes : Attributes) (sheet : SheetId)
    (hosts : List Host) (s : Session) : Quiet s (markHosts o attributes sheet hosts s) := by
  unfold Declarations.markHosts
  induction hosts.filter (fun h => attributes.contains h.marker) generalizing s with
  | nil => exact refl s
  | cons h hosts ih => exact (markHost o sheet h s).trans (ih _)

theorem Quiet.style (env : Env) (o : Origin) (attributes : Attributes) (children : List Html.Node)
    (s : Session) : Quiet s (style env o attributes children s).2 := by
  unfold Declarations.style
  split
  · exact of_eq rfl rfl
  · next source _ =>
    exact (Still.inlinedSheet env o source s).toQuiet.trans (markHosts o attributes _ _ _)

theorem Calm.link (o : Origin) (attributes : Attributes) (owner : Option ComponentId)
    (s : Session) : Calm s (link o attributes owner s).2 := by
  unfold Declarations.link
  dsimp only
  split
  · unfold stylesheetLink
    split
    · exact of_eq rfl rfl
    · next href _ =>
      have hsheet := (Still.importedSheet o href s).toCalm
      dsimp only
      split
      · exact hsheet
      · cases owner with
        | none => exact hsheet.trans (modifyTemplate _ _ _ (fun _ h => by cases h <;> rfl))
        | some id =>
          dsimp only
          split
          · exact hsheet
          · exact hsheet.trans (modifyComponent _ _ _ (fun _ => rfl))
  · split
    · exact (Still.testDataLink o attributes s).toCalm
    · exact refl s

end Declarations

end PageTemplates
