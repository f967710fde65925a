import PageTemplates.Proofs.Discovery

/-!
# What only has to do with sheets

Sheets are registered, parsed and stored without any change of a template or of a component, and
without a call for a template.

* `Session.requests`         the references by which a file has called for templates;
* `Session.Sheetwise`        the templates, the components and these references stay;
* `Sheetwise.importSheet`, `Sheetwise.inlineSheet`, `Sheetwise.loadSheet`   what keeps them.
-/

namespace PageTemplates

/-- what a call from a file asks for, if it asks for a template -/
def Call.request? (l : Location) : Call → Option Text
  | .template reference origin => if origin = l then some reference else none
  | .main _ | .sheet _ _ | .inline _ _ _ => none

namespace Session

/-- the references by which a file has called for templates -/
def requests (s : Session) (l : Location) : List Text := s.calls.filterMap (Call.request? l)

/-- no template and no component changes, and no template is called for -/
structure Sheetwise (s s' : Session) : Prop where
  main : s'.catalog.main = s.catalog.main
  templates : s'.catalog.templates = s.catalog.templates
  components : s'.catalog.components = s.catalog.components
  requests : ∀ l, s'.requests l = s.requests l

namespace Sheetwise
variable {s s' s'' : Session}

theorem of_eq (hmain : s'.catalog.main = s.catalog.main)
    (ht : s'.catalog.templates = s.catalog.templates)
    (hd : s'.catalog.components = s.catalog.components) (hc : s'.calls = s.calls) :
    Sheetwise s s' :=
  ⟨hmain, ht, hd, fun _ => congrArg _ hc⟩

theorem refl (s : Session) : Sheetwise s s := of_eq rfl rfl rfl rfl

theorem trans (h : Sheetwise s s') (h' : Sheetwise s' s'') : Sheetwise s s'' :=
  ⟨h'.main.trans h.main, h'.templates.trans h.templates, h'.components.trans h.components,
    fun l => (h'.requests l).trans (h.requests l)⟩

theorem note (s : Session) {c : Call} (hc : ∀ l, c.request? l = none) :
    Sheetwise s (s.note c) := by
  refine ⟨rfl, rfl, rfl, fun l => ?_⟩
  show (s.calls ++ [c]).filterMap _ = _
  rw [List.filterMap_append, List.filterMap_cons_none (hc l)]
  exact List.append_nil _

theorem registerSheet (s : Session) (l : Location) (usedFrom : Text) :
    Sheetwise s (s.registerSheet l usedFrom).2 := by
  unfold Session.registerSheet
  split <;> exact of_eq rfl rfl rfl rfl

theorem importSheet (s : Session) (url : Text) (origin : Location) :
    Sheetwise s (s.importSheet url origin).2 :=
  (note s (c := .sheet url origin) fun _ => rfl).trans (registerSheet _ _ _)

theorem importSheets (s : Session) (urls : List Text) (origin : Location) :
    Sheetwise s (s.importSheets urls origin).2 := by
  induction urls generalizing s with
  | nil => exact refl s
  | cons url urls ih => exact (importSheet s url origin).trans (ih _)

theorem parseSheet (env : Env) (s : Session) (source file : Text) :
    Sheetwise s (s.parseSheet env source file).2 := by
  obtain ⟨log, hlog⟩ := parseSheet_eq env s source file
  rw [hlog]
  exact of_eq rfl rfl rfl rfl

theorem finishSheet (s : Session) (id : SheetId) (l : Location) (ast : Option Css.Node) :
    Sheetwise s (s.finishSheet id l ast) := by
  cases ast with
  | none => exact of_eq rfl rfl rfl rfl
  | some ast => exact (importSheets s ast.importUrls l).trans (of_eq rfl rfl rfl rfl)

theorem inlineSheet (env : Env) (s : Session) (source : Text) (origin : Location)
    (fromComponent : Bool) : Sheetwise s (s.inlineSheet env source origin fromComponent).2 := by
  have hnote : Sheetwise s (s.note (.inline source origin fromComponent)) := note s fun _ => rfl
  have hnew : Sheetwise s ((s.note (.inline source origin fromComponent)).registerInline origin
      fromComponent) := hnote.trans (of_eq rfl rfl rfl rfl)
  exact (hnew.trans (parseSheet env _ source origin.toText)).trans (finishSheet _ _ origin _)

theorem loadSheet (env : Env) (s : Session) (sheet : Sheet) :
    Sheetwise s (s.loadSheet env sheet) := by
  unfold Session.loadSheet
  dsimp only
  split
  · exact of_eq rfl rfl rfl rfl
  · next source _ =>
    have hread : Sheetwise s { s with reads := s.reads ++ [sheet.location] } :=
      of_eq rfl rfl rfl rfl
    exact (hread.trans (parseSheet env _ source sheet.file)).trans (finishSheet _ _ _ _)

end Sheetwise

end Session

end PageTemplates
