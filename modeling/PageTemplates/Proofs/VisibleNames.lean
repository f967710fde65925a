import Mathlib.Data.List.Infix
import PageTemplates.Proofs.Compilation

/-!
# What a name means in a component

The namespaces are built by insertions that keep what is there.  What they come to is said by lists:
the meanings of a name in all places that know it, the nearest place first.

* `Catalog.meanings`           the meanings of a name in a component;
* `Template.clashes`           the declarations of a template that cannot become visible;
* `importProblems`             what is reported of a list of imports;
* `Catalog.Contested`          a name that two lists of imports resolve differently;
* `Catalog.compileBodies_names`   the namespaces of a loaded catalog, and all that is reported of
                               them.
-/

namespace PageTemplates

/-! ## meanings -/

/-- what a name means outside of a template -/
def Template.meaning (t : Template) (name : Text) : Option Visible :=
  (t.tags.get? name).map .component

/-- the built-in meaning of a name, and what it means in a template itself -/
def Template.ownMeanings (t : Template) (name : Text) : List Visible :=
  (Namespace.builtins.get? name).toList ++ (t.meaning name).toList

/-- what a name means in some templates, in order -/
def importedMeanings (templates : List Template) (ids : List TemplateId) (name : Text) :
    List Visible :=
  ids.filterMap fun id => templates[id]?.bind (Template.meaning · name)

/-- all that a name means in a component of a template: built-in tags, the declarations of the
template, the imports of the component, the imports of the template -/
def Catalog.meanings (cat : Catalog) (t : Template) (d : Component) (name : Text) : List Visible :=
  t.ownMeanings name ++ importedMeanings cat.templates d.imports name
    ++ importedMeanings cat.templates t.imports name

/-- whether a name that is seen already means something else -/
def differs (seen : Text → Option Visible) (e : Text × Visible) : Bool := (seen e.1).any (· ≠ e.2)

/-- the declared names that mean something else already, in the order of the names -/
def Template.clashes (seen : Text → Option Visible) (t : Template) : List Text :=
  ((Namespace.declared t).filter (differs seen)).map Prod.fst

/-- the declared names that are built-in tags -/
def Template.shadowing (t : Template) : List Text :=
  ((Namespace.declared t).map Prod.fst).filter fun name => (Namespace.builtins.get? name).isSome

/-- what is reported of imports: each template against what is seen of `outer` and of the imports
before it -/
def importProblems (templates : List Template) (outer : Text → List Visible)
    (ids : List TemplateId) : List Problem :=
  (ids.inits.zip ids).flatMap fun e =>
    templates[e.2]?.toList.flatMap fun source =>
      (source.clashes fun name => (outer name ++ importedMeanings templates e.1 name).head?).map
        (.importCollision · source.location)

/-- a name that is neither built-in nor declared by the template, and that the imports of the
component and of the template resolve differently -/
def Catalog.Contested (cat : Catalog) (t : Template) (d : Component) (name : Text) : Prop :=
  t.ownMeanings name = [] ∧
    ∃ v v', (importedMeanings cat.templates d.imports name).head? = some v ∧
      (importedMeanings cat.templates t.imports name).head? = some v' ∧ v ≠ v'

theorem mem_differing {seen : Text → Option Visible} {l : List (Text × Visible)} {name : Text} :
    name ∈ (l.filter (differs seen)).map Prod.fst
      ↔ ∃ v v', seen name = some v ∧ (name, v') ∈ l ∧ v ≠ v' := by
  rw [List.mem_map]
  constructor
  · rintro ⟨e, he, rfl⟩
    obtain ⟨hm, hd⟩ := List.mem_filter.1 he
    obtain ⟨v, hv, hne⟩ := (Option.any_eq_true _ _).1 hd
    exact ⟨v, e.2, hv, hm, of_decide_eq_true hne⟩
  · rintro ⟨v, v', hv, hm, hne⟩
    refine ⟨(name, v'), List.mem_filter.2 ⟨hm, ?_⟩, rfl⟩
    unfold differs
    rw [hv]
    exact decide_eq_true hne

theorem importedMeanings_cons (templates : List Template) (id : TemplateId) (ids : List TemplateId)
    (name : Text) : importedMeanings templates (id :: ids) name
      = (templates[id]?.bind (Template.meaning · name)).toList
        ++ importedMeanings templates ids name := by
  unfold importedMeanings
  rw [List.filterMap_cons]
  cases templates[id]?.bind (Template.meaning · name) with
  | none => rfl
  | some v => rfl

theorem importProblems_cons (templates : List Template) (outer : Text → List Visible)
    (id : TemplateId) (ids : List TemplateId) : importProblems templates outer (id :: ids)
      = (templates[id]?.toList.flatMap fun source =>
          (source.clashes fun name => (outer name).head?).map (.importCollision · source.location))
        ++ importProblems templates
          (fun name => outer name ++ (templates[id]?.bind (Template.meaning · name)).toList)
          ids := by
  unfold importProblems
  rw [List.inits_cons, List.zip_cons_cons, List.flatMap_cons, List.zip_map_left, List.flatMap_map]
  congr 1
  · refine congrArg (templates[id]?.toList.flatMap ·) (funext ?_)
    intro source
    simp only [importedMeanings, List.filterMap_nil, List.append_nil]
  · refine congrArg (List.flatMap · _) (funext ?_)
    intro e
    refine congrArg (templates[e.2]?.toList.flatMap ·) (funext ?_)
    intro source
    simp only [Prod.map, id_eq, importedMeanings_cons, List.append_assoc]

/-! ## what each step makes visible -/

namespace Namespace

theorem get?_insert (n : Namespace) (name : Text) (v : Visible) (other : Text) :
    (n.insert name v).2.get? other
      = (n.get? other).or (if name = other then some v else none) := by
  unfold insert
  cases h : n.get? name with
  | none => exact NameMap.get?_insert name
  | some old =>
    show n.get? other = _
    by_cases hn : name = other
    · rw [← hn, h, Option.some_or]
    · rw [if_neg hn, Option.or_none]

theorem insert_eq (n : Namespace) (name : Text) (v : Visible) :
    (n.insert name v).1 = !differs n.get? (name, v) := by
  unfold insert differs
  cases n.get? name with
  | none => rfl
  | some old =>
    show decide (old = v) = !decide (old ≠ v)
    rw [decide_not, Bool.not_not]

theorem get?_insertAll (clash : Text → Problem) (n : Namespace) (entries : List (Text × Visible))
    (name : Text) : (n.insertAll clash entries).1.get? name
      = (n.get? name).or ((entries.find? (·.1 == name)).map Prod.snd) := by
  induction entries generalizing n with
  | nil => exact (Option.or_none).symm
  | cons e entries ih =>
    show ((n.insert e.1 e.2).2.insertAll clash entries).1.get? name = _
    rw [ih, get?_insert, Option.or_assoc, List.find?_cons]
    by_cases hn : e.1 = name
    · rw [if_pos hn, hn, beq_self_eq_true]
      rfl
    · rw [if_neg hn, beq_false_of_ne hn]
      rfl

theorem insertAll_problems (clash : Text → Problem) (n : Namespace)
    (entries : List (Text × Visible)) (h : (entries.map Prod.fst).Nodup) :
    (n.insertAll clash entries).2
      = ((entries.filter (differs n.get?)).map Prod.fst).map clash := by
  induction entries generalizing n with
  | nil => rfl
  | cons e entries ih =>
    obtain ⟨hnew, hrest⟩ := List.nodup_cons.1 h
    -- the other names are seen as before
    have hseen : entries.filter (differs (n.insert e.1 e.2).2.get?)
        = entries.filter (differs n.get?) := by
      apply List.filter_congr
      intro e' he'
      have hne : e.1 ≠ e'.1 := fun he => hnew (he ▸ List.mem_map_of_mem he')
      unfold differs
      rw [get?_insert, if_neg hne, Option.or_none]
    show (if (n.insert e.1 e.2).1 then ((n.insert e.1 e.2).2.insertAll clash entries).2
      else clash e.1 :: ((n.insert e.1 e.2).2.insertAll clash entries).2) = _
    rw [ih _ hrest, hseen, insert_eq, List.filter_cons]
    cases differs n.get? e with
    | true => rfl
    | false => rfl

theorem declared_names (t : Template) : (declared t).map Prod.fst = t.tags.sorted.map Prod.fst := by
  unfold declared
  rw [List.map_map]
  rfl

theorem find?_declared (t : Template) (name : Text) :
    ((declared t).find? (·.1 == name)).map Prod.snd = t.meaning name := by
  unfold declared Template.meaning
  rw [List.find?_map, Option.map_map, ← t.tags.find?_sorted, Option.map_map]
  rfl

theorem get?_merge (n : Namespace) (source : Template) (name : Text) :
    (n.merge source).1.get? name = (n.get? name).or (source.meaning name) := by
  unfold merge
  rw [get?_insertAll, find?_declared]

theorem merge_problems (n : Namespace) (source : Template) :
    (n.merge source).2 = (source.clashes n.get?).map (.importCollision · source.location) := by
  unfold merge
  rw [insertAll_problems]
  · rfl
  · rw [declared_names]
    exact source.tags.nodup_sorted

theorem get?_mergeAll (n : Namespace) (templates : List Template) (ids : List TemplateId)
    (name : Text) : (n.mergeAll templates ids).1.get? name
      = (n.get? name).or (importedMeanings templates ids name).head? := by
  induction ids generalizing n with
  | nil => exact (Option.or_none).symm
  | cons id ids ih =>
    rw [importedMeanings_cons, List.head?_append, Option.head?_toList]
    unfold mergeAll
    cases templates[id]? with
    | none => exact ih n
    | some source =>
      show ((n.merge source).1.mergeAll templates ids).1.get? name = _
      rw [ih, get?_merge, Option.or_assoc]
      rfl

/-- an import is checked against what was visible at first and the imports before it -/
theorem mergeAll_problems (n : Namespace) (templates : List Template) (outer : Text → List Visible)
    (hn : ∀ name, n.get? name = (outer name).head?) (ids : List TemplateId) :
    (n.mergeAll templates ids).2 = importProblems templates outer ids := by
  induction ids generalizing n outer with
  | nil => rfl
  | cons id ids ih =>
    rw [importProblems_cons]
    unfold mergeAll
    cases templates[id]? with
    | none =>
      refine (ih n _ ?_).trans (List.nil_append _).symm
      intro name
      rw [hn, Option.bind_none, Option.toList_none, List.append_nil]
    | some source =>
      show (n.merge source).2 ++ ((n.merge source).1.mergeAll templates ids).2 = _
      rw [merge_problems, funext hn]
      refine congr_arg₂ _ ?_ (ih _ _ ?_)
      · show _ = List.flatMap _ [source]
        rw [List.flatMap_singleton]
      · intro name
        rw [get?_merge, hn, List.head?_append, Option.bind_some, Option.head?_toList]

theorem get?_overlay (n other : Namespace) (name : Text) :
    (n.overlay other).1.get? name = (n.get? name).or (other.get? name) := by
  unfold overlay
  rw [get?_insertAll, NameMap.find?_sorted]
  rfl

theorem overlay_problems (n other : Namespace) : (n.overlay other).2
    = ((other.tags.sorted.filter (differs n.get?)).map Prod.fst).map .ownImportCollision := by
  unfold overlay
  exact insertAll_problems _ _ _ other.tags.nodup_sorted

/-- every built-in tag means the same -/
theorem eq_builtin {name : Text} {v : Visible} (h : builtins.get? name = some v) :
    v = .builtin := by
  have hm : (name, v) ∈ [("component".toList, Visible.builtin), ("import".toList, .builtin)] :=
    NameMap.get?_eq_some_iff.1 h
  rcases List.mem_cons.1 hm with he | hm
  · exact (Prod.mk.inj he).2
  · exact (Prod.mk.inj (List.mem_singleton.1 hm)).2

theorem clashes_builtins (t : Template) : t.clashes builtins.get? = t.shadowing := by
  unfold Template.clashes Template.shadowing
  rw [List.filter_map]
  refine congrArg _ (List.filter_congr ?_)
  intro e he
  obtain ⟨tag, _, rfl⟩ := List.mem_map.1 he
  show (builtins.get? tag.1).any _ = (builtins.get? tag.1).isSome
  cases h : builtins.get? tag.1 with
  | none => rfl
  | some v =>
    rw [eq_builtin h]
    rfl

end Namespace

namespace TemplateNames
variable (t : Template) (templates : List Template)

theorem get?_own (name : Text) :
    (ofTemplate t templates).1.own.get? name = (t.ownMeanings name).head? := by
  show (Namespace.builtins.insertAll _ _).1.get? name = _
  unfold Template.ownMeanings
  rw [Namespace.get?_insertAll, Namespace.find?_declared, List.head?_append, Option.head?_toList,
    Option.head?_toList]

theorem get?_imported (name : Text) : (ofTemplate t templates).1.imported.get? name
    = (t.ownMeanings name ++ importedMeanings templates t.imports name).head? := by
  show ((ofTemplate t templates).1.own.mergeAll templates t.imports).1.get? name = _
  rw [Namespace.get?_mergeAll, get?_own, List.head?_append]

theorem ofTemplate_problems : (ofTemplate t templates).2
    = t.shadowing.map .shadowsBuiltin ++ importProblems templates t.ownMeanings t.imports := by
  show (Namespace.builtins.insertAll _ _).2
    ++ ((ofTemplate t templates).1.own.mergeAll templates t.imports).2 = _
  rw [Namespace.mergeAll_problems _ _ _ (get?_own t templates), Namespace.insertAll_problems]
  · rw [← Namespace.clashes_builtins]
    rfl
  · rw [Namespace.declared_names]
    exact t.tags.nodup_sorted

end TemplateNames

namespace Catalog
variable (cat : Catalog) (t : Template) (d : Component)

theorem get?_visible (name : Text) :
    (cat.visible t d).1.get? name = (cat.meanings t d name).head? := by
  unfold visible meanings TemplateNames.forComponent
  split
  · next hnone =>
    rw [List.isEmpty_iff.1 hnone, TemplateNames.get?_imported]
    show _ = (t.ownMeanings name ++ [] ++ _).head?
    rw [List.append_nil]
  · show (Namespace.overlay _ _).1.get? name = _
    rw [Namespace.get?_overlay, Namespace.get?_mergeAll, TemplateNames.get?_own,
      TemplateNames.get?_imported, List.head?_append, List.head?_append, List.head?_append]
    -- what the template means by itself has been found already
    cases (t.ownMeanings name).head? with
    | some v => rfl
    | none => rfl

theorem visible_problems : ∃ contested : List Text, contested.Nodup ∧
    (∀ name, name ∈ contested ↔ cat.Contested t d name) ∧
    (cat.visible t d).2 = importProblems cat.templates t.ownMeanings d.imports
      ++ contested.map .ownImportCollision := by
  unfold visible TemplateNames.forComponent
  split
  · next hnone =>
    rw [List.isEmpty_iff] at hnone
    refine ⟨[], List.nodup_nil, ?_, ?_⟩
    · intro name
      refine ⟨fun h => absurd h List.not_mem_nil, ?_⟩
      intro h
      obtain ⟨_, v, _, hv, _⟩ := h
      rw [hnone] at hv
      cases hv
    · rw [hnone]
      rfl
  · dsimp only
    rw [Namespace.mergeAll_problems _ _ _ (TemplateNames.get?_own t cat.templates),
      Namespace.overlay_problems]
    refine ⟨_, ?_, ?_, rfl⟩
    · exact (NameMap.nodup_sorted _).sublist (List.filter_sublist.map _)
    · intro name
      have hentry (v : Visible) :
          (name, v) ∈ (TemplateNames.ofTemplate t cat.templates).1.imported.tags.sorted
            ↔ (t.ownMeanings name ++ importedMeanings cat.templates t.imports name).head?
              = some v := by
        rw [← TemplateNames.get?_imported, (NameMap.sorted_perm _).mem_iff]
        exact NameMap.get?_eq_some_iff.symm
      rw [mem_differing]
      unfold Contested
      simp only [hentry, Namespace.get?_mergeAll, TemplateNames.get?_own, List.head?_append]
      cases hown : t.ownMeanings name with
      | nil =>
        constructor
        · rintro ⟨v, v', hv, hv', hne⟩
          exact ⟨rfl, v, v', hv, hv', hne⟩
        · rintro ⟨_, v, v', hv, hv', hne⟩
          exact ⟨v, v', hv, hv', hne⟩
      | cons first _ =>
        constructor
        · rintro ⟨v, v', hv, hv', hne⟩
          exact absurd ((Option.some.inj hv).symm.trans (Option.some.inj hv')) hne
        · rintro ⟨hnil, _⟩
          cases hnil

end Catalog

/-! ## what is reported of names -/

/-- the name that a problem of a namespace is about -/
def Problem.clashing? : Problem → Option Text
  | .shadowsBuiltin name => some name
  | .importCollision name _ => some name
  | .ownImportCollision name => some name
  | _ => none

def Problem.isClash (p : Problem) : Bool := p.clashing?.isSome

theorem Problem.severity_of_isClash (p : Problem) (h : p.isClash = true) : p.severity ≠ .lint := by
  cases p <;> cases h
  all_goals
    show Severity.error ≠ .lint
    decide

/-! ## loaded catalogs -/

theorem mem_declared {t : Template} {name : Text} {v : Visible} :
    (name, v) ∈ Namespace.declared t ↔ t.meaning name = some v := by
  unfold Namespace.declared Template.meaning
  rw [List.mem_map, Option.map_eq_some_iff]
  constructor
  · rintro ⟨e, he, hv⟩
    obtain ⟨rfl, rfl⟩ := Prod.mk.inj hv
    exact ⟨e.2, NameMap.get?_eq_some_iff.2 (t.tags.sorted_perm.mem_iff.1 he), rfl⟩
  · rintro ⟨id, hid, rfl⟩
    exact ⟨(name, id), t.tags.sorted_perm.mem_iff.2 (NameMap.get?_eq_some_iff.1 hid), rfl⟩

/-- an import is only reported for a name that has two meanings -/
theorem mem_importProblems {templates : List Template} {outer : Text → List Visible}
    {ids : List TemplateId} {p : Problem} (hp : p ∈ importProblems templates outer ids) :
    ∃ name source, p = .importCollision name source ∧
      ∃ v ∈ outer name ++ importedMeanings templates ids name,
        ∃ v' ∈ importedMeanings templates ids name, v ≠ v' := by
  induction ids generalizing outer with
  | nil => exact absurd hp List.not_mem_nil
  | cons id ids ih =>
    rw [importProblems_cons] at hp
    rcases List.mem_append.1 hp with hp | hp
    · obtain ⟨source, hsource, hp⟩ := List.mem_flatMap.1 hp
      obtain ⟨name, hname, rfl⟩ := List.mem_map.1 hp
      obtain ⟨v, v', hv, hv', hne⟩ := mem_differing.1 hname
      rw [Option.mem_toList] at hsource
      refine ⟨name, source.location, rfl, v, ?_, v', ?_, hne⟩
      · exact List.mem_append_left _ (List.mem_of_mem_head? hv)
      · rw [importedMeanings_cons, hsource, Option.bind_some, mem_declared.1 hv']
        exact List.mem_append_left _ List.mem_cons_self
    · obtain ⟨name, source, rfl, v, hv, v', hv', hne⟩ := ih hp
      refine ⟨name, source, rfl, v, ?_, v', ?_, hne⟩
      · rw [importedMeanings_cons, ← List.append_assoc]
        exact hv
      · rw [importedMeanings_cons]
        exact List.mem_append_right _ hv'

namespace Catalog
variable {cat : Catalog}

/-- what is reported of a template, whatever it declares -/
def sharedProblems (cat : Catalog) (t : Template) : List Problem :=
  t.shadowing.map .shadowsBuiltin ++ importProblems cat.templates t.ownMeanings t.imports

/-- what is reported of a component whose contested names are these -/
def ownProblems (cat : Catalog) (t : Template) (d : Component) (contested : List Text) :
    List Problem :=
  importProblems cat.templates t.ownMeanings d.imports ++ contested.map .ownImportCollision

theorem isClash_of_mem_import {templates : List Template} {outer : Text → List Visible}
    {ids : List TemplateId} {p : Problem} (hp : p ∈ importProblems templates outer ids) :
    p.isClash = true := by
  obtain ⟨name, source, rfl, _⟩ := mem_importProblems hp
  rfl

theorem isClash_of_mem_shared {t : Template} {p : Problem} (hp : p ∈ cat.sharedProblems t) :
    p.isClash = true := by
  rcases List.mem_append.1 hp with hp | hp
  · obtain ⟨name, _, rfl⟩ := List.mem_map.1 hp
    rfl
  · exact isClash_of_mem_import hp

theorem isClash_of_mem_own {t : Template} {d : Component} {contested : List Text} {p : Problem}
    (hp : p ∈ cat.ownProblems t d contested) : p.isClash = true := by
  rcases List.mem_append.1 hp with hp | hp
  · exact isClash_of_mem_import hp
  · obtain ⟨name, _, rfl⟩ := List.mem_map.1 hp
    rfl

/-- a problem is about a name that has two meanings in the component -/
theorem two_meanings {t : Template} {d : Component} {contested : List Text}
    (hcontested : ∀ name ∈ contested, cat.Contested t d name) {p : Problem}
    (hp : p ∈ cat.sharedProblems t ++ cat.ownProblems t d contested) {name : Text}
    (hname : p.clashing? = some name) :
    ∃ v ∈ cat.meanings t d name, ∃ v' ∈ cat.meanings t d name, v ≠ v' := by
  have own {v : Visible} {n : Text} (h : v ∈ t.ownMeanings n) : v ∈ cat.meanings t d n :=
    List.mem_append_left _ (List.mem_append_left _ h)
  have imported {v : Visible} {n : Text} (h : v ∈ importedMeanings cat.templates d.imports n) :
      v ∈ cat.meanings t d n := List.mem_append_left _ (List.mem_append_right _ h)
  have shared {v : Visible} {n : Text} (h : v ∈ importedMeanings cat.templates t.imports n) :
      v ∈ cat.meanings t d n := List.mem_append_right _ h
  rcases List.mem_append.1 hp with hp | hp
  · rcases List.mem_append.1 hp with hp | hp
    · obtain ⟨n, hn, rfl⟩ := List.mem_map.1 hp
      obtain rfl : n = name := Option.some.inj hname
      obtain ⟨hdeclared, hbuiltin⟩ := List.mem_filter.1 hn
      obtain ⟨v, hv⟩ := Option.isSome_iff_exists.1 hbuiltin
      obtain ⟨e, he, rfl⟩ := List.mem_map.1 hdeclared
      obtain ⟨tag, _, rfl⟩ := List.mem_map.1 he
      refine ⟨v, own ?_, .component tag.2, own ?_, ?_⟩
      · exact List.mem_append_left _ (Option.mem_toList.2 hv)
      · exact List.mem_append_right _ (Option.mem_toList.2 (mem_declared.1 he))
      · rw [Namespace.eq_builtin hv]
        exact Visible.noConfusion
    · obtain ⟨n, source, rfl, v, hv, v', hv', hne⟩ := mem_importProblems hp
      obtain rfl : n = name := Option.some.inj hname
      exact ⟨v, (List.mem_append.1 hv).elim own shared, v', shared hv', hne⟩
  · rcases List.mem_append.1 hp with hp | hp
    · obtain ⟨n, source, rfl, v, hv, v', hv', hne⟩ := mem_importProblems hp
      obtain rfl : n = name := Option.some.inj hname
      exact ⟨v, (List.mem_append.1 hv).elim own imported, v', imported hv', hne⟩
    · obtain ⟨n, hn, rfl⟩ := List.mem_map.1 hp
      obtain rfl : n = name := Option.some.inj hname
      obtain ⟨_, v, v', hv, hv', hne⟩ := hcontested n hn
      exact ⟨v, imported (List.mem_of_mem_head? hv), v', shared (List.mem_of_mem_head? hv'), hne⟩

theorem filter_reports (contested : Template → Component → List Text)
    (hcontested : ∀ t d, (cat.visible t d).2 = cat.ownProblems t d (contested t d)) (t : Template) :
    (cat.reports t).filter Problem.isClash = cat.sharedProblems t
      ++ (cat.declarations t).flatMap fun d => cat.ownProblems t d (contested t d) := by
  unfold reports
  rw [List.filter_append, List.filter_flatMap, TemplateNames.ofTemplate_problems]
  congr 1
  · exact List.filter_eq_self.2 (fun p hp => isClash_of_mem_shared hp)
  · refine congrArg (List.flatMap · _) (funext ?_)
    intro d
    have hnone : (cat.compiled t d).2.filter Problem.isClash = [] := by
      have hmarkup (p : Problem) (hp : p.isMarkup = true) : p.isClash = false := by
        cases p <;> first | rfl | cases hp
      unfold compiled
      rw [Scope.filter_compile hmarkup]
      apply List.filter_eq_nil_iff.2
      intro p hp
      obtain ⟨e, _, hp⟩ := List.mem_flatMap.1 hp
      obtain ⟨name, rfl⟩ := Scope.eq_of_mem_strays hp
      exact Bool.false_ne_true
    rw [List.filter_append, hnone, List.append_nil, hcontested]
    exact List.filter_eq_self.2 (fun p hp => isClash_of_mem_own hp)

theorem Sound.template_of_mem (h : cat.Sound) {id : TemplateId}
    (hid : id ∈ cat.templates.map Template.id) : ∃ source, cat.templates[id]? = some source := by
  obtain ⟨t, ht, rfl⟩ := List.mem_map.1 hid
  exact ⟨t, h.templates.getElem?_of_mem ht⟩

/-- **A name means the nearest of its meanings.**  Every component is compiled in a namespace that
maps a name to the first of its meanings: built-in tags, the declarations of the template, the
imports of the component, the imports of the template.  The clashes in the log are those of each
template, once, and those of each of its components; and a name is reported only if it has two
different meanings. -/
theorem compileBodies_names (h : cat.Loaded) :
    (∀ d ∈ cat.components, ∃ t ∈ cat.declaring, d ∈ cat.declarations t ∧
      (∀ id ∈ d.imports ++ t.imports, ∃ source, cat.templates[id]? = some source) ∧
      ∃ names : Namespace, (∀ name, names.get? name = (cat.meanings t d name).head?) ∧
        cat.compileBodies.components[d.id]? = some { d with
          nodes := (Scope.compile ⟨d.id, cat.components, cat.sheets, names⟩ d.body).1 }) ∧
    ∃ contested : Template → Component → List Text,
      (∀ t d, (contested t d).Nodup ∧
        ∀ name, name ∈ contested t d ↔ cat.Contested t d name) ∧
      cat.compileBodies.log.about Problem.isClash = cat.log.about Problem.isClash
        ++ cat.declaring.flatMap (fun t => (cat.sharedProblems t
          ++ (cat.declarations t).flatMap fun d => cat.ownProblems t d (contested t d)).map
            (Entry.mk (some t.file))) ∧
      ∀ t d, ∀ p ∈ cat.sharedProblems t ++ cat.ownProblems t d (contested t d), ∀ name,
        p.clashing? = some name →
          ∃ v ∈ cat.meanings t d name, ∃ v' ∈ cat.meanings t d name, v ≠ v' := by
  have hsound := h.sound
  constructor
  · intro d hd
    obtain ⟨t, ht, hdt⟩ := List.mem_flatMap.1 ((mem_schedule hsound d).2 hd)
    have htm : t ∈ cat.templates := (List.mem_filter.1 ht).1
    refine ⟨t, ht, hdt, fun id hid => hsound.template_of_mem ?_, (cat.visible t d).1,
      get?_visible cat t d, ?_⟩
    · rcases List.mem_append.1 hid with hid | hid
      · exact (hsound.components_closed d hd).imports id hid
      · exact (hsound.templates_closed t htm).imports id hid
    · rw [compileBodies_eq hsound]
      show (cat.components.map cat.finished)[d.id]? = _
      rw [List.getElem?_map, hsound.components.getElem?_of_mem hd, Option.map_some,
        finished_of_declared hsound htm hdt]
      rfl
  · choose contested hnodup hmem hproblems using visible_problems cat
    refine ⟨contested, fun t d => ⟨hnodup t d, hmem t d⟩, ?_, ?_⟩
    · rw [compileBodies_about hsound Problem.severity_of_isClash]
      refine congrArg (_ ++ List.flatMap · _) (funext ?_)
      intro t
      rw [filter_reports contested hproblems]
    · intro t d p hp name hname
      exact two_meanings (fun n hn => (hmem t d n).1 hn) hp hname

/-- a template imports `b` and `c`, which declare one name, and its component `one` imports `c` -/
def crossing : Env where
  read _ := .ok []
  parseMarkup _ file :=
    let importing (src : Text) : Html.Node :=
      .element "import".toList (.ofList [("src".toList, src)]) []
    let y : Html.Node := .element "y".toList .empty []
    if file = "x/a".toList then
      .ok ⟨[importing "b".toList, importing "c".toList,
        .element "one".toList .empty [importing "c".toList, y]], true⟩
    else .ok ⟨[y], true⟩
  parseCss _ _ := ⟨[], .ok (.sheet [])⟩

/-- `one` is compiled with the declaration of `c`, and this is reported -/
theorem compileBodies_names_crossing : ∃ s,
    (Session.prepared crossing ⟨true, []⟩ true [.main (.remote "x/a".toList)]).run crossing 3
      = some s ∧
    (∃ d ∈ s.catalog.components, ∃ names : Namespace, d.name = "one".toList ∧
      names.get? "y".toList = some (.component 2) ∧
      s.catalog.compileBodies.components[d.id]? = some { d with nodes :=
        (Scope.compile ⟨d.id, s.catalog.components, s.catalog.sheets, names⟩ d.body).1 }) ∧
    ⟨some "x/a".toList, .ownImportCollision "y".toList⟩
      ∈ s.catalog.compileBodies.log.about Problem.isClash := by
  have hs : ((Session.prepared crossing ⟨true, []⟩ true [.main (.remote "x/a".toList)]).run
      crossing 3).map (fun s => decide (∃ d ∈ s.catalog.components, d.name = "one".toList ∧
        ∀ t ∈ s.catalog.declaring, t.id = d.template →
          t.file = "x/a".toList ∧ t.ownMeanings "y".toList = [] ∧
          importedMeanings s.catalog.templates d.imports "y".toList = [.component 2] ∧
          importedMeanings s.catalog.templates t.imports "y".toList
            = [.component 1, .component 2])) = some true := by decide
  obtain ⟨s, hrun, hs⟩ := Option.map_eq_some_iff.1 hs
  obtain ⟨d, hd, hname, hmeanings⟩ := of_decide_eq_true hs
  obtain ⟨hall, contested, hcontested, hlog, _⟩ := compileBodies_names (.run _ _ _ _ _ s hrun)
  obtain ⟨t, ht, hdt, _, names, hnames, hcompiled⟩ := hall d hd
  obtain ⟨hfile, hown, himported, hshared⟩ :=
    hmeanings t ht (of_decide_eq_true (List.mem_filter.1 hdt).2).symm
  refine ⟨s, hrun, ⟨d, hd, names, hname, ?_, hcompiled⟩, ?_⟩
  · rw [hnames, meanings, hown, himported]
    rfl
  · have hy : "y".toList ∈ contested t d := ((hcontested t d).2 _).2
      ⟨hown, _, _, by rw [himported]; rfl, by rw [hshared]; rfl, by decide⟩
    rw [hlog, ← hfile]
    refine List.mem_append_right _ (List.mem_flatMap.2 ⟨t, ht, List.mem_map_of_mem ?_⟩)
    refine List.mem_append_right _ (List.mem_flatMap.2 ⟨d, hdt, ?_⟩)
    exact List.mem_append_right _ (List.mem_map_of_mem hy)

end Catalog

end PageTemplates
