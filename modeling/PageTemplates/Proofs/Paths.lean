import PageTemplates.Path
import PageTemplates.Proofs.Parts

/-!
# Paths and their spelling

A path that is spelled by a text has proper components, and proper components that are texts are
read back.  A walked path keeps `..` at most as its first component, so that walking it again
changes nothing.

* `Path.Proper`     the paths that have a spelling (`proper_ofText`, `ofText_joinWith`);
* `normal_normal`   walking twice;
* `countP_isRaw_normal`   a walk finds no names that are no text;
* `Path.Holds`      a directory and the paths below it (`below?_append`).
-/

namespace PageTemplates.Path

/-! ## spelling -/

/-- whether a component is one that stands between slashes; a name that is no text always is -/
def IsPart : Part → Prop
  | .text t => t ≠ [] ∧ t ≠ here ∧ '/' ∉ t
  | .raw _ => True

def Proper (p : Path) : Prop := ∀ part ∈ p.parts, IsPart part

theorem isPart_parent : IsPart (.text parent) := by
  refine ⟨by decide, by decide, by decide⟩

theorem isComponent_iff {part : Part} :
    part.isComponent = true ↔ part ≠ .text [] ∧ part ≠ .text here := by
  unfold Part.isComponent
  rw [Bool.and_eq_true, bne_iff_ne, bne_iff_ne]

theorem IsPart.isComponent {part : Part} (h : IsPart part) : part.isComponent = true := by
  refine isComponent_iff.2 ⟨?_, ?_⟩
  · rintro rfl
    exact h.1 rfl
  · rintro rfl
    exact h.2.1 rfl

theorem proper_ofText (s : Text) : (ofText s).Proper := by
  intro part hpart
  obtain ⟨hpiece, hkeep⟩ := List.mem_filter.1 hpart
  obtain ⟨t, ht, rfl⟩ := List.mem_map.1 hpiece
  obtain ⟨hempty, hhere⟩ := isComponent_iff.1 hkeep
  exact ⟨fun h => hempty (congrArg Part.text h), fun h => hhere (congrArg Part.text h),
    Text.not_mem_of_mem_splitOn ht⟩

/-- the first character of a text made of proper components is no slash -/
theorem head?_joinWith_ne {parts : List Text} (h : ∀ t ∈ parts, IsPart (.text t)) :
    (Text.joinWith ['/'] parts).head? ≠ some '/' := by
  cases parts with
  | nil => exact Option.some_ne_none '/' ∘ Eq.symm
  | cons part rest =>
    obtain ⟨hne, _, hslash⟩ := h part List.mem_cons_self
    cases part with
    | nil => exact absurd rfl hne
    | cons c part =>
      have hhead : (Text.joinWith ['/'] ((c :: part) :: rest)).head? = some c := by
        cases rest <;> rfl
      rw [hhead]
      intro hc
      exact hslash (List.mem_cons.2 (.inl (Option.some.inj hc).symm))

/-- proper components are read back -/
theorem ofText_joinWith {parts : List Text} (h : ∀ t ∈ parts, IsPart (.text t)) :
    ofText (Text.joinWith ['/'] parts) = ⟨false, parts.map .text⟩ := by
  have hrooted : ((Text.joinWith ['/'] parts).head? == some '/') = false :=
    beq_false_of_ne (head?_joinWith_ne h)
  unfold ofText ofParts
  rw [hrooted]
  congr 1
  by_cases hne : parts = []
  · subst hne
    rfl
  · unfold pieces
    rw [Text.splitOn_joinWith (fun t ht => (h t ht).2.2) hne]
    apply List.filter_eq_self.2
    intro part hpart
    obtain ⟨t, ht, rfl⟩ := List.mem_map.1 hpart
    exact (h t ht).isComponent

theorem joinParts_texts (parts : List Text) :
    joinParts (parts.map .text) = Text.joinWith ['/'] parts := by
  unfold joinParts
  rw [List.map_map]
  exact congrArg _ (List.map_id parts)

/-! ## walking -/

/-- on a stack of walked components `..` can only be the outermost one -/
def Walked (stack : List Part) : Prop := ∀ part ∈ stack.dropLast, part ≠ .text parent

theorem walk_walked {stack : List Part} (h : Walked stack) (part : Part) :
    Walked (walk stack part) := by
  unfold walk
  split
  · cases stack with
    | nil => exact fun _ hm => absurd hm List.not_mem_nil
    | cons top outer =>
      cases outer with
      | nil => exact fun _ hm => absurd hm List.not_mem_nil
      | cons next outer => exact fun part hm => h part (List.mem_cons_of_mem top hm)
  · next hpart =>
    cases stack with
    | nil => exact fun _ hm => absurd hm List.not_mem_nil
    | cons top outer =>
      intro part' hm
      rcases List.mem_cons.1 hm with rfl | hm
      · exact hpart
      · exact h part' hm

theorem foldl_walk_walked {stack : List Part} (h : Walked stack) (parts : List Part) :
    Walked (parts.foldl walk stack) := by
  induction parts generalizing stack with
  | nil => exact h
  | cons part parts ih => exact ih (walk_walked h part)

/-- the components of a stack lead to the stack -/
theorem foldl_walk_reverse {stack : List Part} (h : Walked stack) :
    stack.reverse.foldl walk [] = stack := by
  induction stack with
  | nil => rfl
  | cons part outer ih =>
    rw [List.reverse_cons, List.foldl_append]
    cases outer with
    | nil =>
      show walk [] part = [part]
      unfold walk
      split
      · next hpart => rw [hpart]
      · rfl
    | cons top outer =>
      have houter : Walked (top :: outer) := fun part' hm => h part' (List.mem_cons_of_mem part hm)
      rw [ih houter]
      exact if_neg (h part List.mem_cons_self)

theorem normal_normal (p : Path) : p.normal.normal = p.normal := by
  unfold normal
  rw [foldl_walk_reverse (foldl_walk_walked (fun _ hm => absurd hm List.not_mem_nil) p.parts)]

theorem walk_subset (stack : List Part) (part : Part) :
    walk stack part ⊆ .text parent :: part :: stack := by
  unfold walk
  split
  · cases stack with
    | nil => exact List.cons_subset_cons _ (List.nil_subset _)
    | cons top outer =>
      exact List.subset_cons_of_subset _ (List.subset_cons_of_subset _ (List.subset_cons_self _ _))
  · exact List.subset_cons_self _ _

theorem Proper.normal {p : Path} (h : p.Proper) : p.normal.Proper := by
  have hall (parts stack : List Part) (hparts : ∀ part ∈ parts, IsPart part)
      (hstack : ∀ part ∈ stack, IsPart part) : ∀ part ∈ parts.foldl walk stack, IsPart part := by
    induction parts generalizing stack with
    | nil => exact hstack
    | cons part parts ih =>
      apply ih _ (fun part' hm => hparts part' (List.mem_cons_of_mem _ hm))
      intro part' hm
      rcases List.mem_cons.1 (walk_subset stack part hm) with rfl | hm
      · exact isPart_parent
      · rcases List.mem_cons.1 hm with rfl | hm
        · exact hparts _ List.mem_cons_self
        · exact hstack part' hm
  intro part hm
  exact hall p.parts [] h (fun _ hm => absurd hm List.not_mem_nil) part (List.mem_reverse.1 hm)

theorem Proper.directory {p : Path} (h : p.Proper) : p.directory.Proper :=
  fun part hm => h part (List.dropLast_subset p.parts hm)

theorem Proper.join {base p : Path} (hbase : base.Proper) (h : p.Proper) :
    (base.join p).Proper := by
  unfold Path.join
  split
  · exact h
  · intro part hm
    rcases List.mem_append.1 hm with hm | hm
    · exact hbase part hm
    · exact h part hm

/-! ## names that are no text -/

def Part.isRaw : Part → Bool
  | .text _ => false
  | .raw _ => true

theorem countP_isRaw_ofText (s : Text) : (ofText s).parts.countP Part.isRaw = 0 := by
  apply List.countP_eq_zero.2
  intro part hpart
  obtain ⟨t, _, rfl⟩ := List.mem_map.1 (List.mem_filter.1 hpart).1
  exact Bool.false_ne_true

theorem exists_texts {parts : List Part} (h : parts.countP Part.isRaw = 0) :
    ∃ texts : List Text, parts = texts.map .text := by
  induction parts with
  | nil => exact ⟨[], rfl⟩
  | cons part parts ih =>
    cases part with
    | text t =>
      obtain ⟨texts, rfl⟩ := ih h
      exact ⟨t :: texts, rfl⟩
    | raw name =>
      rw [List.countP_cons_of_pos rfl] at h
      cases h

theorem countP_isRaw_walk (stack : List Part) (part : Part) :
    (walk stack part).countP Part.isRaw ≤ (part :: stack).countP Part.isRaw := by
  unfold walk
  split
  · cases stack with
    | nil => exact Nat.zero_le _
    | cons top outer =>
      exact ((List.sublist_cons_self top outer).trans (List.sublist_cons_self part _)).countP_le
  · exact Nat.le_refl _

theorem countP_isRaw_foldl_walk (parts stack : List Part) :
    (parts.foldl walk stack).countP Part.isRaw
      ≤ stack.countP Part.isRaw + parts.countP Part.isRaw := by
  induction parts generalizing stack with
  | nil => exact Nat.le_refl _
  | cons part parts ih =>
    have hwalk := countP_isRaw_walk stack part
    have hrest := ih (walk stack part)
    rw [List.countP_cons] at hwalk ⊢
    rw [List.foldl_cons]
    omega

theorem countP_isRaw_normal (p : Path) :
    p.normal.parts.countP Part.isRaw ≤ p.parts.countP Part.isRaw := by
  have hwalk := countP_isRaw_foldl_walk p.parts []
  rw [List.countP_nil, Nat.zero_add] at hwalk
  unfold normal
  rwa [List.countP_reverse]

/-! ## directories -/

/-- whether a path lies in a directory, component by component -/
def Holds (base p : Path) : Prop := ∃ parts, p = ⟨base.rooted, base.parts ++ parts⟩

theorem partsBelow?_eq_some_iff {base parts rest : List Part} :
    partsBelow? base parts = some rest ↔ parts = base ++ rest := by
  induction base generalizing parts with
  | nil => exact ⟨fun h => Option.some.inj h, fun h => congrArg some h⟩
  | cons b base ih =>
    cases parts with
    | nil => exact ⟨nofun, nofun⟩
    | cons part parts =>
      unfold partsBelow?
      rw [List.cons_append, List.cons.injEq, ← ih]
      by_cases hb : b = part
      · rw [if_pos hb]
        exact ⟨fun h => ⟨hb.symm, h⟩, fun h => h.2⟩
      · rw [if_neg hb]
        exact ⟨nofun, fun h => absurd h.1.symm hb⟩

/-- what lies in a directory is found below it -/
theorem below?_append (base : Path) (parts : List Part) :
    below? base ⟨base.rooted, base.parts ++ parts⟩ = some parts := by
  unfold below?
  rw [if_pos rfl]
  exact partsBelow?_eq_some_iff.2 rfl

end PageTemplates.Path
