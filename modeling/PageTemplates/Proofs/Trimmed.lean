import PageTemplates.Text.Blank

/-!
# Trimmed texts

A text is trimmed if trimming changes nothing: neither its first nor its last character is blank.

* `trim_eq_self_iff`   trimmed texts by their ends;
* `trim_trim`          what is left after trimming is trimmed;
* `trim_pad`           blanks on both sides go;
* `Edged.joinWith`     trimmed parts with trimmed separators between them.
-/

namespace PageTemplates.Text

/-- neither the first nor the last character is blank -/
structure Edged (s : Text) : Prop where
  first : ∀ c ∈ s.head?, blankChar c = false
  last : ∀ c ∈ s.getLast?, blankChar c = false

theorem trimEnd_prefix_self (s : Text) : trimEnd s <+: s := by
  have h := List.reverse_prefix.2 (List.dropWhile_suffix (l := s.reverse) blankChar)
  rwa [List.reverse_reverse] at h

theorem trim_subset (s : Text) : trim s ⊆ s := fun _ h =>
  (List.dropWhile_sublist blankChar).subset ((trimEnd_prefix_self (trimStart s)).subset h)

theorem first_trimStart (s : Text) : ∀ c ∈ (trimStart s).head?, blankChar c = false := by
  intro c hc
  have h := List.head?_dropWhile_not blankChar s
  have hc' : (s.dropWhile blankChar).head? = some c := hc
  rw [hc'] at h
  exact h

theorem last_trimEnd (s : Text) : ∀ c ∈ (trimEnd s).getLast?, blankChar c = false := by
  intro c hc
  rw [trimEnd, List.getLast?_reverse] at hc
  exact first_trimStart s.reverse c hc

theorem edged_trim (s : Text) : Edged (trim s) := by
  refine ⟨?_, last_trimEnd _⟩
  intro c hc
  obtain ⟨t, ht⟩ := trimEnd_prefix_self (trimStart s)
  apply first_trimStart s c
  have hc' : (trimEnd (trimStart s)).head? = some c := hc
  rw [← ht, List.head?_append, hc']
  rfl

theorem trimStart_eq_self {s : Text} (h : ∀ c ∈ s.head?, blankChar c = false) :
    trimStart s = s := by
  cases s with
  | nil => rfl
  | cons c s => exact trimStart_cons_of_not_blank (by rw [h c rfl]; exact Bool.false_ne_true) s

theorem trimEnd_eq_self {s : Text} (h : ∀ c ∈ s.getLast?, blankChar c = false) :
    trimEnd s = s := by
  have h1 : trimStart s.reverse = s.reverse :=
    trimStart_eq_self (fun c hc => h c (by rwa [List.head?_reverse] at hc))
  rw [trimEnd, show s.reverse.dropWhile blankChar = s.reverse from h1, List.reverse_reverse]

theorem trim_eq_self_iff {s : Text} : trim s = s ↔ Edged s := by
  constructor
  · intro h
    rw [← h]
    exact edged_trim s
  · intro h
    rw [trim, trimStart_eq_self h.first, trimEnd_eq_self h.last]

theorem trim_trim (s : Text) : trim (trim s) = trim s := trim_eq_self_iff.2 (edged_trim s)

theorem trimStart_append_of_isBlank {l : Text} (h : l.isBlank) (s : Text) :
    trimStart (l ++ s) = trimStart s :=
  List.dropWhile_append_of_pos (fun c hc => List.all_eq_true.1 h c hc)

theorem trimEnd_append_of_isBlank (s : Text) {r : Text} (h : r.isBlank) :
    trimEnd (s ++ r) = trimEnd s := by
  have hr : isBlank r.reverse := by rwa [isBlank, List.all_reverse]
  rw [trimEnd, List.reverse_append]
  exact congrArg List.reverse (trimStart_append_of_isBlank hr s.reverse)

theorem trim_pad {l r : Text} (hl : l.isBlank) (s : Text) (hr : r.isBlank) :
    trim (l ++ s ++ r) = trim s := by
  rw [List.append_assoc, trim, trimStart_append_of_isBlank hl]
  by_cases hs : s.isBlank
  · have hsr : isBlank (s ++ r) := by
      rw [isBlank, List.all_append, Bool.and_eq_true]
      exact ⟨hs, hr⟩
    rw [trimStart_eq_nil_iff.2 hsr, isBlank_iff_trim_eq_nil.1 hs]
    rfl
  · have hne : trimStart s ≠ [] := fun h => hs (trimStart_eq_nil_iff.1 h)
    have happ : trimStart (s ++ r) = trimStart s ++ r := by
      rw [trimStart, List.dropWhile_append, if_neg]
      · rfl
      · rw [List.isEmpty_iff]
        exact hne
    rw [happ, trimEnd_append_of_isBlank _ hr, trim]

/-- a text is the blanks in front of it and what is left without them -/
theorem exists_blanks (s : Text) : ∃ blanks, isBlank blanks = true ∧ s = blanks ++ trimStart s :=
  ⟨s.takeWhile blankChar, List.all_takeWhile, List.takeWhile_append_dropWhile.symm⟩

/-- a text is the blanks around it and what is left without them -/
theorem exists_trim (s : Text) :
    ∃ l r, isBlank l = true ∧ isBlank r = true ∧ s = l ++ (trim s ++ r) := by
  obtain ⟨l, hl, hstart⟩ := exists_blanks s
  obtain ⟨r, hr, hend⟩ := exists_blanks (trimStart s).reverse
  refine ⟨l, r.reverse, hl, by rwa [isBlank, List.all_reverse], ?_⟩
  have htrim : trim s = (trimStart (trimStart s).reverse).reverse := rfl
  rw [htrim, ← List.reverse_append, ← hend, List.reverse_reverse]
  exact hstart

namespace Edged
variable {s t : Text}

theorem nil : Edged [] := trim_eq_self_iff.1 rfl

theorem append (hs : Edged s) (ht : Edged t) : Edged (s ++ t) := by
  constructor
  · intro c hc
    rw [List.head?_append] at hc
    cases h : s.head? with
    | some b =>
      rw [h] at hc
      exact hs.first c (h.trans hc)
    | none =>
      rw [h] at hc
      exact ht.first c hc
  · intro c hc
    rw [List.getLast?_append] at hc
    cases h : t.getLast? with
    | some b =>
      rw [h] at hc
      exact ht.last c (h.trans hc)
    | none =>
      rw [h] at hc
      exact hs.last c hc

theorem joinWith {sep : Text} (hsep : Edged sep) {parts : List Text}
    (h : ∀ s ∈ parts, Edged s) : Edged (joinWith sep parts) := by
  induction parts with
  | nil => exact nil
  | cons s rest ih =>
    have hs := h s List.mem_cons_self
    cases rest with
    | nil => exact hs
    | cons t rest =>
      rw [joinWith_cons_cons]
      exact (hs.append hsep).append (ih fun u hu => h u (List.mem_cons_of_mem s hu))

end Edged

end PageTemplates.Text
