import PageTemplates.Text.Basic

/-!
# Texts in parts

A text is cut at every occurrence of a character, and put together again from its parts.

* `not_mem_of_mem_splitOn`   the parts do not have the character;
* `splitOn_joinWith`         parts without the character are the parts of the text made of them;
* `splitOn_append`           where two texts meet, two of their parts become one;
* `span_append`              some characters, up to one that is not among them;
* `upTo_append_tail`         a text without some characters ends where the first of them stands.
-/

namespace PageTemplates.Text

theorem joinWith_eq_intercalate (sep : Text) (parts : List Text) :
    joinWith sep parts = sep.intercalate parts := by
  induction parts with
  | nil => rfl
  | cons s rest ih =>
    cases rest with
    | nil => exact List.intercalate_singleton.symm
    | cons t rest => rw [joinWith_cons_cons, ih, List.intercalate_cons_cons]

theorem not_mem_of_mem_splitOn {c : Char} {s part : Text} (h : part ∈ s.splitOn c) : c ∉ part := by
  induction s generalizing part with
  | nil =>
    rw [List.splitOn_nil, List.mem_singleton] at h
    rw [h]
    exact List.not_mem_nil
  | cons d s ih =>
    rw [List.splitOn_cons_eq_if_modifyHead] at h
    obtain ⟨first, more, hs⟩ := List.exists_cons_of_ne_nil (List.splitOn_ne_nil c s)
    rw [hs] at h ih
    split at h
    · rcases List.mem_cons.1 h with rfl | h
      · exact List.not_mem_nil
      · exact ih h
    · next hd =>
      rw [List.modifyHead_cons] at h
      rcases List.mem_cons.1 h with rfl | h
      · rw [List.mem_cons, not_or]
        exact ⟨fun he => hd (beq_iff_eq.2 he.symm), ih List.mem_cons_self⟩
      · exact ih (List.mem_cons_of_mem first h)

/-- a text is made of its parts -/
theorem joinWith_splitOn (c : Char) (s : Text) : joinWith [c] (s.splitOn c) = s := by
  rw [joinWith_eq_intercalate, List.intercalate_splitOn]

theorem subset_of_mem_splitOn {c : Char} {s part : Text} (h : part ∈ s.splitOn c) : part ⊆ s := by
  have h1 := subset_joinWith [c] h
  rwa [joinWith_splitOn] at h1

theorem splitOn_joinWith {c : Char} {parts : List Text} (h : ∀ part ∈ parts, c ∉ part)
    (hne : parts ≠ []) : (joinWith [c] parts).splitOn c = parts := by
  rw [joinWith_eq_intercalate]
  exact List.splitOn_intercalate c h hne

/-- the parts of a text that is not empty are known from the text -/
theorem joinWith_inj {c : Char} {parts parts' : List Text} (h : ∀ part ∈ parts, c ∉ part)
    (h' : ∀ part ∈ parts', c ∉ part) (hne : joinWith [c] parts' ≠ []) :
    joinWith [c] parts = joinWith [c] parts' ↔ parts = parts' := by
  have hnonempty {parts : List Text} (hparts : joinWith [c] parts ≠ []) : parts ≠ [] := by
    rintro rfl
    exact hparts rfl
  refine ⟨fun heq => ?_, congrArg _⟩
  rw [← splitOn_joinWith h (hnonempty (heq ▸ hne)), heq, splitOn_joinWith h' (hnonempty hne)]

theorem joinWith_eq_nil {c : Char} {parts : List Text} (h : joinWith [c] parts = []) :
    parts = [] ∨ parts = [[]] := by
  match parts, h with
  | [], _ => exact .inl rfl
  | [s], h => exact .inr (congrArg (· :: []) h)
  | s :: t :: rest, h =>
    rw [joinWith_cons_cons, List.append_assoc] at h
    cases (List.append_eq_nil_iff.1 (List.append_eq_nil_iff.1 h).2).1

theorem joinWith_cons (sep s : Text) {rest : List Text} (h : rest ≠ []) :
    joinWith sep (s :: rest) = s ++ (sep ++ joinWith sep rest) := by
  obtain ⟨t, rest, rfl⟩ := List.exists_cons_of_ne_nil h
  rw [joinWith_cons_cons, List.append_assoc]

theorem joinWith_append_cons (sep s t : Text) (rest : List Text) :
    joinWith sep ((s ++ t) :: rest) = s ++ joinWith sep (t :: rest) := by
  cases rest with
  | nil => rfl
  | cons u rest => simp only [joinWith_cons_cons, List.append_assoc]

/-- where two texts meet, the last part of the one and the first part of the other become one -/
theorem joinWith_append (sep : Text) (front : List Text) (last first : Text) (rest : List Text) :
    joinWith sep (front ++ (last ++ first) :: rest)
      = joinWith sep (front ++ [last]) ++ joinWith sep (first :: rest) := by
  induction front with
  | nil => exact joinWith_append_cons sep last first rest
  | cons s front ih =>
    have hne (parts : List Text) (t : Text) : front ++ t :: parts ≠ [] :=
      List.append_ne_nil_of_right_ne_nil front (List.cons_ne_nil t parts)
    rw [List.cons_append, List.cons_append, joinWith_cons sep s (hne _ _), ih,
      joinWith_cons sep s (hne _ _)]
    simp only [List.append_assoc]

theorem splitOn_append {c : Char} {s t : Text} {front rest : List Text} {last first : Text}
    (hs : s.splitOn c = front ++ [last]) (ht : t.splitOn c = first :: rest) :
    (s ++ t).splitOn c = front ++ (last ++ first) :: rest := by
  have hparts : ∀ part ∈ front ++ (last ++ first) :: rest, c ∉ part := by
    have hs' : ∀ part ∈ front ++ [last], c ∉ part := fun part hpart =>
      not_mem_of_mem_splitOn (hs ▸ hpart)
    have ht' : ∀ part ∈ first :: rest, c ∉ part := fun part hpart =>
      not_mem_of_mem_splitOn (ht ▸ hpart)
    rw [List.forall_mem_append, List.forall_mem_singleton] at hs'
    rw [List.forall_mem_cons] at ht'
    rw [List.forall_mem_append, List.forall_mem_cons, List.mem_append, not_or]
    exact ⟨hs'.1, ⟨hs'.2, ht'.1⟩, ht'.2⟩
  have htext : joinWith [c] (front ++ (last ++ first) :: rest) = s ++ t := by
    rw [joinWith_append, ← hs, ← ht, joinWith_splitOn, joinWith_splitOn]
  rw [← htext, splitOn_joinWith hparts (by simp)]

theorem span_append {α : Type} {p : α → Bool} {s t : List α} (h : ∀ c ∈ s, p c = true)
    (ht : ∀ c ∈ t.head?, p c = false) :
    (s ++ t).takeWhile p = s ∧ (s ++ t).dropWhile p = t := by
  rw [List.takeWhile_append_of_pos h, List.dropWhile_append_of_pos h]
  cases t with
  | nil => exact ⟨List.append_nil s, rfl⟩
  | cons c t =>
    have hc : ¬ p c = true := by rw [ht c rfl]; exact Bool.false_ne_true
    rw [List.takeWhile_cons_of_neg hc, List.dropWhile_cons_of_neg hc, List.append_nil]
    exact ⟨rfl, rfl⟩

section
variable {p : Char → Bool} {s t : Text}

theorem eq_true_of_since {c : Char} (h : since p s = c :: t) : p c = true := by
  have hhead := List.head?_dropWhile_not (fun c => !p c) s
  have hd : s.dropWhile (fun c => !p c) = c :: t := h
  rw [hd] at hhead
  simpa using hhead

theorem upTo_append (h : ∀ c ∈ s, p c = false) (t : Text) : upTo p (s ++ t) = s ++ upTo p t :=
  List.takeWhile_append_of_pos fun c hc => by rw [h c hc]; rfl

theorem upTo_since (p : Char → Bool) (s : Text) : upTo p (since p s) = [] := by
  cases h : since p s with
  | nil => rfl
  | cons c r =>
    have hstop : ¬(!p c) = true := by
      rw [eq_true_of_since h]
      exact Bool.false_ne_true
    exact List.takeWhile_cons_of_neg hstop

/-- what stands in front of the first of the characters, when they start a given tail -/
theorem upTo_append_tail (h : ∀ c ∈ s, p c = false) (t : Text) : upTo p (s ++ since p t) = s := by
  rw [upTo_append h, upTo_since, List.append_nil]

end

end PageTemplates.Text
