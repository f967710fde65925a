/-!
# Numbered lists

Templates, sheets and components are numbered by their places in lists that only grow at the end.
`Numbered` says that every entry knows its place.
-/

namespace PageTemplates

section
variable {α β : Type}

theorem map_modify (g : α → β) (f : α → α) (f' : β → β) (h : ∀ a, g (f a) = f' (g a))
    (l : List α) (i : Nat) : (l.modify i f).map g = (l.map g).modify i f' := by
  induction l generalizing i with
  | nil => rw [List.modify_nil, List.map_nil, List.modify_nil]
  | cons a l ih =>
    cases i with
    | zero => rw [List.modify_zero_cons, List.map_cons, List.map_cons, h, List.modify_zero_cons]
    | succ i => rw [List.modify_succ_cons, List.map_cons, ih, List.map_cons, List.modify_succ_cons]

theorem map_modify_of_eq (g : α → β) (f : α → α) (h : ∀ a, g (f a) = g a)
    (l : List α) (i : Nat) : (l.modify i f).map g = l.map g := by
  rw [map_modify g f id h, List.modify_id]

theorem prefix_map_modify (g : α → β) (f : α → α) (h : ∀ a, g (f a) = g a) (l : List α) (i : Nat) :
    l.map g <+: (l.modify i f).map g :=
  ⟨[], (List.append_nil _).trans (map_modify_of_eq g f h l i).symm⟩

/-- a change in the first part of a list -/
theorem modify_append_of_lt (f : α → α) {l : List α} {i : Nat} (h : i < l.length) (more : List α) :
    (l ++ more).modify i f = l.modify i f ++ more := by
  induction l generalizing i with
  | nil => exact absurd h (Nat.not_lt_zero i)
  | cons a l ih =>
    cases i with
    | zero => rw [List.cons_append, List.modify_zero_cons, List.modify_zero_cons, List.cons_append]
    | succ i =>
      rw [List.cons_append, List.modify_succ_cons, List.modify_succ_cons, List.cons_append,
        ih (Nat.lt_of_succ_lt_succ h)]

/-- a change of the last entry -/
theorem modify_concat (f : α → α) (l : List α) (a : α) :
    (l ++ [a]).modify l.length f = l ++ [f a] := by
  induction l with
  | nil => rfl
  | cons b l ih => rw [List.cons_append, List.length_cons, List.modify_succ_cons, ih]; rfl

theorem eraseDups_concat_of_mem [BEq α] [LawfulBEq α] {l : List α} {a : α} (h : a ∈ l) :
    (l ++ [a]).eraseDups = l.eraseDups := by
  have hnone : [a].removeAll l = [] := List.filter_cons_of_neg (by simpa using h)
  rw [List.eraseDups_append, hnone, List.eraseDups_nil, List.append_nil]

theorem eraseDups_concat_of_not_mem [BEq α] [LawfulBEq α] {l : List α} {a : α} (h : a ∉ l) :
    (l ++ [a]).eraseDups = l.eraseDups ++ [a] := by
  have hsome : [a].removeAll l = [a] := List.filter_cons_of_pos (by simpa using h)
  rw [List.eraseDups_append, hsome]
  rfl

/-- the entry at a place after a change at some place -/
theorem getElem?_modify_eq_some {f : α → α} {l : List α} {i j : Nat} {a : α}
    (h : (l.modify i f)[j]? = some a) :
    ∃ b, l[j]? = some b ∧ (i = j ∧ a = f b ∨ i ≠ j ∧ a = b) := by
  rw [List.getElem?_modify] at h
  obtain ⟨b, hb, he⟩ := Option.map_eq_some_iff.1 h
  refine ⟨b, hb, ?_⟩
  by_cases hij : i = j
  · rw [if_pos hij] at he
    exact .inl ⟨hij, he.symm⟩
  · rw [if_neg hij] at he
    exact .inr ⟨hij, he.symm⟩

theorem mem_modify {f : α → α} {l : List α} {i : Nat} {a : α} (h : a ∈ l.modify i f) :
    a ∈ l ∨ ∃ b ∈ l, a = f b := by
  obtain ⟨j, hj⟩ := List.mem_iff_getElem?.1 h
  obtain ⟨b, hb, ⟨_, rfl⟩ | ⟨_, rfl⟩⟩ := getElem?_modify_eq_some hj
  · exact .inr ⟨b, List.mem_of_getElem? hb, rfl⟩
  · exact .inl (List.mem_of_getElem? hb)

theorem mem_modify_of_some {f : α → α} {l : List α} {i : Nat} {a b : α} (hb : l[i]? = some b)
    (h : a ∈ l.modify i f) : a ∈ l ∨ a = f b := by
  obtain ⟨j, hj⟩ := List.mem_iff_getElem?.1 h
  obtain ⟨c, hc, ⟨rfl, rfl⟩ | ⟨_, rfl⟩⟩ := getElem?_modify_eq_some hj
  · exact .inr (by rw [Option.some.inj (hb.symm.trans hc)])
  · exact .inl (List.mem_of_getElem? hc)

theorem getElem?_concat_eq_some {l : List α} {a b : α} {i : Nat} (h : (l ++ [a])[i]? = some b) :
    l[i]? = some b ∨ i = l.length ∧ b = a := by
  rw [List.getElem?_append] at h
  split at h
  · exact .inl h
  · rw [List.getElem?_singleton] at h
    split at h
    · exact .inr ⟨by omega, (Option.some.inj h).symm⟩
    · cases h

/-- what a prefix of a list of images says of an entry stays true -/
theorem getElem?_of_map_prefix (g : α → β) {l l' : List α} {i : Nat} {a : α}
    (h : l.map g <+: l'.map g) (ha : l[i]? = some a) : ∃ b, l'[i]? = some b ∧ g b = g a := by
  have h1 : (l.map g)[i]? = some (g a) := by rw [List.getElem?_map, ha, Option.map_some]
  obtain ⟨more, hmore⟩ := h
  have h2 : (l'.map g)[i]? = some (g a) := by
    rw [← hmore, List.getElem?_append_left (List.getElem?_eq_some_iff.1 h1).1, h1]
  rw [List.getElem?_map] at h2
  exact Option.map_eq_some_iff.1 h2

/-- what relates every entry to one at its place relates every entry of as long a list to one -/
theorem getElem?_origin {l : List α} {l' : List β} {R : Nat → α → β → Prop}
    (hlength : l'.length = l.length)
    (h : ∀ i a, l[i]? = some a → ∃ b, l'[i]? = some b ∧ R i a b) {i : Nat} {b : β}
    (hb : l'[i]? = some b) : ∃ a, l[i]? = some a ∧ R i a b := by
  have hi : i < l.length := hlength ▸ (List.getElem?_eq_some_iff.1 hb).1
  have ha := List.getElem?_eq_getElem hi
  obtain ⟨b', hb', hr⟩ := h i l[i] ha
  obtain rfl : b = b' := Option.some.inj (hb.symm.trans hb')
  exact ⟨l[i], ha, hr⟩

/-- a list that has the entries of another at their places, and no others, is that list -/
theorem eq_of_getElem? {l l' : List α} (hlength : l'.length = l.length)
    (h : ∀ (i : Nat) (a : α), l[i]? = some a → l'[i]? = some a) : l' = l := by
  apply List.ext_getElem?
  intro i
  cases ha : l[i]? with
  | none =>
    have hi := List.getElem?_eq_none_iff.1 ha
    exact List.getElem?_eq_none_iff.2 (hlength ▸ hi)
  | some a => exact h i a ha

/-- the number of every entry is its place -/
def Numbered (number : α → Nat) (l : List α) : Prop :=
  ∀ (i : Nat) (a : α), l[i]? = some a → number a = i

namespace Numbered
variable {number : α → Nat} {l : List α}

theorem nil (number : α → Nat) : Numbered number [] := by
  intro i a h
  rw [List.getElem?_nil] at h
  cases h

theorem concat (h : Numbered number l) {a : α} (ha : number a = l.length) :
    Numbered number (l ++ [a]) := by
  intro i b hb
  rcases getElem?_concat_eq_some hb with hb | ⟨rfl, rfl⟩
  · exact h i b hb
  · exact ha

theorem modify (h : Numbered number l) (f : α → α) (hf : ∀ a, number (f a) = number a) (i : Nat) :
    Numbered number (l.modify i f) := by
  intro j a ha
  obtain ⟨b, hb, ⟨_, rfl⟩ | ⟨_, rfl⟩⟩ := getElem?_modify_eq_some ha
  · exact (hf b).trans (h j b hb)
  · exact h j a hb

theorem of_map_eq (h : Numbered number l) {l' : List α} (he : l'.map number = l.map number) :
    Numbered number l' := by
  intro i a ha
  have h1 : (l.map number)[i]? = some (number a) := by
    rw [← he, List.getElem?_map, ha, Option.map_some]
  rw [List.getElem?_map] at h1
  obtain ⟨b, hb, hn⟩ := Option.map_eq_some_iff.1 h1
  rw [← hn]
  exact h i b hb

theorem of_map {number : β → Nat} {g : α → β} (h : Numbered number (l.map g)) :
    Numbered (fun a => number (g a)) l := by
  intro i a ha
  exact h i (g a) (by rw [List.getElem?_map, ha, Option.map_some])

/-- an entry is found under its number -/
theorem getElem?_of_mem (h : Numbered number l) {a : α} (ha : a ∈ l) :
    l[number a]? = some a := by
  obtain ⟨i, hi⟩ := List.mem_iff_getElem?.1 ha
  rw [h i a hi]
  exact hi

/-- an entry with another number is still there after a change -/
theorem mem_modify_of_ne (h : Numbered number l) (f : α → α) {a : α} (ha : a ∈ l) {i : Nat}
    (hne : i ≠ number a) : a ∈ l.modify i f := by
  have hplace := h.getElem?_of_mem ha
  rw [← List.getElem?_modify_ne f l hne] at hplace
  exact List.mem_of_getElem? hplace

theorem map_eq_range (h : Numbered number l) : l.map number = List.range l.length := by
  apply List.ext_getElem (by rw [List.length_map, List.length_range])
  intro i hi hi'
  rw [List.getElem_map, List.getElem_range]
  rw [List.length_map] at hi
  exact h i l[i] (List.getElem?_eq_getElem hi)

theorem lt_of_mem_map (h : Numbered number l) {n : Nat} (hn : n ∈ l.map number) :
    n < l.length := by
  rw [h.map_eq_range] at hn
  exact List.mem_range.1 hn

theorem nodup_map (h : Numbered number l) : (l.map number).Nodup := by
  rw [h.map_eq_range]
  exact List.nodup_range

/-- two entries with one number are one entry -/
theorem eq_of_mem (h : Numbered number l) {a b : α} (ha : a ∈ l) (hb : b ∈ l)
    (hn : number a = number b) : a = b := by
  have h1 := h.getElem?_of_mem ha
  rw [hn, h.getElem?_of_mem hb] at h1
  exact (Option.some.inj h1).symm

/-- a change at a place is a change of the entry with that number -/
theorem modify_eq_map (h : Numbered number l) (f : α → α) (i : Nat) :
    l.modify i f = l.map fun a => if number a = i then f a else a := by
  apply List.ext_getElem?
  intro j
  rw [List.getElem?_modify, List.getElem?_map]
  cases ha : l[j]? with
  | none => rfl
  | some a =>
    have hn : number a = j := h j a ha
    show some (ite _ _ _) = some (ite _ _ _)
    by_cases hij : i = j
    · rw [if_pos hij, if_pos (hn.trans hij.symm)]
    · rw [if_neg hij, if_neg (fun he => hij (he.symm.trans hn))]

end Numbered

end

end PageTemplates
