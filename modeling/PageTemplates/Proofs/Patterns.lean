import Mathlib.Data.List.Infix
import PageTemplates.Text.Basic

/-!
# Patterns in texts

Where a pattern can occur in texts that are put together.

* `prefix_of_prefix_append_cons`, `infix_of_infix_append`, `infix_of_infix_pad`   occurrences end
                     at a character that the pattern does not have;
* `find?_append`     the first occurrence stays the first one when the text goes on, and in what
                     ends with it (`find?_take`); there is none in front of it (`not_infix_take`);
* `find?_append_cons`   behind a text without the pattern and a character that it does not have;
* `find?_append_of_not_prefix`   behind a text in which the pattern does not begin;
* `find?_append_self`   a pattern is found where it was put, if its first character is unique.
-/

namespace PageTemplates.Text

/-! ## occurrences -/

section
variable {pat s t : Text} {c : Char}

/-- at the front of a text, a pattern without a character ends before the character -/
theorem prefix_of_prefix_append_cons (hc : c ∉ pat) (h : pat <+: s ++ c :: t) : pat <+: s := by
  rcases List.prefix_or_prefix_of_prefix h (List.prefix_append s (c :: t)) with hpat | ⟨u, rfl⟩
  · exact hpat
  · cases u with
    | nil => exact ⟨[], by simp⟩
    | cons d u =>
      obtain ⟨rfl, -⟩ := List.cons_prefix_cons.1 ((List.prefix_append_right_inj s).1 h)
      exact absurd (List.mem_append_right s List.mem_cons_self) hc

/-- a pattern without a character occurs behind the character -/
theorem infix_of_infix_cons (hc : c ∉ pat) (hne : pat ≠ []) (h : pat <:+: c :: s) : pat <:+: s := by
  rcases List.infix_cons_iff.1 h with h | h
  · obtain ⟨d, pat, rfl⟩ := List.exists_cons_of_ne_nil hne
    obtain ⟨rfl, -⟩ := List.cons_prefix_cons.1 h
    exact absurd List.mem_cons_self hc
  · exact h

theorem infix_of_infix_concat (hc : c ∉ pat) (hne : pat ≠ []) (h : pat <:+: s ++ [c]) :
    pat <:+: s := by
  rw [← List.reverse_infix, List.reverse_append] at h
  rw [← List.reverse_infix]
  exact infix_of_infix_cons (mt List.mem_reverse.1 hc) (mt List.reverse_eq_nil_iff.1 hne) h

/-- a pattern occurs behind characters that it does not have -/
theorem infix_of_infix_append {l : Text} (hl : ∀ c ∈ l, c ∉ pat) (hne : pat ≠ [])
    (h : pat <:+: l ++ s) : pat <:+: s := by
  induction l with
  | nil => exact h
  | cons c l ih =>
    rw [List.forall_mem_cons] at hl
    exact ih hl.2 (infix_of_infix_cons hl.1 hne h)

/-- a pattern without spaces occurs between the spaces around a text -/
theorem infix_of_infix_pad (hpat : ' ' ∉ pat) (hne : pat ≠ []) {l r : Text}
    (hl : ∀ c ∈ l, c = ' ') (hr : ∀ c ∈ r, c = ' ') (h : pat <:+: l ++ s ++ r) : pat <:+: s := by
  have hleft : pat <:+: l ++ s := by
    induction r using List.reverseRecOn with
    | nil => rwa [List.append_nil] at h
    | append_singleton r c ih =>
      rw [List.forall_mem_append, List.forall_mem_singleton] at hr
      obtain ⟨hr, rfl⟩ := hr
      rw [← List.append_assoc] at h
      exact ih hr (infix_of_infix_concat hpat hne h)
  exact infix_of_infix_append (fun c hc => hl c hc ▸ hpat) hne hleft

end

/-! ## the first occurrence -/

theorem find?_eq_none {pat s : Text} (h : ¬ pat <:+: s) : find? pat s = none := by
  rw [← Option.not_isSome_iff_eq_none]
  intro hsome
  obtain ⟨i, hi⟩ := Option.isSome_iff_exists.1 hsome
  exact h ((find?_spec hi).2.isInfix.trans (List.drop_suffix i s).isInfix)

/-- the first occurrence stays the first one when the text goes on -/
theorem find?_append {pat : Text} : ∀ {s : Text} {i : Nat}, find? pat s = some i →
    ∀ t : Text, find? pat (s ++ t) = some i
  | [], i, h, t => by
    have hi := find?_add_length_le h
    obtain rfl : pat = [] := by
      rw [← List.length_eq_zero_iff]
      rw [List.length_nil] at hi
      omega
    cases t <;> exact h
  | c :: s, i, h, t => by
    simp only [find?] at h
    rw [List.cons_append, find?]
    split at h
    · next hp =>
      have hlong : pat <+: c :: (s ++ t) :=
        (List.isPrefixOf_iff_prefix.1 hp).trans (List.prefix_append (c :: s) t)
      rw [if_pos (List.isPrefixOf_iff_prefix.2 hlong), h]
    · next hp =>
      obtain ⟨j, hj, rfl⟩ := Option.map_eq_some_iff.1 h
      -- an occurrence at the front would end before the one that was found
      have hlength : pat.length ≤ (c :: s).length := by
        have := find?_add_length_le hj
        rw [List.length_cons]
        omega
      have hlong : ¬ pat.isPrefixOf (c :: (s ++ t)) := fun hp' =>
        hp (List.isPrefixOf_iff_prefix.2 (List.prefix_of_prefix_length_le
          (List.isPrefixOf_iff_prefix.1 hp') (List.prefix_append (c :: s) t) hlength))
      rw [if_neg hlong, find?_append hj]
      rfl

theorem find?_eq_zero {pat s : Text} (h : pat <+: s) : find? pat s = some 0 := by
  cases s with
  | nil => exact if_pos (List.isPrefixOf_iff_prefix.2 h)
  | cons c s => exact if_pos (List.isPrefixOf_iff_prefix.2 h)

theorem find?_cons {pat s : Text} {c : Char} (h : ¬ pat <+: c :: s) :
    find? pat (c :: s) = (find? pat s).map (· + 1) :=
  if_neg (mt List.isPrefixOf_iff_prefix.1 h)

theorem not_infix_of_find? {pat s : Text} (h : find? pat s = none) : ¬ pat <:+: s := by
  intro hinside
  induction s with
  | nil =>
    rw [find?_eq_zero (List.infix_nil.1 hinside ▸ List.prefix_rfl)] at h
    cases h
  | cons c s ih =>
    by_cases hp : pat <+: c :: s
    · rw [find?_eq_zero hp] at h
      cases h
    · rw [find?_cons hp, Option.map_eq_none_iff] at h
      exact ih h ((List.infix_cons_iff.1 hinside).resolve_left hp)

/-- a pattern is found behind characters that it does not have -/
theorem find?_append_of_not_mem {pat : Text} (hne : pat ≠ []) {l : Text} (hl : ∀ c ∈ l, c ∉ pat)
    (s : Text) : find? pat (l ++ s) = (find? pat s).map (· + l.length) := by
  induction l with
  | nil => exact Option.map_id'.symm
  | cons c l ih =>
    rw [List.forall_mem_cons] at hl
    have hlater : ¬ pat <+: c :: (l ++ s) := by
      intro hp
      obtain ⟨d, pat, rfl⟩ := List.exists_cons_of_ne_nil hne
      obtain ⟨rfl, -⟩ := List.cons_prefix_cons.1 hp
      exact hl.1 List.mem_cons_self
    rw [List.cons_append, find?_cons hlater, ih hl.2, Option.map_map]
    rfl

/-- the first occurrence stays the first one when the text ends with it -/
theorem find?_take {pat : Text} : ∀ {s : Text} {i : Nat}, find? pat s = some i →
    find? pat (s.take (i + pat.length)) = some i
  | [], i, h => by
    rw [List.take_nil]
    exact h
  | c :: s, i, h => by
    by_cases hp : pat <+: c :: s
    · rw [find?_eq_zero hp] at h
      obtain rfl := Option.some.inj h
      rw [Nat.zero_add, ← List.prefix_iff_eq_take.1 hp]
      exact find?_eq_zero List.prefix_rfl
    · rw [find?_cons hp] at h
      obtain ⟨j, hj, rfl⟩ := Option.map_eq_some_iff.1 h
      have htake : (c :: s).take (j + 1 + pat.length) = c :: s.take (j + pat.length) := by
        rw [Nat.add_right_comm, List.take_succ_cons]
      have hlater : ¬ pat <+: c :: s.take (j + pat.length) := by
        intro hp'
        rw [← htake] at hp'
        exact hp (hp'.trans (List.take_prefix _ _))
      rw [htake, find?_cons hlater, find?_take hj]
      rfl

/-- a pattern does not occur in front of its first occurrence -/
theorem not_infix_take {pat s : Text} {i : Nat} (hne : pat ≠ []) (h : find? pat s = some i) :
    ¬ pat <:+: s.take i := by
  intro hinside
  have hsome : find? pat (s.take i) ≠ none := fun hnone => not_infix_of_find? hnone hinside
  obtain ⟨j, hj⟩ := Option.ne_none_iff_exists'.1 hsome
  have hlength := find?_add_length_le hj
  have hfirst : find? pat s = some j := by
    have happend := find?_append hj (s.drop i)
    rwa [List.take_append_drop] at happend
  obtain rfl : i = j := Option.some.inj (h.symm.trans hfirst)
  have hpos := List.length_pos_iff.2 hne
  have htake := List.length_take_le i s
  omega

/-- no occurrence starts in a text without it and reaches behind a character that it does not
have -/
theorem find?_append_cons {pat : Text} {d : Char} (hd : d ∉ pat) {s : Text}
    (h : ¬ pat <:+: s) (t : Text) :
    find? pat (s ++ d :: t) = (find? pat t).map (· + (s.length + 1)) := by
  induction s with
  | nil =>
    exact find?_cons fun hp => h (prefix_of_prefix_append_cons hd hp).isInfix
  | cons c s ih =>
    have hlater : ¬ pat <+: c :: (s ++ d :: t) := by
      intro hp
      rw [← List.cons_append] at hp
      exact h (prefix_of_prefix_append_cons hd hp).isInfix
    have hs : ¬ pat <:+: s := fun hp => h (hp.trans (List.suffix_cons c s).isInfix)
    rw [List.cons_append, find?_cons hlater, ih hs, Option.map_map]
    rfl

/-- behind a text in which it does not begin, a pattern is found where it is in what follows -/
theorem find?_append_of_not_prefix {pat s t : Text}
    (h : ∀ b, b <:+ s → b ≠ [] → ¬ pat <+: b ++ t) :
    find? pat (s ++ t) = (find? pat t).map (· + s.length) := by
  induction s with
  | nil => exact Option.map_id'.symm
  | cons c s ih =>
    have hlater : ¬ pat <+: c :: (s ++ t) := h (c :: s) List.suffix_rfl (List.cons_ne_nil c s)
    rw [List.cons_append, find?_cons hlater, ih fun b hb => h b (hb.trans (List.suffix_cons c s)),
      Option.map_map]
    rfl

/-- behind a text without it, a pattern is found where it stands if its first character occurs
only once in it: no occurrence starts in the text and ends behind it -/
theorem find?_append_self {d : Char} {ds : Text} (hd : d ∉ ds) {s : Text}
    (h : ¬ (d :: ds) <:+: s) (t : Text) :
    find? (d :: ds) (s ++ (d :: ds ++ t)) = some s.length := by
  induction s with
  | nil =>
    have hfront : (d :: ds).isPrefixOf (d :: (ds ++ t)) :=
      List.isPrefixOf_iff_prefix.2 (List.prefix_append (d :: ds) t)
    rw [List.nil_append, List.cons_append, find?, if_pos hfront, List.length_nil]
  | cons c s ih =>
    have hlater : ¬ (d :: ds).isPrefixOf (c :: (s ++ (d :: ds ++ t))) := by
      intro hfront
      obtain ⟨rfl, hrest⟩ := List.cons_prefix_cons.1 (List.isPrefixOf_iff_prefix.1 hfront)
      have hinside : ds <+: s := prefix_of_prefix_append_cons hd hrest
      exact h (List.cons_prefix_cons.2 ⟨rfl, hinside⟩).isInfix
    have hs : ¬ (d :: ds) <:+: s := fun hinside =>
      h (hinside.trans (List.suffix_cons c s).isInfix)
    rw [List.cons_append, find?, if_neg hlater, ih hs, Option.map_some, List.length_cons]

end PageTemplates.Text
