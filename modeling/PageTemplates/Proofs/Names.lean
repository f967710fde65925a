import Mathlib.Data.List.Nodup
import PageTemplates.NameMap

/-!
# Looking up names

What `NameMap.get?` finds, in terms of the entries and after each operation.

* `get?_eq_some_iff`   an entry and what is found under its name;
* `get?_insert`        one more entry, behind the others;
* `get?_ofList`        the first entry of a list;
* `sorted_perm`        sorting keeps the entries;
* `find?_sorted`       and what is found.
-/

namespace PageTemplates.NameMap
variable {α : Type} {m : NameMap α} {name : Text} {a : α}

theorem get?_eq_some_iff : m.get? name = some a ↔ (name, a) ∈ m.entries := by
  unfold get?
  constructor
  · intro h
    obtain ⟨e, he, rfl⟩ := Option.map_eq_some_iff.1 h
    have hbeq := List.find?_some he
    have hname : e.1 = name := eq_of_beq hbeq
    rw [← hname]
    exact List.mem_of_find?_eq_some he
  · intro h
    cases hf : m.entries.find? (·.1 == name) with
    | none => exact absurd (List.find?_eq_none.1 hf _ h) (by simp)
    | some e =>
      have hbeq := List.find?_some hf
      have hname : e.1 = name := eq_of_beq hbeq
      have hfst : e = (name, a) :=
        List.inj_on_of_nodup_map m.nodup (List.mem_of_find?_eq_some hf) h hname
      rw [hfst, Option.map_some]

theorem mem_names_iff : name ∈ m.names ↔ ∃ a, m.get? name = some a := by
  unfold names
  rw [List.mem_map]
  constructor
  · rintro ⟨e, he, rfl⟩
    exact ⟨e.2, get?_eq_some_iff.2 he⟩
  · rintro ⟨a, ha⟩
    exact ⟨_, get?_eq_some_iff.1 ha, rfl⟩

theorem get?_insert (other : Text) :
    (m.insert other a).get? name = (m.get? name).or (if other = name then some a else none) := by
  by_cases h : other ∈ m.names
  · rw [insert_of_mem h]
    by_cases hn : other = name
    · obtain ⟨b, hb⟩ := mem_names_iff.1 h
      rw [← hn, hb, Option.some_or]
    · rw [if_neg hn, Option.or_none]
  · unfold get?
    rw [entries_insert_of_not_mem h, List.find?_append, List.find?_singleton]
    by_cases hn : other = name
    · rw [if_pos hn, hn, beq_self_eq_true]
      cases m.entries.find? (·.1 == name) <;> rfl
    · rw [if_neg hn, beq_false_of_ne hn]
      cases m.entries.find? (·.1 == name) <;> rfl

/-- entries inserted one after another stand behind those that are there -/
theorem get?_foldl_insert (l : List (Text × α)) (m : NameMap α) :
    (l.foldl (fun m e => m.insert e.1 e.2) m).get? name
      = (m.get? name).or ((l.find? (·.1 == name)).map Prod.snd) := by
  induction l generalizing m with
  | nil => rw [List.foldl_nil, List.find?_nil, Option.map_none, Option.or_none]
  | cons e l ih =>
    rw [List.foldl_cons, ih, get?_insert, Option.or_assoc, List.find?_cons]
    by_cases hn : e.1 = name
    · rw [if_pos hn, hn, beq_self_eq_true]
      rfl
    · rw [if_neg hn, beq_false_of_ne hn]
      rfl

theorem get?_ofList (l : List (Text × α)) :
    (ofList l).get? name = (l.find? (·.1 == name)).map Prod.snd := by
  unfold ofList
  rw [get?_foldl_insert, get?_empty, Option.none_or]

theorem entries_foldl_insert (l : List (Text × α)) (m : NameMap α)
    (h : ((m.entries ++ l).map Prod.fst).Nodup) :
    (l.foldl (fun m e => m.insert e.1 e.2) m).entries = m.entries ++ l := by
  induction l generalizing m with
  | nil => rw [List.foldl_nil, List.append_nil]
  | cons e l ih =>
    have hnew : e.1 ∉ m.names := by
      rw [List.map_append, List.nodup_append] at h
      exact fun hmem => h.2.2 _ hmem _ List.mem_cons_self rfl
    have hentries := entries_insert_of_not_mem (a := e.2) hnew
    rw [List.foldl_cons, ih, hentries, List.append_assoc, List.singleton_append]
    rwa [hentries, List.append_assoc, List.singleton_append]

/-- the entries of a list, the first of each name -/
theorem entries_foldl_insert_eraseDupsBy (l : List (Text × α)) (m : NameMap α) :
    (l.foldl (fun m e => m.insert e.1 e.2) m).entries
      = m.entries ++ (l.filter fun e => !m.contains e.1).eraseDupsBy fun a b => a.1 == b.1 := by
  induction l generalizing m with
  | nil => simp
  | cons e l ih =>
    rw [List.foldl_cons, ih, List.filter_cons]
    by_cases h : e.1 ∈ m.names
    · rw [insert_of_mem h, contains_iff.2 h]
      rfl
    · have hcontains : m.contains e.1 = false :=
        Bool.eq_false_iff.2 fun hc => h (contains_iff.1 hc)
      -- the later entries of the name go, with the ones whose names are taken
      have hfilter : (fun b : Text × α => !(m.insert e.1 e.2).contains b.1)
          = fun b => decide ((b.1 == e.1) = false) && !m.contains b.1 := by
        funext b
        rw [contains, names, entries_insert_of_not_mem h, contains, names]
        by_cases hb : b.1 = e.1 <;> simp [hb]
      rw [entries_insert_of_not_mem h, hcontains, hfilter, Bool.not_false, if_pos rfl,
        List.eraseDupsBy_cons, List.filter_filter, List.append_assoc]
      rfl

theorem entries_ofList (l : List (Text × α)) :
    (ofList l).entries = l.eraseDupsBy fun a b => a.1 == b.1 := by
  rw [ofList, entries_foldl_insert_eraseDupsBy]
  simp [contains, names]

/-- a map is what its entries make, one after another -/
theorem ofList_entries (m : NameMap α) : ofList m.entries = m := by
  have h : (ofList m.entries).entries = m.entries :=
    entries_foldl_insert m.entries empty m.nodup
  cases hm : ofList m.entries
  rw [hm] at h
  subst h
  rfl

theorem mem_names_ofList {l : List (Text × α)} :
    name ∈ (ofList l).names ↔ name ∈ l.map Prod.fst := by
  rw [mem_names_iff, get?_ofList, List.mem_map]
  constructor
  · rintro ⟨a, ha⟩
    obtain ⟨e, he, _⟩ := Option.map_eq_some_iff.1 ha
    have hbeq := List.find?_some he
    exact ⟨e, List.mem_of_find?_eq_some he, eq_of_beq hbeq⟩
  · rintro ⟨e, he, rfl⟩
    cases hf : l.find? (·.1 == e.1) with
    | none => exact absurd (List.find?_eq_none.1 hf e he) (by simp)
    | some e' => exact ⟨e'.2, rfl⟩

theorem get?_without (m : NameMap α) (gone : List Text) (name : Text) :
    (m.without gone).get? name = if name ∈ gone then none else m.get? name := by
  apply Option.ext
  intro a
  rw [get?_eq_some_iff, entries_without, List.mem_filter, Bool.not_eq_true', ← Bool.not_eq_true,
    List.contains_iff_mem]
  by_cases h : name ∈ gone
  · rw [if_pos h]
    exact ⟨fun hm => absurd h hm.2, fun hn => by cases hn⟩
  · rw [if_neg h, get?_eq_some_iff]
    exact and_iff_left h

theorem sorted_perm (m : NameMap α) : m.sorted.Perm m.entries := List.mergeSort_perm _ _

theorem nodup_sorted (m : NameMap α) : (m.sorted.map Prod.fst).Nodup :=
  (m.sorted_perm.map Prod.fst).nodup_iff.2 m.nodup

theorem find?_sorted (m : NameMap α) (name : Text) :
    (m.sorted.find? (·.1 == name)).map Prod.snd = m.get? name := by
  apply Option.ext
  intro a
  have h : get? ⟨m.sorted, m.nodup_sorted⟩ name = some a ↔ (name, a) ∈ m.sorted :=
    get?_eq_some_iff
  rw [get?_eq_some_iff, ← m.sorted_perm.mem_iff]
  exact h

end PageTemplates.NameMap
