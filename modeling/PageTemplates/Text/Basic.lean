/-!
# Texts as lists of characters

A text is a list of characters, so that every scanner of the library is a recursion on it.
Offsets are counted in bytes of the UTF-8 form (`Text.bytes`); they are a measure on texts and
never an index into one.

* `Text.bytes`      the length of the UTF-8 form;
* `Text.lower`      ASCII lower case;
* `Text.find?`      where a pattern occurs first, in characters;
* `Text.upTo`       what stands before the first of some characters;
* `Text.joinWith`   a list of texts with a separator between any two of them.
-/

namespace PageTemplates

abbrev Text := List Char

namespace Text

/-- the length of the UTF-8 form -/
def bytes : Text → Nat
  | [] => 0
  | c :: s => c.utf8Size + bytes s

@[simp] theorem bytes_nil : bytes [] = 0 := rfl

@[simp] theorem bytes_cons (c : Char) (s : Text) : bytes (c :: s) = c.utf8Size + bytes s := rfl

@[simp] theorem bytes_append (s t : Text) : bytes (s ++ t) = bytes s + bytes t := by
  induction s with
  | nil => rw [List.nil_append, bytes_nil, Nat.zero_add]
  | cons c s ih => rw [List.cons_append, bytes_cons, bytes_cons, ih, Nat.add_assoc]

/-! ## case -/

/-- ASCII letters in lower case, every other character as it is -/
def lower (s : Text) : Text := s.map Char.toLower

@[simp] theorem length_lower (s : Text) : (lower s).length = s.length := by simp [lower]

theorem lower_eq_self {s : Text} (h : ∀ c ∈ s, c.isUpper = false) : lower s = s := by
  have hmap : s.map Char.toLower = s.map id :=
    List.map_congr_left fun c hc => dif_neg (of_decide_eq_false (h c hc))
  exact hmap.trans (List.map_id s)

theorem toLower_eq_self {c : Char} (h : c.isUpper = false) : c.toLower = c :=
  dif_neg (of_decide_eq_false h)

theorem toNat_toLower {c : Char} (h : c.isUpper = true) :
    c.toLower.val.toNat = c.val.toNat + 32 := by
  have hupper : 65 ≤ c.val.toNat ∧ c.val.toNat ≤ 90 := of_decide_eq_true h
  have hval : c.toLower.val = c.val + 32 :=
    congrArg Char.val (dif_pos (of_decide_eq_true h) : c.toLower = _)
  have h32 : (32 : UInt32).toNat = 32 := rfl
  rw [hval, UInt32.toNat_add]
  omega

theorem isLower_toLower {c : Char} (h : c.isUpper = true) : c.toLower.isLower = true := by
  have hupper : 65 ≤ c.val.toNat ∧ c.val.toNat ≤ 90 := of_decide_eq_true h
  have hval := toNat_toLower h
  have hlow : 97 ≤ c.toLower.val.toNat := by omega
  have hhigh : c.toLower.val.toNat ≤ 122 := by omega
  exact Bool.and_eq_true_iff.2 ⟨decide_eq_true hlow, decide_eq_true hhigh⟩

/-- what holds of small letters and of every character that is no capital, holds in lower case -/
theorem toLower_cases {p : Char → Prop} {c : Char} (hlower : ∀ d : Char, d.isLower = true → p d)
    (hother : c.isUpper = false → p c) : p c.toLower := by
  cases hupper : c.isUpper with
  | true => exact hlower _ (isLower_toLower hupper)
  | false =>
    rw [toLower_eq_self hupper]
    exact hother hupper

theorem isUpper_toLower (c : Char) : c.toLower.isUpper = false := by
  cases hupper : c.isUpper with
  | true =>
    have hlow : 65 ≤ c.val.toNat := (of_decide_eq_true hupper).1
    have hval := toNat_toLower hupper
    apply decide_eq_false
    rintro ⟨-, hhigh⟩
    have hhigh : c.toLower.val.toNat ≤ 90 := hhigh
    omega
  | false => rwa [toLower_eq_self hupper]

theorem lower_lower (s : Text) : lower (lower s) = lower s := by
  apply lower_eq_self
  intro c hc
  obtain ⟨d, _, rfl⟩ := List.mem_map.1 hc
  exact isUpper_toLower d

/-! ## searching -/

/-- the number of characters before the first occurrence of `pat` -/
def find? (pat : Text) : Text → Option Nat
  | [] => if pat.isPrefixOf [] then some 0 else none
  | c :: s => if pat.isPrefixOf (c :: s) then some 0 else (find? pat s).map (· + 1)

theorem find?_spec {pat : Text} : ∀ {s : Text} {i : Nat}, find? pat s = some i →
    i ≤ s.length ∧ pat <+: s.drop i
  | [], i, h => by
    simp only [find?] at h
    split at h
    · next hp =>
      obtain rfl := Option.some.inj h
      simpa using List.isPrefixOf_iff_prefix.1 hp
    · simp at h
  | c :: s, i, h => by
    simp only [find?] at h
    split at h
    · next hp =>
      obtain rfl := Option.some.inj h
      simpa using List.isPrefixOf_iff_prefix.1 hp
    · obtain ⟨j, hj, rfl⟩ := Option.map_eq_some_iff.1 h
      obtain ⟨h1, h2⟩ := find?_spec hj
      exact ⟨by simpa using h1, by simpa using h2⟩

/-- an occurrence lies inside the text -/
theorem find?_add_length_le {pat s : Text} {i : Nat} (h : find? pat s = some i) :
    i + pat.length ≤ s.length := by
  obtain ⟨h1, h2⟩ := find?_spec h
  have h3 := h2.length_le
  rw [List.length_drop] at h3
  omega

/-- what stands before the first of the characters that satisfy `p` -/
def upTo (p : Char → Bool) (s : Text) : Text := s.takeWhile (!p ·)

/-- the first of the characters that satisfy `p`, and what follows it -/
def since (p : Char → Bool) (s : Text) : Text := s.dropWhile (!p ·)

theorem upTo_append_since (p : Char → Bool) (s : Text) : upTo p s ++ since p s = s :=
  List.takeWhile_append_dropWhile

theorem length_since_le (p : Char → Bool) (s : Text) : (since p s).length ≤ s.length :=
  (List.dropWhile_sublist _).length_le

theorem length_lt_of_since {p : Char → Bool} {s r : Text} {c : Char} (h : since p s = c :: r) :
    r.length < s.length := by
  have h1 := length_since_le p s
  rw [h] at h1
  exact h1

/-- what follows the first of the characters that satisfy `p`: nothing if there is none -/
def past (p : Char → Bool) (s : Text) : Text := (since p s).drop 1

theorem length_past_le (p : Char → Bool) (s : Text) : (past p s).length ≤ s.length := by
  have h := length_since_le p s
  rw [past, List.length_drop]
  omega

section
variable {p : Char → Bool} {s : Text} {c : Char}

theorem eq_false_of_mem_upTo (h : c ∈ upTo p s) : p c = false := by
  have h1 := List.all_eq_true.1 List.all_takeWhile c h
  rwa [Bool.not_eq_true'] at h1

theorem upTo_eq_self (h : ∀ c ∈ s, p c = false) : upTo p s = s := by
  have h1 : (s ++ []).takeWhile (!p ·) = s ++ [].takeWhile (!p ·) :=
    List.takeWhile_append_of_pos fun c hc => by rw [h c hc]; rfl
  rwa [List.takeWhile_nil, List.append_nil] at h1

theorem since_eq_nil (h : ∀ c ∈ s, p c = false) : since p s = [] := by
  have h1 := upTo_append_since p s
  rw [upTo_eq_self h] at h1
  exact List.append_right_eq_self.1 h1

theorem upTo_append_cons (h : ∀ c ∈ s, p c = false) (hc : p c = true) (r : Text) :
    upTo p (s ++ c :: r) = s := by
  rw [upTo, List.takeWhile_append_of_pos fun c hc => by rw [h c hc]; rfl,
    List.takeWhile_cons_of_neg (by rw [hc]; exact Bool.false_ne_true), List.append_nil]

theorem since_append_cons (h : ∀ c ∈ s, p c = false) (hc : p c = true) (r : Text) :
    since p (s ++ c :: r) = c :: r := by
  rw [since, List.dropWhile_append_of_pos fun c hc => by rw [h c hc]; rfl,
    List.dropWhile_cons_of_neg (by rw [hc]; exact Bool.false_ne_true)]

theorem past_append_cons (h : ∀ c ∈ s, p c = false) (hc : p c = true) (r : Text) :
    past p (s ++ c :: r) = r := by
  rw [past, since_append_cons h hc]
  rfl

end

/-! ## joining -/

/-- the texts one after another, with `sep` between any two neighbours -/
def joinWith (sep : Text) : List Text → Text
  | [] => []
  | [s] => s
  | s :: t :: r => s ++ sep ++ joinWith sep (t :: r)

@[simp] theorem joinWith_nil (sep : Text) : joinWith sep [] = [] := rfl
@[simp] theorem joinWith_singleton (sep s : Text) : joinWith sep [s] = s := rfl
theorem joinWith_cons_cons (sep s t : Text) (r : List Text) :
    joinWith sep (s :: t :: r) = s ++ sep ++ joinWith sep (t :: r) := rfl

theorem mem_joinWith {sep : Text} {parts : List Text} {c : Char} :
    c ∈ joinWith sep parts → c ∈ sep ∨ ∃ s ∈ parts, c ∈ s := by
  induction parts with
  | nil => exact fun h => absurd h List.not_mem_nil
  | cons s rest ih =>
    intro h
    cases rest with
    | nil => exact .inr ⟨s, List.mem_cons_self, h⟩
    | cons t rest =>
      rw [joinWith_cons_cons, List.mem_append, List.mem_append] at h
      rcases h with (h | h) | h
      · exact .inr ⟨s, List.mem_cons_self, h⟩
      · exact .inl h
      · rcases ih h with h | ⟨u, hu, h⟩
        · exact .inl h
        · exact .inr ⟨u, List.mem_cons_of_mem s hu, h⟩

theorem subset_joinWith (sep : Text) {parts : List Text} {s : Text} (h : s ∈ parts) :
    s ⊆ joinWith sep parts := by
  induction parts with
  | nil => cases h
  | cons t rest ih =>
    cases rest with
    | nil => exact (List.mem_singleton.1 h).symm ▸ List.Subset.refl _
    | cons u rest =>
      rw [joinWith_cons_cons]
      rcases List.mem_cons.1 h with rfl | h
      · exact List.Subset.trans (List.subset_append_left _ _) (List.subset_append_left _ _)
      · exact List.Subset.trans (ih h) (List.subset_append_right _ _)

/-! ## order -/

/-- the order of code points, character by character -/
def le (s t : Text) : Bool := !decide (t < s)

end Text

/-- the text as a string -/
def str (s : Text) : String := String.ofList s

end PageTemplates
