import Mathlib.Data.List.Infix
import PageTemplates.Html.Reference
import PageTemplates.Proofs.Parts

/-!
# Encodings of a text

A character may be written as it is, by its name, or by its number; every mixture of these is
read back.  What `decode` looks for, in turn, is a text between `&` and `;` that denotes a
character and takes at most nine bytes.

* `Text.natOf?_toDigits`   the numeral of a number is read as that number;
* `Denotes`                names and numbers of characters;
* `Refers`                 those that fit between `&` and `;`;
* `next?_eq_some_iff`      one reference at the front of a text;
* `decode_append_less`     no reference goes on behind a `<`;
* `Encoded`                the ways in which a character can be written;
* `decode_encoded`         reading an encoding, and reading a text without references.
-/

namespace PageTemplates

/-! ## digits -/

section
variable {base d : Nat} {c : Char}

theorem digit?_toLower (base : Nat) (c : Char) : digit? base c.toLower = digit? base c := by
  cases hupper : c.isUpper with
  | false => rw [Text.toLower_eq_self hupper]
  | true =>
    have hc : 65 ≤ c.toNat ∧ c.toNat ≤ 90 := of_decide_eq_true hupper
    have hlower : c.toLower.toNat = c.toNat + 32 := Text.toNat_toLower hupper
    simp only [digit?, hlower]
    grind

/-- digits have the same value in every base that they belong to -/
theorem digit?_of_lt (h : digit? base c = some d) {other : Nat} (hd : d < other) :
    digit? other c = some d := by
  unfold digit? at h ⊢
  grind

theorem digit?_digitChar (hd : d < base) (hbase : base ≤ 16) :
    digit? base d.digitChar = some d := by
  have hall : ∀ d < 16, digit? 16 d.digitChar = some d := by decide
  exact digit?_of_lt (hall d (by omega)) hd

/-- a digit is an ASCII digit or letter -/
theorem toNat_of_digit? (h : digit? base c = some d) :
    (48 ≤ c.toNat ∧ c.toNat ≤ 57) ∨ (65 ≤ c.toNat ∧ c.toNat ≤ 90) ∨
      (97 ≤ c.toNat ∧ c.toNat ≤ 122) := by
  unfold digit? at h
  grind

theorem utf8Size_of_digit? (h : digit? base c = some d) : c.utf8Size = 1 := by
  have hrange := toNat_of_digit? h
  have hc : c.val.toNat ≤ 127 := show c.toNat ≤ 127 by omega
  rw [Char.utf8Size, if_pos (UInt32.le_iff_toNat_le.2 hc)]

end

namespace Text
variable {base n : Nat} {digits : Text}

theorem natOf?_append_singleton (base : Nat) (digits : Text) (c : Char) :
    natOf? base (digits ++ [c])
      = (natOf? base digits).bind fun n => (digit? base c).map (n * base + ·) := by
  rw [natOf?, List.foldlM_append]
  simp [natOf?]

theorem natOf?_lower (base : Nat) (digits : Text) :
    natOf? base (lower digits) = natOf? base digits := by
  rw [natOf?, lower, List.foldlM_map]
  simp only [digit?_toLower]
  rfl

theorem natOf?_toDigits (hbase : 1 < base) (hsixteen : base ≤ 16) (n : Nat) :
    natOf? base (Nat.toDigits base n) = some n := by
  induction n using Nat.strongRecOn with
  | ind n ih =>
    rw [Nat.toDigits_eq_if hbase]
    split
    · next hn =>
      have hconcat := natOf?_concat (natOf?_nil base) (digit?_digitChar hn hsixteen)
      rwa [Nat.zero_mul, Nat.zero_add] at hconcat
    · next hn =>
      have hdiv : n / base < n := Nat.div_lt_self (by omega) hbase
      have hmod : n % base < base := Nat.mod_lt n (by omega)
      have hconcat := natOf?_concat (ih _ hdiv) (digit?_digitChar hmod hsixteen)
      rwa [Nat.mul_comm, Nat.div_add_mod] at hconcat

/-- every character of a numeral is a digit -/
theorem exists_digit? (h : natOf? base digits = some n) :
    ∀ c ∈ digits, ∃ d, digit? base c = some d := by
  induction digits using List.reverseRecOn generalizing n with
  | nil => simp
  | append_singleton digits c ih =>
    rw [natOf?_append_singleton] at h
    obtain ⟨m, hm, hc⟩ := Option.bind_eq_some_iff.1 h
    obtain ⟨d, hd, -⟩ := Option.map_eq_some_iff.1 hc
    intro e he
    rcases List.mem_append.1 he with he | he
    · exact ih hm e he
    · obtain rfl := List.mem_singleton.1 he
      exact ⟨d, hd⟩

/-- a numeral takes one byte per digit -/
theorem bytes_of_natOf? (h : natOf? base digits = some n) : bytes digits = digits.length := by
  have hall := exists_digit? h
  clear h
  induction digits with
  | nil => rfl
  | cons c digits ih =>
    obtain ⟨hc, hrest⟩ := List.forall_mem_cons.1 hall
    obtain ⟨d, hd⟩ := hc
    rw [bytes_cons, List.length_cons, utf8Size_of_digit? hd, ih hrest, Nat.add_comm]

theorem not_mem_of_natOf? (h : natOf? base digits = some n) {c : Char}
    (hc : c.toNat < 48 ∨ 57 < c.toNat ∧ c.toNat < 65) : c ∉ digits := by
  intro hmem
  obtain ⟨d, hd⟩ := exists_digit? h c hmem
  have hrange := toNat_of_digit? hd
  omega

end Text

namespace Html.Reference

/-! ## what a reference denotes -/

/-- the name of a character, if it has one -/
def nameOf? : Char → Option Text
  | '&' => some "amp".toList
  | '<' => some "lt".toList
  | '>' => some "gt".toList
  | '"' => some "quot".toList
  | '\'' => some "apos".toList
  | '\u00a0' => some "nbsp".toList
  | _ => none

/-- a name or a number of a character; a plus sign may stand in front of the digits of a number -/
inductive Denotes (c : Char) : Text → Prop where
  | named {name : Text} (hname : nameOf? c = some name) : Denotes c name
  | decimal {sign digits : Text} (hsign : sign = [] ∨ sign = ['+']) (hdigits : digits ≠ [])
      (hvalue : Text.natOf? 10 digits = some c.toNat) : Denotes c ('#' :: (sign ++ digits))
  | hexadecimal {mark : Char} {sign digits : Text} (hmark : mark = 'x' ∨ mark = 'X')
      (hsign : sign = [] ∨ sign = ['+']) (hdigits : digits ≠ [])
      (hvalue : Text.natOf? 16 digits = some c.toNat) :
      Denotes c ('#' :: mark :: (sign ++ digits))

theorem mem_of_lookup {α β : Type} [BEq α] [LawfulBEq α] {l : List (α × β)} {a : α} {b : β}
    (h : l.lookup a = some b) : (a, b) ∈ l := by
  obtain ⟨s, t, rfl, -⟩ := List.lookup_eq_some_iff.1 h
  exact List.mem_append_right s List.mem_cons_self

theorem lookup_namedCharacters {name : Text} {c : Char} :
    namedCharacters.lookup name = some c ↔ nameOf? c = some name := by
  constructor
  · intro h
    have hall : ∀ e ∈ namedCharacters, nameOf? e.2 = some e.1 := by decide
    exact hall (name, c) (mem_of_lookup h)
  · intro h
    unfold nameOf? at h
    split at h <;> cases h <;> rfl

theorem scalar?_eq_some_iff {n : Nat} {c : Char} : scalar? n = some c ↔ n = c.toNat := by
  unfold scalar?
  constructor
  · intro h
    obtain ⟨hn, hc⟩ := Option.ite_none_right_eq_some.1 h
    obtain rfl := Option.some.inj hc
    rw [Char.ofNat, dif_pos hn]
    rfl
  · rintro rfl
    have hvalid : c.toNat.isValidChar := c.valid
    rw [if_pos hvalid, Char.ofNat_toNat]

theorem bind_scalar?_eq_some_iff {n : Option Nat} {c : Char} :
    n >>= scalar? = some c ↔ n = some c.toNat := by
  rw [Option.bind_eq_bind, Option.bind_eq_some_iff]
  constructor
  · rintro ⟨m, hm, hc⟩
    rw [hm, scalar?_eq_some_iff.1 hc]
  · exact fun h => ⟨c.toNat, h, scalar?_eq_some_iff.2 rfl⟩

theorem number?_eq_some_iff {base n : Nat} {s : Text} : number? base s = some n ↔
    ∃ sign digits, s = sign ++ digits ∧ (sign = [] ∨ sign = ['+']) ∧ digits ≠ [] ∧
      Text.natOf? base digits = some n := by
  constructor
  · intro h
    unfold number? at h
    split at h
    · cases h
    · next s =>
      split at h
      · cases h
      · next hs => exact ⟨['+'], s, rfl, .inr rfl, by simpa using hs, h⟩
    · next hs _ => exact ⟨[], s, rfl, .inl rfl, hs, h⟩
  · rintro ⟨sign, digits, rfl, rfl | rfl, hdigits, hvalue⟩
    · have hplus : '+' ∉ digits := Text.not_mem_of_natOf? hvalue (by decide)
      rw [List.nil_append, number?]
      · exact hvalue
      · exact hdigits
      · rintro s rfl
        exact hplus List.mem_cons_self
    · show (if digits.isEmpty then none else Text.natOf? base digits) = some n
      rw [if_neg (by simpa using hdigits), hvalue]

theorem meaning?_eq_some_iff {s : Text} {c : Char} : meaning? s = some c ↔ Denotes c s := by
  constructor
  · intro h
    unfold meaning? at h
    split at h
    · obtain ⟨sign, digits, rfl, hsign, hdigits, hvalue⟩ :=
        number?_eq_some_iff.1 (bind_scalar?_eq_some_iff.1 h)
      exact .hexadecimal (.inl rfl) hsign hdigits hvalue
    · obtain ⟨sign, digits, rfl, hsign, hdigits, hvalue⟩ :=
        number?_eq_some_iff.1 (bind_scalar?_eq_some_iff.1 h)
      exact .hexadecimal (.inr rfl) hsign hdigits hvalue
    · obtain ⟨sign, digits, rfl, hsign, hdigits, hvalue⟩ :=
        number?_eq_some_iff.1 (bind_scalar?_eq_some_iff.1 h)
      exact .decimal hsign hdigits hvalue
    · exact .named (lookup_namedCharacters.1 h)
  · intro h
    cases h with
    | named hname =>
      rw [← lookup_namedCharacters] at hname
      rw [meaning?, hname]
      all_goals
        rintro s rfl
        cases hname
    | @decimal sign digits hsign hdigits hvalue =>
      have hnumber : number? 10 (sign ++ digits) = some c.toNat :=
        number?_eq_some_iff.2 ⟨sign, digits, rfl, hsign, hdigits, hvalue⟩
      -- neither a sign nor a decimal digit is a mark
      have hfront {mark : Char} (hmark : mark = 'x' ∨ mark = 'X') (s : Text)
          (h : sign ++ digits = mark :: s) : False := by
        rcases hsign with rfl | rfl
        · have hmem : mark ∈ digits := by
            rw [List.nil_append] at h
            rw [h]
            exact List.mem_cons_self
          obtain ⟨d, hd⟩ := Text.exists_digit? hvalue mark hmem
          rcases hmark with rfl | rfl <;> cases hd
        · obtain ⟨rfl, -⟩ := List.cons.inj h
          rcases hmark with hmark | hmark <;> cases hmark
      rw [meaning?, bind_scalar?_eq_some_iff, hnumber]
      · exact fun s => hfront (.inl rfl) s
      · exact fun s => hfront (.inr rfl) s
    | @hexadecimal mark sign digits hmark hsign hdigits hvalue =>
      have hnumber : number? 16 (sign ++ digits) = some c.toNat :=
        number?_eq_some_iff.2 ⟨sign, digits, rfl, hsign, hdigits, hvalue⟩
      rcases hmark with rfl | rfl <;> rw [meaning?, bind_scalar?_eq_some_iff, hnumber]

/-- what a reference denotes holds no semicolon, and no tag begins in it -/
theorem Denotes.not_mem {s : Text} {c : Char} (h : Denotes c s) : ';' ∉ s ∧ '<' ∉ s := by
  have hnumber {base : Nat} {sign digits : Text} (hsign : sign = [] ∨ sign = ['+'])
      (hvalue : Text.natOf? base digits = some c.toNat) :
      ';' ∉ sign ++ digits ∧ '<' ∉ sign ++ digits := by
    have hdigits : ';' ∉ digits ∧ '<' ∉ digits :=
      ⟨Text.not_mem_of_natOf? hvalue (by decide), Text.not_mem_of_natOf? hvalue (by decide)⟩
    rcases hsign with rfl | rfl <;> simpa using hdigits
  cases h with
  | named hname =>
    unfold nameOf? at hname
    split at hname <;> cases hname <;> decide
  | decimal hsign hdigits hvalue => simpa using hnumber hsign hvalue
  | hexadecimal hmark hsign hdigits hvalue =>
    rcases hmark with rfl | rfl <;> simpa using hnumber hsign hvalue

/-- what can stand between `&` and `;` for a character -/
structure Refers (name : Text) (c : Char) : Prop where
  denotes : Denotes c name
  short : Text.bytes name ≤ 9

/-- the reference in front of a text, without its `&` -/
theorem next?_eq_some_iff {s rest : Text} {c : Char} :
    next? s = some (c, rest) ↔ ∃ name, s = name ++ ';' :: rest ∧ Refers name c := by
  constructor
  · intro h
    unfold next? at h
    split at h
    · next hbytes =>
      split at h
      · cases h
      · next d rest' hsince =>
        obtain ⟨c', hmeaning, he⟩ := Option.map_eq_some_iff.1 h
        obtain ⟨rfl, rfl⟩ := Prod.mk.inj he
        obtain rfl : d = ';' := eq_of_beq (Text.eq_true_of_since (p := ending) hsince)
        have hsplit := Text.upTo_append_since ending s
        rw [hsince] at hsplit
        exact ⟨_, hsplit.symm, meaning?_eq_some_iff.1 hmeaning, hbytes⟩
    · cases h
  · rintro ⟨name, rfl, hdenotes, hshort⟩
    have hending : ∀ d ∈ name, ending d = false := by
      intro d hd
      rw [ending, beq_eq_false_iff_ne]
      rintro rfl
      exact hdenotes.not_mem.1 hd
    have hupTo : Text.upTo ending (name ++ ';' :: rest) = name :=
      Text.upTo_append_cons hending rfl rest
    have hsince : Text.since ending (name ++ ';' :: rest) = ';' :: rest :=
      Text.since_append_cons hending rfl rest
    rw [next?, hupTo, if_pos hshort, hsince, meaning?_eq_some_iff.2 hdenotes]
    rfl

/-! ## reading a text -/

theorem decode_cons_of_ne {c : Char} (h : c ≠ '&') (s : Text) :
    decode (c :: s) = c :: decode s := by
  rw [decode, if_neg h]

theorem decode_reference {name : Text} {c : Char} (h : Refers name c) (s : Text) :
    decode ('&' :: (name ++ ';' :: s)) = c :: decode s := by
  have hnext : next? (name ++ ';' :: s) = some (c, s) := next?_eq_some_iff.2 ⟨name, rfl, h⟩
  rw [decode, if_pos rfl]
  split
  · next heq =>
    rw [hnext] at heq
    cases heq
    rfl
  · next heq =>
    rw [hnext] at heq
    cases heq

/-- a reference does not go on behind a `<` -/
theorem next?_append_less (s t : Text) :
    next? (s ++ '<' :: t) = (next? s).map fun r => (r.1, r.2 ++ '<' :: t) := by
  cases hnext : next? s with
  | some r =>
    obtain ⟨name, rfl, href⟩ := next?_eq_some_iff.1 hnext
    exact next?_eq_some_iff.2 ⟨name, List.append_assoc _ _ _, href⟩
  | none =>
    rw [Option.map_none, Option.eq_none_iff_forall_ne_some]
    rintro ⟨c, rest⟩ hlong
    obtain ⟨name, hsplit, href⟩ := next?_eq_some_iff.1 hlong
    rcases List.append_eq_append_iff.1 hsplit with ⟨u, rfl, hu⟩ | ⟨u, rfl, hu⟩
    · -- the `<` would stand in the name
      cases u with
      | nil => cases hu
      | cons d u =>
        obtain rfl := (List.cons.inj hu).1
        exact href.denotes.not_mem.2 (List.mem_append_right s List.mem_cons_self)
    · cases u with
      | nil => cases hu
      | cons d u =>
        obtain rfl := (List.cons.inj hu).1
        rw [next?_eq_some_iff.2 ⟨name, rfl, href⟩] at hnext
        cases hnext

theorem decode_append_less (s t : Text) :
    decode (s ++ '<' :: t) = decode s ++ decode ('<' :: t) := by
  fun_induction decode s with
  | case1 => rfl
  | case2 s d rest hnext ih =>
    obtain ⟨name, rfl, href⟩ := next?_eq_some_iff.1 hnext
    rw [List.cons_append, List.append_assoc, List.cons_append, decode_reference href, ih]
    rfl
  | case3 s hnext ih =>
    have hlong : next? (s ++ '<' :: t) = none := by
      rw [next?_append_less, hnext]
      rfl
    rw [List.cons_append, decode, if_pos rfl]
    split
    · next heq =>
      rw [hlong] at heq
      cases heq
    · rw [ih]
      rfl
  | case4 c s hc ih => rw [List.cons_append, decode_cons_of_ne hc, ih, List.cons_append]

theorem length_decode_le (s : Text) : (decode s).length ≤ s.length := by
  fun_induction decode s with
  | case1 => simp
  | case2 s d rest hnext ih =>
    have := length_lt_of_next? hnext
    simp only [List.length_cons]
    omega
  | case3 s hnext ih => simpa using ih
  | case4 c s hc ih => simpa using ih

/-- some reference stands in the text -/
def Decodable (source : Text) : Prop :=
  ∃ name c, Refers name c ∧ '&' :: (name ++ [';']) <:+: source

theorem decodable_cons_iff {c : Char} {s : Text} :
    Decodable (c :: s) ↔ (c = '&' ∧ (next? s).isSome) ∨ Decodable s := by
  constructor
  · rintro ⟨name, d, href, hinfix⟩
    rcases List.infix_cons_iff.1 hinfix with ⟨rest, hrest⟩ | hinfix
    · obtain ⟨rfl, hs⟩ := List.cons.inj hrest
      have hsplit : s = name ++ ';' :: rest := hs.symm.trans (List.append_assoc name [';'] rest)
      rw [next?_eq_some_iff.2 ⟨name, hsplit, href⟩]
      exact .inl ⟨rfl, rfl⟩
    · exact .inr ⟨name, d, href, hinfix⟩
  · rintro (⟨rfl, hnext⟩ | ⟨name, d, href, hinfix⟩)
    · obtain ⟨⟨d, rest⟩, hnext⟩ := Option.isSome_iff_exists.1 hnext
      obtain ⟨name, rfl, href⟩ := next?_eq_some_iff.1 hnext
      refine ⟨name, d, href, [], rest, ?_⟩
      simp
    · exact ⟨name, d, href, hinfix.trans (List.infix_cons (List.infix_refl s))⟩

/-- a text stays as it is if and only if it holds no reference: every reference makes it shorter -/
theorem decode_eq_self_iff (s : Text) : decode s = s ↔ ¬ Decodable s := by
  fun_induction decode s with
  | case1 =>
    refine ⟨fun _ => ?_, fun _ => rfl⟩
    rintro ⟨name, c, -, hinfix⟩
    cases List.infix_nil.1 hinfix
  | case2 s d rest hnext ih =>
    have hshort : (d :: decode rest).length < ('&' :: s).length := by
      have hrest := length_decode_le rest
      have hlt := length_lt_of_next? hnext
      simp only [List.length_cons]
      omega
    have hsome : (next? s).isSome := by rw [hnext]; rfl
    rw [decodable_cons_iff]
    refine ⟨fun heq => ?_, fun hnone => absurd (.inl ⟨rfl, hsome⟩) hnone⟩
    rw [heq] at hshort
    exact absurd hshort (Nat.lt_irrefl _)
  | case3 s hnext ih =>
    rw [decodable_cons_iff, List.cons_inj_right, ih, hnext]
    simp
  | case4 c s hc ih =>
    rw [decodable_cons_iff, List.cons_inj_right, ih]
    simp [hc]

/-! ## writing a text -/

/-- the ways in which a character can be written -/
inductive Encoded (c : Char) : Text → Prop where
  | plain (h : c ≠ '&') : Encoded c [c]
  | named {name : Text} (h : nameOf? c = some name) : Encoded c ('&' :: (name ++ [';']))
  | decimal : Encoded c ('&' :: '#' :: (Nat.toDigits 10 c.toNat ++ [';']))
  | hexadecimal {mark : Char} {digits : Text} (hmark : mark = 'x' ∨ mark = 'X')
      (h : Text.lower digits = Nat.toDigits 16 c.toNat) :
      Encoded c ('&' :: '#' :: mark :: (digits ++ [';']))

theorem refers_named {name : Text} {c : Char} (h : nameOf? c = some name) : Refers name c := by
  refine ⟨.named h, ?_⟩
  unfold nameOf? at h
  split at h <;> cases h <;> decide

/-- the number of any character fits, in either base -/
theorem length_toDigits_toNat (c : Char) :
    (Nat.toDigits 10 c.toNat).length ≤ 7 ∧ (Nat.toDigits 16 c.toNat).length ≤ 6 := by
  have hc : c.toNat < 1114112 := by
    have hvalid : c.toNat.isValidChar := c.valid
    rcases hvalid with h | h <;> omega
  constructor
  · exact (Nat.length_toDigits_le_iff (by decide) (by decide)).2 (by omega)
  · exact (Nat.length_toDigits_le_iff (by decide) (by decide)).2 (by omega)

theorem refers_decimal (c : Char) : Refers ('#' :: Nat.toDigits 10 c.toNat) c := by
  have hvalue : Text.natOf? 10 (Nat.toDigits 10 c.toNat) = some c.toNat :=
    Text.natOf?_toDigits (by decide) (by decide) c.toNat
  refine ⟨.decimal (.inl rfl) Nat.toDigits_ne_nil hvalue, ?_⟩
  have hlength := (length_toDigits_toNat c).1
  have hmark : Char.utf8Size '#' = 1 := rfl
  rw [Text.bytes_cons, Text.bytes_of_natOf? hvalue]
  omega

theorem refers_hexadecimal {c mark : Char} {digits : Text} (hmark : mark = 'x' ∨ mark = 'X')
    (h : Text.lower digits = Nat.toDigits 16 c.toNat) : Refers ('#' :: mark :: digits) c := by
  have hvalue : Text.natOf? 16 digits = some c.toNat := by
    rw [← Text.natOf?_lower, h]
    exact Text.natOf?_toDigits (by decide) (by decide) c.toNat
  have hlength : digits.length ≤ 6 := by
    rw [← Text.length_lower digits, h]
    exact (length_toDigits_toNat c).2
  refine ⟨.hexadecimal hmark (.inl rfl) ?_ hvalue, ?_⟩
  · rintro rfl
    exact Nat.toDigits_ne_nil h.symm
  · have hmarks : Char.utf8Size '#' = 1 ∧ mark.utf8Size = 1 := by
      rcases hmark with rfl | rfl <;> exact ⟨rfl, rfl⟩
    rw [Text.bytes_cons, Text.bytes_cons, Text.bytes_of_natOf? hvalue]
    omega

/-- a written character is read back, whatever follows -/
theorem Encoded.decode_append {c : Char} {t : Text} (h : Encoded c t) (s : Text) :
    decode (t ++ s) = c :: decode s := by
  have hreference {name : Text} (href : Refers name c) :
      decode ('&' :: (name ++ [';']) ++ s) = c :: decode s := by
    have happend : '&' :: (name ++ [';']) ++ s = '&' :: (name ++ ';' :: s) := by simp
    rw [happend, decode_reference href]
  cases h with
  | plain hc => exact decode_cons_of_ne hc s
  | named hname => exact hreference (refers_named hname)
  | decimal => exact hreference (refers_decimal c)
  | hexadecimal hmark hdigits => exact hreference (refers_hexadecimal hmark hdigits)

/-- **Every encoding is read back.**  Each character may be written in any of its ways, whatever
its neighbours are, and a text in which nothing can be read as a reference stays as it is. -/
theorem decode_encoded :
    (∀ s parts, List.Forall₂ Encoded s parts → decode parts.flatten = s) ∧
    ∀ source, decode source = source ↔ ¬ Decodable source := by
  refine ⟨fun s parts h => ?_, decode_eq_self_iff⟩
  induction h with
  | nil => rw [List.flatten_nil, decode]
  | cons hc hrest ih => rw [List.flatten_cons, hc.decode_append, ih]

/-- the last character of all, by either number, between characters that need no reference -/
def mixture : List Text :=
  ["&amp;", "&#X10fFfF;", ";", "&nbsp;", "&#1114111;", "#", "&#x3C;"].map String.toList

theorem decode_encoded_mixture :
    List.Forall₂ Encoded ['&', Char.ofNat 0x10ffff, ';', '\u00a0', Char.ofNat 0x10ffff, '#', '<']
        mixture ∧
      decode mixture.flatten
        = ['&', Char.ofNat 0x10ffff, ';', '\u00a0', Char.ofNat 0x10ffff, '#', '<'] := by
  have h : List.Forall₂ Encoded
      ['&', Char.ofNat 0x10ffff, ';', '\u00a0', Char.ofNat 0x10ffff, '#', '<'] mixture :=
    .cons (@Encoded.named _ "amp".toList rfl) <|
      .cons (@Encoded.hexadecimal _ 'X' "10fFfF".toList (.inr rfl) rfl) <|
      .cons (.plain (by decide)) <| .cons (@Encoded.named _ "nbsp".toList rfl) <|
      .cons .decimal <| .cons (.plain (by decide)) <|
      .cons (@Encoded.hexadecimal _ 'x' "3C".toList (.inl rfl) rfl) .nil
  exact ⟨h, decode_encoded.1 _ _ h⟩

end Html.Reference

end PageTemplates
