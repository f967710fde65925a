import PageTemplates.Html.Token
import PageTemplates.Proofs.AttributeSpellings
import PageTemplates.Proofs.Encodings
import PageTemplates.Proofs.Patterns

/-!
# Written characters and tags

How texts, attribute values and the tags of an element are written, and that they are read back.

* `Reference.escape`       a text with some characters written as references;
* `Reference.decode_escape`   its inverse;
* `attributesText`         attributes as they stand in a start tag;
* `StartTag.Opens`         what stands behind the name in a start tag;
* `StartTag.opens_tagText`, `StartTag.opens_attributesText`   spelled and written attributes;
* `TagName`, `AttributeName`   the names that can be written;
* `tokens_start`, `tokens_stop`, `tokens_element`   tags, and text elements.
-/

namespace PageTemplates.Html

/-! ## characters as references -/

namespace Reference

/-- a text with the characters of a table written as references -/
def escape (names : List (Char × Text)) (s : Text) : Text :=
  s.flatMap fun c =>
    match names.lookup c with
    | some name => '&' :: name ++ [';']
    | none => [c]

/-- what is written as a reference in text, and in attribute values in double quotes -/
def textNames : List (Char × Text) := [('&', "amp".toList), ('<', "lt".toList)]
def valueNames : List (Char × Text) := [('&', "amp".toList), ('"', "quot".toList)]

/-- every character of the table is what its name means, and `&` is one of them -/
structure Valid (names : List (Char × Text)) : Prop where
  ampersand : (names.lookup '&').isSome
  meaning : ∀ e ∈ names, meaning? e.2 = some e.1 ∧ Text.bytes e.2 ≤ 9 ∧ ';' ∉ e.2

theorem textNames_valid : Valid textNames := ⟨by decide, by decide⟩

theorem valueNames_valid : Valid valueNames := ⟨by decide, by decide⟩

section
variable {names : List (Char × Text)}

theorem escape_cons_of_some {c : Char} {name : Text} (h : names.lookup c = some name) (s : Text) :
    escape names (c :: s) = '&' :: (name ++ ';' :: escape names s) := by
  simp [escape, h]

theorem escape_cons_of_none {c : Char} (h : names.lookup c = none) (s : Text) :
    escape names (c :: s) = c :: escape names s := by
  simp [escape, h]

theorem escape_ne_nil {s : Text} (h : s ≠ []) : escape names s ≠ [] := by
  obtain ⟨c, s, rfl⟩ := List.exists_cons_of_ne_nil h
  cases hc : names.lookup c with
  | some name =>
    rw [escape_cons_of_some hc]
    exact List.cons_ne_nil _ _
  | none =>
    rw [escape_cons_of_none hc]
    exact List.cons_ne_nil _ _

theorem not_mem_escape {c : Char} (hc : (names.lookup c).isSome)
    (hnames : ∀ e ∈ names, c ∉ '&' :: e.2 ++ [';']) (s : Text) : c ∉ escape names s := by
  rw [escape, List.mem_flatMap]
  rintro ⟨d, -, hd⟩
  cases hlookup : names.lookup d with
  | some name =>
    rw [hlookup] at hd
    exact hnames (d, name) (mem_of_lookup hlookup) hd
  | none =>
    rw [hlookup] at hd
    rw [List.mem_singleton.1 hd, hlookup] at hc
    cases hc

theorem Valid.refers (h : Valid names) {c : Char} {name : Text} (hc : names.lookup c = some name) :
    Refers name c := by
  obtain ⟨hmeaning, hbytes, -⟩ := h.meaning _ (mem_of_lookup hc)
  exact ⟨meaning?_eq_some_iff.1 hmeaning, hbytes⟩

/-- what is written is read back -/
theorem decode_escape (h : Valid names) (s : Text) : decode (escape names s) = s := by
  induction s with
  | nil => simp [escape, decode]
  | cons c s ih =>
    cases hc : names.lookup c with
    | some name => rw [escape_cons_of_some hc, decode_reference (h.refers hc), ih]
    | none =>
      have hne : c ≠ '&' := by
        rintro rfl
        have := h.ampersand
        rw [hc] at this
        cases this
      rw [escape_cons_of_none hc, decode_cons_of_ne hne, ih]

end

end Reference

/-! ## start tags -/

/-- a name of an attribute that can be written -/
structure AttributeName (name : Text) : Prop where
  nonempty : name ≠ []
  chars : ∀ c ∈ name, StartTag.nameChar c = true ∧ c.isUpper = false

instance (name : Text) : Decidable (AttributeName name) :=
  decidable_of_iff
      (name ≠ [] ∧ name.all (fun c => StartTag.nameChar c && !c.isUpper) = true) <| by
    simp only [List.all_eq_true, Bool.and_eq_true, Bool.not_eq_true']
    exact ⟨fun h => ⟨h.1, h.2⟩, fun h => ⟨h.1, h.2⟩⟩

/-- an attribute as it stands in a start tag -/
def attributeText (e : Text × Text) : Text :=
  ' ' :: e.1 ++ '=' :: '"' :: Reference.escape Reference.valueNames e.2 ++ ['"']

def attributesText (entries : List (Text × Text)) : Text := entries.flatMap attributeText

namespace StartTag

/-- the spelling that `attributeText` gives -/
def spelling (e : Text × Text) : Spelling :=
  ⟨[' '], e.1, .quoted [] [] '"' (Reference.escape Reference.valueNames e.2)⟩

theorem attributeText_eq (e : Text × Text) : attributeText e = (spelling e).text := by
  simp [attributeText, spelling, Spelling.text, Assignment.text]

theorem spelling_proper {e : Text × Text} (h : AttributeName e.1) : (spelling e).Proper :=
  ⟨List.cons_ne_nil _ _, rfl, h.nonempty, fun c hc => (h.chars c hc).1,
    .quoted rfl rfl (.inl rfl) (Reference.not_mem_escape rfl (by decide) e.2)⟩

theorem spelling_entry {e : Text × Text} (h : AttributeName e.1) : (spelling e).entry = e :=
  Prod.ext (Text.lower_eq_self fun c hc => (h.chars c hc).2)
    (Reference.decode_escape Reference.valueNames_valid e.2)

/-- what stands behind the name in a start tag with some attributes -/
structure Opens (tag : Text) (m : Attributes) : Prop where
  front : ∀ rest : Text, ∀ c ∈ (tag ++ rest).head?, Token.nameChar c = false
  read : ∀ rest : Text, ofText (tag ++ rest) = ⟨m, false, rest⟩

theorem nameChar_of_valueEnd {c : Char} (h : valueEnd c = true) : Token.nameChar c = false := by
  simp only [valueEnd, asciiBlank, Bool.or_eq_true, beq_iff_eq] at h
  rcases h with ((((rfl | rfl) | rfl) | rfl) | rfl) | rfl <;> decide

theorem opens_tagText {attributes : List Spelling} (h : ∀ a ∈ attributes, a.Proper) {gap : Text}
    (hend : Ended attributes gap false) :
    Opens (tagText attributes gap false) (.ofList (attributes.map Spelling.entry)) := by
  constructor
  case front =>
    intro rest c hc
    rw [tagText, List.append_assoc, List.append_assoc] at hc
    have hfront := (front_spelled h hend.blank false rest c hc).2
    exact nameChar_of_valueEnd
      (hfront.resolve_right fun hclosing => Bool.false_ne_true hclosing.2.2)
  case read =>
    intro rest
    rw [tagText, List.append_assoc, List.append_assoc]
    exact scan_spelled h hend .empty none rest

theorem opens_attributesText {m : Attributes} (h : ∀ e ∈ m.entries, AttributeName e.1) :
    Opens (attributesText m.entries ++ ['>']) m := by
  have htext : attributesText m.entries ++ ['>'] = tagText (m.entries.map spelling) [] false := by
    rw [attributesText, funext attributeText_eq, tagText, List.flatMap_map]
    rfl
  have hentries : (m.entries.map spelling).map Spelling.entry = m.entries := by
    rw [List.map_map]
    exact (List.map_congr_left fun e he => spelling_entry (h e he)).trans (List.map_id _)
  have hproper : ∀ a ∈ m.entries.map spelling, a.Proper :=
    List.forall_mem_map.2 fun e he => spelling_proper (h e he)
  have hend : Ended (m.entries.map spelling) [] false := ⟨rfl, fun _ hc => by cases hc⟩
  have hopens := opens_tagText hproper hend
  rwa [← htext, hentries, m.ofList_entries] at hopens

end StartTag

/-! ## tags of an element -/

/-- a character of an element name in lower case -/
def tagChar (c : Char) : Bool :=
  c.isLower || c.isDigit || c == '-' || c == '_' || c == ':' || c == '.'

/-- a name of an element that can be written -/
structure TagName (name : Text) : Prop where
  first : name.head?.any Char.isLower = true
  chars : ∀ c ∈ name, tagChar c = true

instance (name : Text) : Decidable (TagName name) :=
  decidable_of_iff (name.head?.any Char.isLower = true ∧ name.all tagChar = true) <| by
    rw [List.all_eq_true]
    exact ⟨fun h => ⟨h.1, h.2⟩, fun h => ⟨h.1, h.2⟩⟩

theorem nameChar_of_tagChar {c : Char} (h : tagChar c = true) : Token.nameChar c = true := by
  have hchar : ((c.isUpper || c.isLower || c.isDigit) || c == '-' || c == '_' || c == ':'
      || c == '.') = true := by
    simp only [tagChar, Bool.or_eq_true] at h ⊢
    tauto
  exact hchar

theorem isUpper_of_tagChar {c : Char} (h : tagChar c = true) : c.isUpper = false := by
  have hupper : ¬ (65 ≤ c.val.toNat ∧ c.val.toNat ≤ 90) := by
    simp only [tagChar, Bool.or_eq_true, beq_iff_eq] at h
    rcases h with ((((h | h) | rfl) | rfl) | rfl) | rfl
    · have hlower : 97 ≤ c.val.toNat := of_decide_eq_true (Bool.and_eq_true_iff.1 h).1
      omega
    · have hdigit : c.val.toNat ≤ 57 := of_decide_eq_true (Bool.and_eq_true_iff.1 h).2
      omega
    all_goals decide
  exact decide_eq_false hupper

namespace TagName
variable {name : Text}

theorem nonempty (h : TagName name) : name ≠ [] := by
  rintro rfl
  cases h.first

theorem lower (h : TagName name) : Text.lower name = name :=
  Text.lower_eq_self fun c hc => isUpper_of_tagChar (h.chars c hc)

theorem nameChar_of_toLower {c : Char} (h : tagChar c.toLower = true) :
    Token.nameChar c = true := by
  cases hupper : c.isUpper with
  | true =>
    have halpha : c.isAlpha = true := Bool.or_eq_true_iff.2 (.inl hupper)
    simp [Token.nameChar, Char.isAlphanum, halpha]
  | false =>
    rw [Text.toLower_eq_self hupper] at h
    exact nameChar_of_tagChar h

section
variable {written : Text} (h : TagName name) (hwritten : Text.lower written = name)
include h hwritten

theorem nameChar_of_written : ∀ c ∈ written, Token.nameChar c = true := fun _ hc =>
  nameChar_of_toLower (h.chars _ (hwritten ▸ List.mem_map_of_mem hc))

/-- where the name ends, in whatever case it is written -/
theorem span {rest : Text} (hrest : ∀ c ∈ rest.head?, Token.nameChar c = false) :
    Token.nameOf (written ++ rest) = name ∧ (written ++ rest).dropWhile Token.nameChar = rest := by
  obtain ⟨htake, hdrop⟩ := Text.span_append (h.nameChar_of_written hwritten) hrest
  rw [Token.nameOf, htake, hdrop]
  exact ⟨hwritten, rfl⟩

theorem not_isGreater : ∀ c ∈ written, Token.isGreater c = false := by
  intro c hc
  have hchar := h.nameChar_of_written hwritten c hc
  rw [Token.isGreater, beq_eq_false_iff_ne]
  rintro rfl
  exact absurd hchar (by decide)

end

end TagName

theorem tokens_less (s : Text) :
    tokens ('<' :: s) = (Token.markup s).1 ++ tokens (Token.markup s).2 := by
  rw [tokens]
  rfl

theorem markup_of_isAlpha {c : Char} (hc : c.isAlpha = true) (s : Text) :
    Token.markup (c :: s) = Token.element (c :: s) := by
  have hother : ∀ {d : Char} {r : Text}, d.isAlpha = false → c :: s ≠ d :: r := by
    rintro d r hd heq
    obtain ⟨rfl, -⟩ := List.cons.inj heq
    exact Bool.false_ne_true (hd.symm.trans hc)
  unfold Token.markup
  split
  · next heq => exact absurd heq (hother rfl)
  · next heq => exact absurd heq (hother rfl)
  · next heq => exact absurd heq (hother rfl)
  · next heq => exact absurd heq (hother rfl)
  · next heq => cases heq
  · next heq =>
    obtain ⟨rfl, rfl⟩ := List.cons.inj heq
    exact if_pos hc

theorem TagName.markup {name written : Text} (h : TagName name)
    (hwritten : Text.lower written = name) (rest : Text) :
    Token.markup (written ++ rest) = Token.element (written ++ rest) := by
  subst hwritten
  cases written with
  | nil => exact absurd rfl h.nonempty
  | cons c s =>
    have hlower : c.toLower.isLower = true := h.first
    refine markup_of_isAlpha (Bool.or_eq_true_iff.2 ?_) (s ++ rest)
    cases hupper : c.isUpper with
    | true => exact .inl rfl
    | false =>
      rw [Text.toLower_eq_self hupper] at hlower
      exact .inr hlower

/-- an end tag -/
theorem tokens_stop {name : Text} (h : TagName name) (rest : Text) :
    tokens ('<' :: '/' :: (name ++ '>' :: rest)) = .stop name :: tokens rest := by
  have hfront : ∀ c ∈ ('>' :: rest).head?, Token.nameChar c = false := by
    intro c hc
    obtain rfl := Option.some.inj hc
    decide
  have hname := (h.span h.lower hfront).1
  have hmarkup : Token.markup ('/' :: (name ++ '>' :: rest)) = ([.stop name], rest) := by
    have hpast : Text.past Token.isGreater (name ++ '>' :: rest) = rest :=
      Text.past_append_cons (h.not_isGreater h.lower) rfl rest
    simp only [Token.markup, hname, hpast, List.isEmpty_eq_false_iff.2 h.nonempty]
    rfl
  rw [tokens_less, hmarkup]
  rfl

section
variable {name : Text} {m : Attributes}

/-- a start tag that nothing follows up -/
theorem tokens_start (h : TagName name) {tag : Text} (htag : StartTag.Opens tag m)
    (hraw : isRaw name = false) (hplain : isPlain name = false) (rest : Text) :
    tokens ('<' :: (name ++ (tag ++ rest)))
      = (if isVoid name then .leaf name m else .start name m) :: tokens rest := by
  obtain ⟨hname, hafter⟩ := h.span h.lower (htag.front rest)
  rw [tokens_less, h.markup h.lower, Token.element, hname, hafter, htag.read, hraw, hplain]
  cases isVoid name <;> rfl

/-- the content of a text element ends where its name stands behind `</`, in whatever case it is
written and whatever follows it -/
theorem content_close (h : TagName name) {t : Text}
    (ht : ¬ '<' :: '/' :: name <:+: Text.lower t) {stop : Text} (hstop : Text.lower stop = name)
    (rest : Text) : Token.content name (t ++ '<' :: '/' :: (stop ++ rest))
      = (t, '<' :: '/' :: (stop ++ rest)) := by
  have hless : '<' ∉ '/' :: name := by
    intro hmem
    rcases List.mem_cons.1 hmem with hmem | hmem
    · exact absurd hmem (by decide)
    · exact absurd (h.chars _ hmem) (by decide)
  have hfind : Text.find? ('<' :: '/' :: name)
      (Text.lower (t ++ '<' :: '/' :: (stop ++ rest))) = some t.length := by
    have hlower : Text.lower (t ++ '<' :: '/' :: (stop ++ rest))
        = Text.lower t ++ ('<' :: '/' :: name ++ Text.lower rest) := by
      rw [← hstop]
      unfold Text.lower
      rw [List.map_append, List.map_cons, List.map_cons, List.map_append]
      rfl
    rw [hlower, Text.find?_append_self hless ht, Text.length_lower]
  simp only [Token.content, hfind, Option.getD_some, List.take_left, List.drop_left]

/-- a text element, whatever follows its start tag -/
theorem tokens_element (h : TagName name) (hvoid : isVoid name = false)
    (htext : (isRaw name || isPlain name) = true) {start tag : Text}
    (hstart : Text.lower start = name) (htag : StartTag.Opens tag m) (s : Text) :
    tokens ('<' :: (start ++ (tag ++ s)))
      = .start name m :: Token.contentRun name (Token.content name s).1
        ++ .stop name :: tokens (Text.past Token.isGreater (Token.content name s).2) := by
  obtain ⟨hname, hafter⟩ := h.span hstart (htag.front s)
  rw [tokens_less, h.markup hstart, Token.element, hname, hafter, htag.read, hvoid, htext]
  simp

/-- behind the content, everything up to the next `>` is dropped -/
theorem past_close {name stop tail : Text} (h : TagName name) (hstop : Text.lower stop = name)
    (htail : '>' ∉ tail) (rest : Text) :
    Text.past Token.isGreater ('<' :: '/' :: (stop ++ (tail ++ '>' :: rest))) = rest := by
  have hnone : ∀ c ∈ tail, Token.isGreater c = false := by
    intro c hc
    rw [Token.isGreater, beq_eq_false_iff_ne]
    rintro rfl
    exact htail hc
  have hgreater : ∀ c ∈ '<' :: '/' :: (stop ++ tail), Token.isGreater c = false := by
    rw [List.forall_mem_cons, List.forall_mem_cons, List.forall_mem_append]
    exact ⟨rfl, rfl, h.not_isGreater hstop, hnone⟩
  have hcut := Text.past_append_cons (c := '>') hgreater rfl rest
  rwa [List.cons_append, List.cons_append, List.append_assoc] at hcut

end

/-! ## the doctype -/

theorem markup_declaration {s : Text} (h : ∀ c ∈ s.head?, c ≠ '-') :
    Token.markup ('!' :: s) =
      (if Token.isDoctype s then [.doctype] else [], Text.past Token.isGreater s) := by
  unfold Token.markup
  split
  · next heq =>
    cases heq
    exact absurd rfl (h '-' rfl)
  · next heq =>
    cases heq
    rfl
  · next heq => cases heq
  · next heq => cases heq
  · next heq => cases heq
  · next hbang _ _ heq =>
    cases heq
    exact (hbang rfl).elim

theorem tokens_doctype (rest : Text) :
    tokens ("<!DOCTYPE html>".toList ++ rest) = .doctype :: tokens rest := by
  have hsplit : "<!DOCTYPE html>".toList ++ rest
      = '<' :: '!' :: ("DOCTYPE html".toList ++ '>' :: rest) := by simp
  have hgreater : ∀ c ∈ "DOCTYPE html".toList, Token.isGreater c = false := by
    simp [Token.isGreater]
  have hdoctype : Token.isDoctype ("DOCTYPE html".toList ++ '>' :: rest) = true := by
    rw [Token.isDoctype, Text.upTo_append_cons hgreater rfl]
    decide
  rw [hsplit, tokens_less, markup_declaration, hdoctype, Text.past_append_cons hgreater rfl]
  · rfl
  · simp
end PageTemplates.Html
