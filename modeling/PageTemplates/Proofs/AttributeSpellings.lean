import PageTemplates.Html.StartTag
import PageTemplates.Proofs.Names
import PageTemplates.Proofs.Parts

/-!
# Spellings of attributes

An attribute is a name alone, or a name, an equals sign and a value with or without quotes, with
blanks wherever they do no harm.  A start tag is read the same in every spelling.

* `Assignment`, `Spelling`   an attribute as it is written;
* `scan_spelling`            one attribute, whatever has been read before and whatever follows;
* `scan_spelled`             attributes up to the end of their tag;
* `ofText_tagText`           what a start tag says.
-/

namespace PageTemplates.Html

/-- what follows the name of an attribute -/
inductive Assignment where
  | none
  /-- blanks on either side of the equals sign, and a value -/
  | unquoted (before after value : Text)
  | quoted (before after : Text) (mark : Char) (value : Text)

namespace Assignment

def text : Assignment → Text
  | .none => []
  | .unquoted before after value => before ++ '=' :: (after ++ value)
  | .quoted before after mark value => before ++ '=' :: (after ++ mark :: (value ++ [mark]))

def value : Assignment → Text
  | .none => []
  | .unquoted _ _ value => value
  | .quoted _ _ _ value => value

def isUnquoted : Assignment → Bool
  | .unquoted _ _ _ => true
  | .none | .quoted _ _ _ _ => false

/-- the value ends where it is meant to -/
inductive Proper : Assignment → Prop where
  | none : Proper .none
  | unquoted {before after value : Text} (hbefore : before.all asciiBlank)
      (hafter : after.all asciiBlank) (hvalue : value ≠ [])
      (hchars : ∀ c ∈ value, StartTag.valueEnd c = false)
      (hfirst : value.head? ≠ some '"' ∧ value.head? ≠ some '\'') :
      Proper (.unquoted before after value)
  | quoted {before after value : Text} {mark : Char} (hbefore : before.all asciiBlank)
      (hafter : after.all asciiBlank) (hmark : mark = '"' ∨ mark = '\'') (hvalue : mark ∉ value) :
      Proper (.quoted before after mark value)

instance : (a : Assignment) → Decidable a.Proper
  | .none => isTrue .none
  | .unquoted before after value =>
    decidable_of_iff (before.all asciiBlank ∧ after.all asciiBlank ∧ value ≠ [] ∧
        value.any StartTag.valueEnd = false ∧ value.head? ≠ some '"' ∧ value.head? ≠ some '\'')
      ⟨fun ⟨h1, h2, h3, h4, h5⟩ => .unquoted h1 h2 h3 (by simpa using h4) h5,
        fun (.unquoted h1 h2 h3 h4 h5) => ⟨h1, h2, h3, by simpa using h4, h5⟩⟩
  | .quoted before after mark value =>
    decidable_of_iff (before.all asciiBlank ∧ after.all asciiBlank ∧ (mark = '"' ∨ mark = '\'') ∧
        mark ∉ value)
      ⟨fun ⟨h1, h2, h3, h4⟩ => .quoted h1 h2 h3 h4,
        fun (.quoted h1 h2 h3 h4) => ⟨h1, h2, h3, h4⟩⟩

end Assignment

/-- an attribute as it is written, with the blanks in front of it -/
structure Spelling where
  gap : Text
  name : Text
  assignment : Assignment

namespace Spelling

def text (a : Spelling) : Text := a.gap ++ (a.name ++ a.assignment.text)

/-- what the attribute says -/
def entry (a : Spelling) : Text × Text :=
  (Text.lower a.name, Reference.decode a.assignment.value)

structure Proper (a : Spelling) : Prop where
  gap_nonempty : a.gap ≠ []
  gap_blank : a.gap.all asciiBlank
  name_nonempty : a.name ≠ []
  name_chars : ∀ c ∈ a.name, StartTag.nameChar c = true
  assignment : a.assignment.Proper

instance (a : Spelling) : Decidable a.Proper :=
  decidable_of_iff (a.gap ≠ [] ∧ a.gap.all asciiBlank ∧ a.name ≠ [] ∧
      a.name.all StartTag.nameChar ∧ a.assignment.Proper)
    ⟨fun ⟨h1, h2, h3, h4, h5⟩ => ⟨h1, h2, h3, List.all_eq_true.1 h4, h5⟩,
      fun h => ⟨h.gap_nonempty, h.gap_blank, h.name_nonempty, List.all_eq_true.2 h.name_chars,
        h.assignment⟩⟩

end Spelling

namespace StartTag

/-! ## single steps -/

section
variable (m : Attributes) (pending : Option Text)

theorem scan_blank {c : Char} (hc : asciiBlank c = true) (s : Text) :
    scan m pending (c :: s) = scan m pending s := by
  simp only [asciiBlank, Bool.or_eq_true, beq_iff_eq] at hc
  rcases hc with (((rfl | rfl) | rfl) | rfl) | rfl <;> (rw [scan.eq_def]; rfl)

theorem scan_blanks {gap : Text} (h : gap.all asciiBlank) (s : Text) :
    scan m pending (gap ++ s) = scan m pending s := by
  induction gap with
  | nil => rfl
  | cons c gap ih =>
    rw [List.all_cons, Bool.and_eq_true] at h
    rw [List.cons_append, scan_blank m pending h.1, ih h.2]

theorem scan_name {c : Char} (hc : nameChar c = true) (s : Text) :
    scan m pending (c :: s) = scan (settle m pending)
      (some (Text.lower (c :: s.takeWhile nameChar))) (s.dropWhile nameChar) := by
  have hother : ∀ {d : Char} {r : Text}, nameChar d = false → c :: s ≠ d :: r := by
    rintro d r hd heq
    obtain ⟨rfl, -⟩ := List.cons.inj heq
    exact Bool.false_ne_true (hd.symm.trans hc)
  rw [scan.eq_def]
  split
  · next heq => cases heq
  · next heq => exact absurd heq (hother rfl)
  · next heq => exact absurd heq (hother rfl)
  · next heq => exact absurd heq (hother rfl)
  · next heq => exact absurd heq (hother rfl)
  · next heq => exact absurd heq (hother rfl)
  · next heq =>
    obtain ⟨rfl, rfl⟩ := List.cons.inj heq
    rw [if_pos hc]

theorem scan_equals (name s : Text) :
    scan m (some name) ('=' :: s)
      = scan (m.insert name (Reference.decode (value (s.dropWhile asciiBlank)).1)) none
        (value (s.dropWhile asciiBlank)).2 := by
  rw [scan.eq_def]
  rfl

/-- how a start tag ends -/
def ending (closing : Bool) : Text := if closing then ['/', '>'] else ['>']

theorem scan_ending (closing : Bool) (rest : Text) :
    scan m pending (ending closing ++ rest) = ⟨settle m pending, closing, rest⟩ := by
  cases closing <;> (rw [scan.eq_def]; rfl)

end

theorem value_quoted {mark : Char} (hmark : mark = '"' ∨ mark = '\'') {v : Text} (h : mark ∉ v)
    (rest : Text) : value (mark :: (v ++ mark :: rest)) = (v, rest) := by
  have hquote : ∀ c ∈ v, isQuote mark c = false := by
    intro c hc
    rw [isQuote, beq_eq_false_iff_ne]
    rintro rfl
    exact h hc
  have hself : isQuote mark mark = true := beq_self_eq_true mark
  have hvalue : (Text.upTo (isQuote mark) (v ++ mark :: rest),
      Text.past (isQuote mark) (v ++ mark :: rest)) = (v, rest) := by
    rw [Text.upTo_append_cons hquote hself, Text.past_append_cons hquote hself]
  rcases hmark with rfl | rfl <;> exact hvalue

/-- a value without quotes ends at a blank, at the end of the tag or with the source -/
theorem value_unquoted {v : Text} (hne : v ≠ [])
    (hfirst : v.head? ≠ some '"' ∧ v.head? ≠ some '\'')
    (h : ∀ c ∈ v, valueEnd c = false) {rest : Text} (hrest : ∀ c ∈ rest.head?, valueEnd c = true) :
    value (v ++ rest) = (v, rest) := by
  have hspan : Text.upTo valueEnd (v ++ rest) = v ∧ Text.since valueEnd (v ++ rest) = rest :=
    Text.span_append (fun c hc => by rw [h c hc]; rfl) (fun c hc => by rw [hrest c hc]; rfl)
  have hvalue : value (v ++ rest)
      = (Text.upTo valueEnd (v ++ rest), Text.since valueEnd (v ++ rest)) := by
    obtain ⟨c, v, rfl⟩ := List.exists_cons_of_ne_nil hne
    rw [List.cons_append, value]
    · exact fun s hs => hfirst.1 (congrArg some (List.cons.inj hs).1)
    · exact fun s hs => hfirst.2 (congrArg some (List.cons.inj hs).1)
  rw [hvalue, hspan.1, hspan.2]

/-! ## attributes -/

theorem nameChar_of_asciiBlank {c : Char} (h : asciiBlank c = true) : nameChar c = false := by
  simp [nameChar, h]

theorem valueEnd_of_asciiBlank {c : Char} (h : asciiBlank c = true) : valueEnd c = true := by
  simp [valueEnd, h]

/-- blanks, an equals sign, blanks and a value behind a name -/
theorem scan_assigned (m : Attributes) (name : Text) {before after : Text}
    (hbefore : before.all asciiBlank) (hafter : after.all asciiBlank) {s : Text}
    (hs : ∀ c ∈ s.head?, asciiBlank c = false) :
    scan m (some name) (before ++ '=' :: (after ++ s))
      = scan (m.insert name (Reference.decode (value s).1)) none (value s).2 := by
  have hdrop := (Text.span_append (List.all_eq_true.1 hafter) hs).2
  rw [scan_blanks m _ hbefore, scan_equals, hdrop]

/-- no name goes on in what follows it -/
theorem front_assignment {assignment : Assignment} (h : assignment.Proper) {rest : Text}
    (hrest : ∀ c ∈ rest.head?, nameChar c = false) :
    ∀ c ∈ (assignment.text ++ rest).head?, nameChar c = false := by
  have hequals {before s : Text} (hbefore : before.all asciiBlank) :
      ∀ c ∈ (before ++ '=' :: s).head?, nameChar c = false := by
    intro c hc
    cases before with
    | nil =>
      obtain rfl := Option.some.inj hc
      decide
    | cons d before =>
      obtain rfl := Option.some.inj hc
      exact nameChar_of_asciiBlank (List.all_eq_true.1 hbefore d List.mem_cons_self)
  cases h with
  | none => exact hrest
  | unquoted hbefore hafter hne hchars hfirst =>
    rw [Assignment.text, List.append_assoc]
    exact hequals hbefore
  | quoted hbefore hafter hmark hfree =>
    rw [Assignment.text, List.append_assoc]
    exact hequals hbefore

/-- one attribute: afterwards it is inserted, or its name is pending with no value to come -/
theorem scan_spelling {a : Spelling} (ha : a.Proper) (m : Attributes) (pending : Option Text)
    {rest : Text} (hname : ∀ c ∈ rest.head?, nameChar c = false)
    (hvalue : a.assignment.isUnquoted = true → ∀ c ∈ rest.head?, valueEnd c = true) :
    ∃ m' pending', scan m pending (a.text ++ rest) = scan m' pending' rest ∧
      settle m' pending' = (settle m pending).insert a.entry.1 a.entry.2 := by
  obtain ⟨gap, name, assignment⟩ := a
  obtain ⟨-, hgap, hnonempty, hletters, hassignment⟩ := ha
  have hread : scan m pending (Spelling.text ⟨gap, name, assignment⟩ ++ rest)
      = scan (settle m pending) (some (Text.lower name)) (assignment.text ++ rest) := by
    obtain ⟨c, name, rfl⟩ := List.exists_cons_of_ne_nil hnonempty
    obtain ⟨hc, hletters⟩ := List.forall_mem_cons.1 hletters
    obtain ⟨htake, hdrop⟩ := Text.span_append hletters (front_assignment hassignment hname)
    rw [Spelling.text, List.append_assoc, scan_blanks m pending hgap, List.append_assoc,
      List.cons_append, scan_name m pending hc, htake, hdrop]
  rw [hread]
  cases hassignment with
  | none =>
    refine ⟨settle m pending, some (Text.lower name), rfl, ?_⟩
    rw [Spelling.entry, Assignment.value, Reference.decode]
    rfl
  | @unquoted before after v hbefore hafter hne hchars hfirst =>
    have hsplit : Assignment.text (.unquoted before after v) ++ rest
        = before ++ '=' :: (after ++ (v ++ rest)) := by
      simp [Assignment.text]
    have hfront : ∀ c ∈ (v ++ rest).head?, asciiBlank c = false := by
      intro c hc
      obtain ⟨d, v, rfl⟩ := List.exists_cons_of_ne_nil hne
      obtain rfl := Option.some.inj hc
      exact (Bool.or_eq_false_iff.1 (hchars d List.mem_cons_self)).1
    have hcut := value_unquoted hne hfirst hchars (hvalue rfl)
    refine ⟨_, none, ?_, rfl⟩
    rw [hsplit, scan_assigned _ _ hbefore hafter hfront, hcut]
    rfl
  | @quoted before after v mark hbefore hafter hmark hfree =>
    have hsplit : Assignment.text (.quoted before after mark v) ++ rest
        = before ++ '=' :: (after ++ mark :: (v ++ mark :: rest)) := by
      simp [Assignment.text]
    have hfront : ∀ c ∈ (mark :: (v ++ mark :: rest)).head?, asciiBlank c = false := by
      intro c hc
      obtain rfl := Option.some.inj hc
      rcases hmark with rfl | rfl <;> decide
    refine ⟨_, none, ?_, rfl⟩
    rw [hsplit, scan_assigned _ _ hbefore hafter hfront, value_quoted hmark hfree]
    rfl

/-! ## tags -/

/-- attributes up to the end of their tag -/
def tagText (attributes : List Spelling) (gap : Text) (closing : Bool) : Text :=
  attributes.flatMap Spelling.text ++ (gap ++ ending closing)

/-- the blanks in front of the end may be left out, unless `/>` would become part of a value -/
structure Ended (attributes : List Spelling) (gap : Text) (closing : Bool) : Prop where
  blank : gap.all asciiBlank
  apart : gap = [] → closing = true →
    ∀ a ∈ attributes.getLast?, a.assignment.isUnquoted = false

/-- what follows an attribute does not belong to it -/
theorem front_spelled {attributes : List Spelling} (h : ∀ a ∈ attributes, a.Proper) {gap : Text}
    (hgap : gap.all asciiBlank) (closing : Bool) (rest : Text) :
    ∀ c ∈ (attributes.flatMap Spelling.text ++ (gap ++ (ending closing ++ rest))).head?,
      nameChar c = false ∧
        (valueEnd c = true ∨ (attributes = [] ∧ gap = [] ∧ closing = true)) := by
  have hblank {c : Char} {gap s : Text} (hgap : gap.all asciiBlank) (hne : gap ≠ [])
      (hc : c ∈ (gap ++ s).head?) : nameChar c = false ∧ valueEnd c = true := by
    obtain ⟨d, gap, rfl⟩ := List.exists_cons_of_ne_nil hne
    obtain rfl := Option.some.inj hc
    have hd := List.all_eq_true.1 hgap d List.mem_cons_self
    exact ⟨nameChar_of_asciiBlank hd, valueEnd_of_asciiBlank hd⟩
  intro c hc
  cases attributes with
  | nil =>
    rw [List.flatMap_nil, List.nil_append] at hc
    by_cases hne : gap = []
    · subst hne
      cases closing with
      | true =>
        obtain rfl := Option.some.inj hc
        exact ⟨by decide, .inr ⟨rfl, rfl, rfl⟩⟩
      | false =>
        obtain rfl := Option.some.inj hc
        exact ⟨by decide, .inl (by decide)⟩
    · obtain ⟨hname, hend⟩ := hblank hgap hne hc
      exact ⟨hname, .inl hend⟩
  | cons a attributes =>
    have ha := h a List.mem_cons_self
    rw [List.flatMap_cons, Spelling.text, List.append_assoc, List.append_assoc] at hc
    obtain ⟨hname, hend⟩ := hblank ha.gap_blank ha.gap_nonempty hc
    exact ⟨hname, .inl hend⟩

theorem scan_spelled {attributes : List Spelling} (h : ∀ a ∈ attributes, a.Proper) {gap : Text}
    {closing : Bool} (hend : Ended attributes gap closing) (m : Attributes)
    (pending : Option Text) (rest : Text) :
    scan m pending (attributes.flatMap Spelling.text ++ (gap ++ (ending closing ++ rest)))
      = ⟨(attributes.map Spelling.entry).foldl (fun m e => m.insert e.1 e.2) (settle m pending),
          closing, rest⟩ := by
  induction attributes generalizing m pending with
  | nil =>
    rw [List.flatMap_nil, List.nil_append, scan_blanks m pending hend.blank, scan_ending]
    rfl
  | cons a attributes ih =>
    obtain ⟨ha, hrest⟩ := List.forall_mem_cons.1 h
    have hfront := front_spelled hrest hend.blank closing rest
    have hvalue : a.assignment.isUnquoted = true →
        ∀ c ∈ (attributes.flatMap Spelling.text ++ (gap ++ (ending closing ++ rest))).head?,
          valueEnd c = true := by
      intro hunquoted c hc
      refine (hfront c hc).2.resolve_right ?_
      rintro ⟨rfl, hgap, hclosing⟩
      rw [hend.apart hgap hclosing a rfl] at hunquoted
      cases hunquoted
    have hlast : Ended attributes gap closing := by
      refine ⟨hend.blank, fun hgap hclosing b hb => hend.apart hgap hclosing b ?_⟩
      rw [List.getLast?_cons, Option.mem_def.1 hb]
      rfl
    obtain ⟨m', pending', hscan, hsettle⟩ :=
      scan_spelling ha m pending (fun c hc => (hfront c hc).1) hvalue
    rw [List.flatMap_cons, List.append_assoc, hscan, ih hrest hlast, hsettle]
    rfl

/-- **Start tags are read in every spelling.**  The attributes come in order, names in lower case
and values decoded, the first of each name; the tag ends right behind its `>`. -/
theorem ofText_tagText {attributes : List Spelling} (h : ∀ a ∈ attributes, a.Proper) {gap : Text}
    {closing : Bool} (hend : Ended attributes gap closing) (rest : Text) :
    (ofText (tagText attributes gap closing ++ rest)).attributes.entries
      = (attributes.map Spelling.entry).eraseDupsBy (fun a b => a.1 == b.1) ∧
    (ofText (tagText attributes gap closing ++ rest)).selfClosing = closing ∧
    (ofText (tagText attributes gap closing ++ rest)).rest = rest := by
  have hscan := scan_spelled h hend .empty none rest
  rw [tagText, List.append_assoc, List.append_assoc, ofText, hscan]
  exact ⟨NameMap.entries_ofList _, rfl, rfl⟩

/-- a name in two spellings, ends of tags inside of values, and a name alone before the end -/
def sampleSpellings : List Spelling :=
  [⟨" ".toList, "Title".toList, .none⟩,
    ⟨"\n\t".toList, "HREF".toList, .unquoted " ".toList "  ".toList "/a/?b=c&amp;/".toList⟩,
    ⟨" ".toList, "title".toList, .quoted [] "\t".toList '\'' "x /> \"y\"".toList⟩,
    ⟨" ".toList, "@é".toList, .quoted [] [] '"' "it's &gt;".toList⟩,
    ⟨" ".toList, "Open".toList, .none⟩]

theorem ofText_tagText_sample :
    (∀ a ∈ sampleSpellings, a.Proper) ∧ Ended sampleSpellings "\n".toList true ∧
    tagText sampleSpellings "\n".toList true
      = " Title\n\tHREF =  /a/?b=c&amp;/ title=\t'x /> \"y\"' @é=\"it's &gt;\" Open\n/>".toList ∧
    (ofText (tagText sampleSpellings "\n".toList true ++ "=x>".toList)).attributes.entries
      = [("title".toList, []), ("href".toList, "/a/?b=c&/".toList),
        ("@é".toList, "it's >".toList), ("open".toList, [])] ∧
    (ofText (tagText sampleSpellings "\n".toList true ++ "=x>".toList)).selfClosing = true ∧
    (ofText (tagText sampleSpellings "\n".toList true ++ "=x>".toList)).rest = "=x>".toList := by
  have hproper : ∀ a ∈ sampleSpellings, a.Proper := by decide
  have hend : Ended sampleSpellings "\n".toList true := ⟨by decide, by decide⟩
  obtain ⟨hentries, hclosing, hrest⟩ := ofText_tagText hproper hend "=x>".toList
  have hfirst : (sampleSpellings.map Spelling.entry).eraseDupsBy (fun a b => a.1 == b.1)
      = [("title".toList, []), ("href".toList, "/a/?b=c&/".toList),
        ("@é".toList, "it's >".toList), ("open".toList, [])] := by decide +kernel
  exact ⟨hproper, hend, by decide, hentries.trans hfirst, hclosing, hrest⟩

end StartTag

end PageTemplates.Html
