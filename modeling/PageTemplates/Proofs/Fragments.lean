import Mathlib.Data.List.Chain
import PageTemplates.Binding
import PageTemplates.Proofs.Parts
import PageTemplates.Proofs.Trimmed

/-!
# Fragments and their written form

A list of fragments has one written form: literal braces are doubled, and an expression stands
between `{ ` and ` }`.  Reading it gives the fragments back if they are canonical, and reading
any text gives canonical fragments.

* `dotted_ofText_eq_nil_iff`   of which source nothing is left;
* `Placeholder.render`     the written form;
* `Fragment.Canonical`     texts that are not empty and never side by side, expressions with
                           proper paths;
* `pieces_render`          the pieces of a written form, character by character;
* `canonical_fragments`    what is read is canonical;
* `fragments_render`       written and read again.
-/

namespace PageTemplates

/-! ## paths -/

namespace Expression

/-- a path that can be written between braces and read again -/
structure Proper (e : Expression) : Prop where
  nonempty : e.path ≠ []
  trimmed : ∀ segment ∈ e.path, Text.trim segment = segment
  undotted : ∀ segment ∈ e.path, '.' ∉ segment
  unclosed : ∀ segment ∈ e.path, '}' ∉ segment
  nonblank : e.path ≠ [[]]

instance (e : Expression) : Decidable e.Proper :=
  decidable_of_iff (e.path ≠ [] ∧ (∀ segment ∈ e.path, Text.trim segment = segment) ∧
      (∀ segment ∈ e.path, '.' ∉ segment) ∧ (∀ segment ∈ e.path, '}' ∉ segment) ∧ e.path ≠ [[]])
    ⟨fun ⟨h1, h2, h3, h4, h5⟩ => ⟨h1, h2, h3, h4, h5⟩,
      fun h => ⟨h.nonempty, h.trimmed, h.undotted, h.unclosed, h.nonblank⟩⟩

/-- a path is one empty segment if and only if its source is blank -/
theorem path_ofText_eq_iff {s : Text} : (ofText s).path = [[]] ↔ s.isBlank := by
  rw [Text.isBlank_iff_trim_eq_nil]
  constructor
  · intro h
    -- a single part is the whole trimmed text
    obtain ⟨part, hpart, hblank⟩ := List.map_eq_singleton_iff.1 h
    have hwhole := Text.joinWith_splitOn '.' (Text.trim s)
    rw [hpart, Text.joinWith_singleton] at hwhole
    rwa [hwhole, Text.trim_trim] at hblank
  · intro h
    unfold ofText
    rw [h]
    rfl

theorem path_ofText_ne_nil (s : Text) : (ofText s).path ≠ [] :=
  fun h => List.splitOn_ne_nil _ _ (List.map_eq_nil_iff.1 h)

/-- nothing is left of a source if and only if it is blank -/
theorem dotted_ofText_eq_nil_iff {s : Text} : (ofText s).dotted = [] ↔ s.isBlank := by
  rw [← path_ofText_eq_iff]
  refine ⟨fun h => ?_, fun h => by rw [dotted, h]; rfl⟩
  exact (Text.joinWith_eq_nil h).resolve_left (path_ofText_ne_nil s)

theorem proper_ofText {s : Text} (hs : ¬ s.isBlank) (hclose : '}' ∉ s) : (ofText s).Proper := by
  refine ⟨?_, ?_, ?_, ?_, ?_⟩
  · exact path_ofText_ne_nil s
  · intro segment h
    obtain ⟨part, _, rfl⟩ := List.mem_map.1 h
    exact Text.trim_trim part
  · intro segment h hdot
    obtain ⟨part, hpart, rfl⟩ := List.mem_map.1 h
    exact Text.not_mem_of_mem_splitOn hpart (Text.trim_subset part hdot)
  · intro segment h hbrace
    obtain ⟨part, hpart, rfl⟩ := List.mem_map.1 h
    exact hclose (Text.trim_subset s
      (Text.subset_of_mem_splitOn hpart (Text.trim_subset part hbrace)))
  · exact fun h => hs (path_ofText_eq_iff.1 h)

namespace Proper
variable {e : Expression}

theorem trim_dotted (h : e.Proper) : Text.trim e.dotted = e.dotted := by
  refine Text.trim_eq_self_iff.2 (Text.Edged.joinWith (Text.trim_eq_self_iff.1 ?_) ?_)
  · decide
  · exact fun segment hs => Text.trim_eq_self_iff.1 (h.trimmed segment hs)

theorem splitOn_dotted (h : e.Proper) : e.dotted.splitOn '.' = e.path := by
  rw [dotted]
  exact Text.splitOn_joinWith h.undotted h.nonempty

theorem dotted_ne_nil (h : e.Proper) : e.dotted ≠ [] := by
  intro hnil
  have hpath := h.splitOn_dotted
  rw [hnil, List.splitOn_nil] at hpath
  exact h.nonblank hpath.symm

theorem not_mem_dotted (h : e.Proper) : '}' ∉ e.dotted := by
  intro hbrace
  rcases Text.mem_joinWith hbrace with hdot | ⟨segment, hs, hsegment⟩
  · exact absurd hdot (by decide)
  · exact h.unclosed segment hs hsegment

/-- blanks around a dotted path are not part of it -/
theorem ofText_padded (h : e.Proper) : ofText (' ' :: e.dotted ++ [' ']) = e := by
  have hpad : Text.trim ([' '] ++ e.dotted ++ [' ']) = e.dotted := by
    rw [Text.trim_pad rfl _ rfl, h.trim_dotted]
  have hmap : e.path.map Text.trim = e.path := by
    rw [List.map_congr_left h.trimmed, List.map_id']
  show (⟨((Text.trim ([' '] ++ e.dotted ++ [' '])).splitOn '.').map Text.trim⟩ : Expression) = e
  rw [hpad, h.splitOn_dotted, hmap]

end Proper

end Expression

/-! ## fragments -/

namespace Fragment

/-- a brace twice, any other character once -/
def doubled (c : Char) : Text := if isBrace c then [c, c] else [c]

def written : Fragment → Text
  | .text t => t.flatMap doubled
  | .expression e => '{' :: (' ' :: e.dotted ++ [' ']) ++ ['}']

def isText : Fragment → Bool
  | .text _ => true
  | .expression _ => false

def Proper : Fragment → Prop
  | .text t => t ≠ []
  | .expression e => e.Proper

instance (f : Fragment) : Decidable f.Proper :=
  match f with
  | .text t => inferInstanceAs (Decidable (t ≠ []))
  | .expression e => inferInstanceAs (Decidable e.Proper)

/-- not both are text -/
def Apart (f g : Fragment) : Prop := f.isText = false ∨ g.isText = false

instance (f g : Fragment) : Decidable (Apart f g) := inferInstanceAs (Decidable (_ ∨ _))

/-- proper fragments, no two texts side by side -/
structure Canonical (fs : List Fragment) : Prop where
  proper : ∀ f ∈ fs, f.Proper
  apart : fs.IsChain Apart

instance (fs : List Fragment) : Decidable (Canonical fs) :=
  decidable_of_iff ((∀ f ∈ fs, f.Proper) ∧ fs.IsChain Apart)
    ⟨fun ⟨h1, h2⟩ => ⟨h1, h2⟩, fun h => ⟨h.proper, h.apart⟩⟩

/-- a fragment cut into characters, as far as it is text -/
def chars : Fragment → List Fragment
  | .text t => t.map fun c => .text [c]
  | .expression e => [.expression e]

theorem cons_of_apart {f : Fragment} {fs : List Fragment} (h : ∀ g ∈ fs.head?, Apart f g) :
    cons f fs = f :: fs := by
  cases fs with
  | nil => cases f <;> rfl
  | cons g fs =>
    cases f with
    | expression e => rfl
    | text s =>
      cases g with
      | expression e => rfl
      | text t => rcases h _ rfl with h | h <;> cases h

theorem cons_text_cons (s t : Text) (fs : List Fragment) :
    cons (.text s) (cons (.text t) fs) = cons (.text (s ++ t)) fs := by
  cases fs with
  | nil => rfl
  | cons g fs =>
    cases g with
    | expression e => rfl
    | text u =>
      show [Fragment.text (s ++ (t ++ u))] ++ fs = [.text (s ++ t ++ u)] ++ fs
      rw [List.append_assoc]

/-- the characters of a fragment join to the fragment -/
theorem foldr_cons_chars {f : Fragment} (h : f.Proper) (fs : List Fragment) :
    f.chars.foldr cons fs = cons f fs := by
  cases f with
  | expression e => rfl
  | text t =>
    obtain ⟨c, t, rfl⟩ := List.exists_cons_of_ne_nil h
    clear h
    induction t generalizing c with
    | nil => rfl
    | cons d t ih =>
      show cons (.text [c]) ((Fragment.text (d :: t)).chars.foldr cons fs) = _
      rw [ih d, cons_text_cons]
      rfl

theorem join_chars {fs : List Fragment} (h : Canonical fs) : join (fs.flatMap chars) = fs := by
  induction fs with
  | nil => rfl
  | cons f fs ih =>
    have hrest : Canonical fs :=
      ⟨fun g hg => h.proper g (List.mem_cons_of_mem f hg), h.apart.tail⟩
    have hjoin : (fs.flatMap chars).foldr cons [] = fs := ih hrest
    rw [join, List.flatMap_cons, List.foldr_append, hjoin,
      foldr_cons_chars (h.proper f List.mem_cons_self)]
    exact cons_of_apart (List.isChain_cons.1 h.apart).1

theorem canonical_cons {f : Fragment} {fs : List Fragment} (hf : f.Proper) (h : Canonical fs) :
    Canonical (cons f fs) := by
  have hnew (hapart : ∀ g ∈ fs.head?, Apart f g) : Canonical (cons f fs) := by
    rw [cons_of_apart hapart]
    exact ⟨List.forall_mem_cons.2 ⟨hf, h.proper⟩, List.isChain_cons.2 ⟨hapart, h.apart⟩⟩
  cases f with
  | expression e => exact hnew (fun _ _ => .inl rfl)
  | text s =>
    cases fs with
    | nil => exact hnew (fun _ hg => by cases hg)
    | cons g fs =>
      cases g with
      | expression e => exact hnew (fun _ hg => .inr (Option.some.inj hg ▸ rfl))
      | text t =>
        -- the joined text stands where `t` stood
        obtain ⟨ht, hfs⟩ := List.forall_mem_cons.1 h.proper
        refine ⟨List.forall_mem_cons.2 ⟨?_, hfs⟩, ?_⟩
        · exact fun hnil => ht (List.append_eq_nil_iff.1 hnil).2
        · obtain ⟨hhead, htail⟩ := List.isChain_cons.1 h.apart
          exact List.isChain_cons.2 ⟨fun g hg => hhead g hg, htail⟩

theorem canonical_join {fs : List Fragment} (h : ∀ f ∈ fs, f.Proper) : Canonical (join fs) := by
  induction fs with
  | nil => exact ⟨fun _ hf => absurd hf List.not_mem_nil, .nil⟩
  | cons f fs ih =>
    obtain ⟨hf, hfs⟩ := List.forall_mem_cons.1 h
    exact canonical_cons hf (ih hfs)

end Fragment

/-! ## pieces -/

namespace Placeholder

def render (fs : List Fragment) : Text := fs.flatMap Fragment.written

theorem not_mem_upTo (s : Text) : '}' ∉ Text.upTo closing s := fun h =>
  absurd (Text.eq_false_of_mem_upTo h) (by decide)

theorem proper_braced {inner : Text} (h : '}' ∉ inner) : (Piece.braced inner).fragment.Proper := by
  rw [Piece.fragment]
  split
  · exact List.cons_ne_nil _ _
  · next hblank => exact Expression.proper_ofText hblank h

theorem proper_unclosed {tail : Text} (h : '}' ∉ tail) :
    (Piece.unclosed tail).fragment.Proper := by
  rw [Piece.fragment]
  split
  · exact List.cons_ne_nil _ _
  · next hblank => exact Expression.proper_ofText hblank h

/-- a padded path is read as its expression -/
theorem fragment_padded {e : Expression} (h : e.Proper) :
    (Piece.braced (' ' :: e.dotted ++ [' '])).fragment = .expression e := by
  have hblank : ¬ Text.isBlank (' ' :: e.dotted ++ [' ']) := by
    intro hblank
    have hpad : Text.trim ([' '] ++ e.dotted ++ [' ']) = e.dotted := by
      rw [Text.trim_pad rfl _ rfl, h.trim_dotted]
    exact h.dotted_ne_nil (hpad.symm.trans (Text.isBlank_iff_trim_eq_nil.1 hblank))
  rw [Piece.fragment, if_neg hblank, h.ofText_padded]

theorem pieces_char {c : Char} (h : isBrace c = false) (s : Text) :
    pieces (c :: s) = .literal c :: pieces s := by
  obtain ⟨hopen, hclose⟩ : c ≠ '{' ∧ c ≠ '}' := by simpa [isBrace] using h
  rw [pieces]
  all_goals
    intros
    contradiction

theorem pieces_doubled {c : Char} (h : isBrace c = true) (s : Text) :
    pieces (c :: c :: s) = .literal c :: pieces s := by
  have hc : c = '{' ∨ c = '}' := by simpa [isBrace] using h
  rcases hc with rfl | rfl
  · rw [pieces]
  · rw [pieces]

theorem pieces_braced {inner : Text} (hopen : ∀ c ∈ inner.head?, c ≠ '{') (hclose : '}' ∉ inner)
    (s : Text) : pieces ('{' :: inner ++ '}' :: s) = .braced inner :: pieces s := by
  have hno : ∀ c ∈ inner, closing c = false := fun c hc =>
    beq_false_of_ne (fun he => hclose (he ▸ hc))
  have hsince : Text.since closing (inner ++ '}' :: s) = '}' :: s :=
    Text.since_append_cons hno rfl s
  have hupTo : Text.upTo closing (inner ++ '}' :: s) = inner := Text.upTo_append_cons hno rfl s
  rw [List.cons_append, pieces]
  · split
    · next hnil =>
      rw [hsince] at hnil
      cases hnil
    · next rest hrest =>
      rw [hsince] at hrest
      rw [hupTo, (List.cons.inj hrest).2]
  · intro r hr
    cases inner with
    | nil => cases hr
    | cons c inner => exact hopen c rfl (List.cons.inj hr).1

theorem pieces_text (t s : Text) :
    pieces (t.flatMap Fragment.doubled ++ s) = t.map .literal ++ pieces s := by
  induction t with
  | nil => rfl
  | cons c t ih =>
    rw [List.flatMap_cons, List.append_assoc, List.map_cons, List.cons_append, ← ih]
    unfold Fragment.doubled
    split
    · next hc => exact pieces_doubled hc _
    · next hc => exact pieces_char (Bool.eq_false_iff.2 hc) _

theorem pieces_expression {e : Expression} (h : e.Proper) (s : Text) :
    pieces ((Fragment.expression e).written ++ s)
      = .braced (' ' :: e.dotted ++ [' ']) :: pieces s := by
  have hclose : '}' ∉ (' ' :: e.dotted ++ [' ']) := by
    rw [List.cons_append, List.mem_cons, List.mem_append, List.mem_singleton]
    rintro (hc | hc | hc)
    · exact absurd hc (by decide)
    · exact h.not_mem_dotted hc
    · exact absurd hc (by decide)
  have htext : (Fragment.expression e).written ++ s
      = '{' :: (' ' :: e.dotted ++ [' ']) ++ '}' :: s := List.append_assoc _ ['}'] s
  rw [htext, pieces_braced (fun c hc => by cases hc; decide) hclose]

/-- the pieces of a written form say the fragments character by character -/
theorem pieces_render {fs : List Fragment} (h : ∀ f ∈ fs, f.Proper) :
    (pieces (render fs)).map Piece.fragment = fs.flatMap Fragment.chars := by
  induction fs with
  | nil =>
    rw [render, List.flatMap_nil, pieces]
    rfl
  | cons f fs ih =>
    obtain ⟨hf, hfs⟩ := List.forall_mem_cons.1 h
    have hrender : render (f :: fs) = f.written ++ render fs := List.flatMap_cons
    rw [hrender, List.flatMap_cons, ← ih hfs]
    cases f with
    | text t =>
      have hchars : (t.map Piece.literal).map Piece.fragment = (Fragment.text t).chars :=
        List.map_map
      rw [Fragment.written, pieces_text, List.map_append, hchars]
    | expression e =>
      rw [pieces_expression hf, List.map_cons, fragment_padded hf]
      rfl

theorem proper_fragment {source : Text} : ∀ p ∈ pieces source, p.fragment.Proper := by
  fun_induction pieces source with
  | case1 => exact fun _ hp => absurd hp List.not_mem_nil
  | case2 s ih => exact List.forall_mem_cons.2 ⟨List.cons_ne_nil _ _, ih⟩
  | case3 s ih => exact List.forall_mem_cons.2 ⟨List.cons_ne_nil _ _, ih⟩
  | case4 s _ hnone =>
    refine List.forall_mem_cons.2 ⟨proper_unclosed ?_, fun _ hp => absurd hp List.not_mem_nil⟩
    -- a tail without an end is passed over as a whole
    have hwhole := Text.upTo_append_since closing s
    rw [hnone, List.append_nil] at hwhole
    rw [← hwhole]
    exact not_mem_upTo s
  | case5 s _ _ rest _ ih => exact List.forall_mem_cons.2 ⟨proper_braced (not_mem_upTo s), ih⟩
  | case6 c s _ _ _ ih => exact List.forall_mem_cons.2 ⟨List.cons_ne_nil _ _, ih⟩

theorem canonical_fragments (source : Text) : Fragment.Canonical (fragments source) := by
  refine Fragment.canonical_join ?_
  intro f hf
  obtain ⟨p, hp, rfl⟩ := List.mem_map.1 hf
  exact proper_fragment p hp

theorem fragments_of_canonical {fs : List Fragment} (h : Fragment.Canonical fs) :
    fragments (render fs) = fs := by
  rw [fragments, pieces_render h.proper, Fragment.join_chars h]

/-- **Writing and reading placeholders.**  Canonical fragments are read as they were written, and
what is read from any text is canonical, so that it is read again as it is written. -/
theorem fragments_render :
    (∀ fs, Fragment.Canonical fs → fragments (render fs) = fs) ∧
    (∀ source, Fragment.Canonical (fragments source)) ∧
    ∀ source, fragments (render (fragments source)) = fragments source :=
  ⟨fun _ h => fragments_of_canonical h, canonical_fragments,
    fun source => fragments_of_canonical (canonical_fragments source)⟩

/-- an expression between braces, with a segment that starts with one and an empty segment -/
def embraced : List Fragment := [.text ['{'], .expression ⟨["\x7ba".toList, []]⟩, .text ['}']]

theorem fragments_render_embraced :
    Fragment.Canonical embraced ∧ render embraced = "\x7b\x7b\x7b \x7ba. \x7d\x7d\x7d".toList ∧
      fragments (render embraced) = embraced := by
  have h : Fragment.Canonical embraced := by decide
  exact ⟨h, by decide, fragments_render.1 embraced h⟩

end Placeholder

end PageTemplates
