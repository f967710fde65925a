import PageTemplates.Proofs.ImportTargets

/-!
# References that are replaced again

What is written where a url is replaced is read as that url again, so that a text with replaced
references has as many references as before, with the new urls in the places of the old ones.  The
loop never looks at what it has written, and what is never closed stays as it is.

* `updated`                 the url that is left where a url stood;
* `after`                   two replacements, one after the other;
* `replaced_replaced`       one reference that is replaced twice;
* `retarget_references`     all references of a text, or of a rule.
-/

namespace PageTemplates.Css

/-- the url that is left where `u` stood -/
def updated (f : Text → Option Text) (u : Text) : Text := (f u).getD u

/-- what `g` makes of what `f` leaves; nothing if neither replaces -/
def after (g f : Text → Option Text) (u : Text) : Option Text :=
  match f u with
  | none => g u
  | some new => some (updated g new)

theorem isInner_iff {t : Text} : IsInner t ↔ ')' ∉ t := by
  constructor
  · intro h hmem
    exact absurd (h ')' hmem) (by decide)
  · intro h c hc
    apply beq_eq_false_iff_ne.2
    rintro rfl
    exact h hc

section
variable {f g : Text → Option Text}

/-- a reference that is replaced keeps its quotes when it is replaced again -/
theorem replaced_replaced (g f : Text → Option Text) (inner : Text) :
    replaced g (replaced f inner) = replaced (after g f) inner := by
  cases hf : f (Segment.target inner).2 with
  | none =>
    have hkept : replaced f inner = inner := by
      unfold replaced
      rw [hf]
    have hafter : after g f (Segment.target inner).2 = g (Segment.target inner).2 := by
      unfold after
      rw [hf]
    rw [hkept]
    unfold replaced
    rw [hafter]
  | some new =>
    have hnew : replaced f inner = (Segment.target inner).1.getD '"' :: new
        ++ [(Segment.target inner).1.getD '"'] := by
      unfold replaced
      rw [hf]
    have hafter : after g f (Segment.target inner).2 = some (updated g new) := by
      unfold after
      rw [hf]
    have htarget := target_quoted (quote_cases inner) new
    rw [hnew]
    unfold replaced
    rw [hafter, htarget]
    unfold updated
    cases g new with
    | none => rfl
    | some newer => rfl

/-- a text without references is copied -/
theorem retarget_of_plain {s : Text} (h : segments s = [.text s]) : retarget f s = s := by
  unfold retarget
  rw [h]
  exact List.flatMap_singleton _ _

theorem urls_of_plain {s : Text} (h : segments s = [.text s]) : urls s = [] := by
  unfold urls
  rw [h]
  rfl

theorem retarget_of_none {s : Text} (h : ∀ u ∈ urls s, f u = none) : retarget f s = s := by
  induction s using references_induction with
  | plain s hs => exact retarget_of_plain hs
  | reference before keyword inner rest hopens hinner ih =>
    rw [urls_of_opens hopens hinner, List.forall_mem_cons] at h
    obtain ⟨hfirst, hrest⟩ := h
    have hkept : replaced f inner = inner := by
      unfold replaced
      rw [hfirst]
    rw [retarget_of_opens hopens hinner, hkept, ih hrest]

theorem urls_retarget (hf : ∀ u new, f u = some new → IsInner new) (s : Text) :
    urls (retarget f s) = (urls s).map (updated f) := by
  induction s using references_induction with
  | plain s hs => rw [retarget_of_plain hs, urls_of_plain hs, List.map_nil]
  | reference before keyword inner rest hopens hinner ih =>
    rw [retarget_of_opens hopens hinner,
      urls_of_opens hopens (isInner_replaced hinner fun new => hf _ new), target_replaced,
      urls_of_opens hopens hinner, List.map_cons, ih]
    rfl

theorem retarget_retarget (hf : ∀ u new, f u = some new → IsInner new) (s : Text) :
    retarget g (retarget f s) = retarget (after g f) s := by
  induction s using references_induction with
  | plain s hs => rw [retarget_of_plain hs, retarget_of_plain hs, retarget_of_plain hs]
  | reference before keyword inner rest hopens hinner ih =>
    rw [retarget_of_opens hopens hinner,
      retarget_of_opens hopens (isInner_replaced hinner fun new => hf _ new), replaced_replaced,
      retarget_of_opens hopens hinner, ih]

end

/-! ## rules -/

theorem Node.referring_retarget (f : Text → Option Text) (n : Node) :
    (n.retarget f).referring = Css.retarget f n.referring := by
  have hnil : Css.retarget f [] = [] := by
    rcases segments_cases [] with h | ⟨before, keyword, inner, rest, -, -, h⟩
    · exact retarget_of_plain h
    · have hlength := congrArg List.length h
      simp only [List.length_append, List.length_cons, List.length_nil] at hlength
      omega
  cases n with
  | sheet rules => exact hnil.symm
  | rule | statement | group | block => rfl

theorem Node.urls_retarget {f : Text → Option Text} (hf : ∀ u new, f u = some new → IsInner new)
    (n : Node) : (n.retarget f).urls = n.urls.map (updated f) := by
  unfold Node.urls
  rw [Node.walk_retarget, List.flatMap_map, List.map_flatMap]
  congr 1
  funext m
  rw [Node.referring_retarget, Css.urls_retarget hf]

/-! ## all references -/

/-- **References after a replacement.**  If no replacement has a `)` in it, the urls of the written
text are the urls of the text in order, each with what replaces it, and the same holds of a rule;
a second replacement sees these urls, and comes to the same text as the composite of both; and a
text in which nothing is replaced is copied. -/
theorem retarget_references (f : Text → Option Text) (hf : ∀ u new, f u = some new → ')' ∉ new)
    (s : Text) :
    urls (retarget f s) = (urls s).map (updated f) ∧
    (∀ n : Node, (n.retarget f).urls = n.urls.map (updated f)) ∧
    (∀ g, retarget g (retarget f s) = retarget (after g f) s ∧
      ((∀ u new, g u = some new → ')' ∉ new) →
        urls (retarget g (retarget f s)) = (urls s).map fun u => updated g (updated f u))) ∧
    ((∀ u ∈ urls s, f u = none) → retarget f s = s) := by
  have hinner (g : Text → Option Text) (hg : ∀ u new, g u = some new → ')' ∉ new) :
      ∀ u new, g u = some new → IsInner new := fun u new h => isInner_iff.2 (hg u new h)
  have hurls := urls_retarget (hinner f hf) s
  refine ⟨hurls, Node.urls_retarget (hinner f hf), fun g => ⟨?_, fun hg => ?_⟩, retarget_of_none⟩
  · exact retarget_retarget (hinner f hf) s
  · rw [urls_retarget (hinner g hg), hurls, List.map_map]
    rfl

/-- one url is replaced, and every other stays -/
def relabel (old new : String) (u : Text) : Option Text :=
  if u = old.toList then some new.toList else none

/-- quotes, blanks, mixed case, and a reference that is never closed -/
def mixedSource : Text := "x URL( 'a' ) url(d) Url(a) url(a".toList

/-- a replacement with a quote in it, and one that looks like a reference -/
theorem retarget_references_mixed :
    (∀ u new, relabel "a" "b\"" u = some new → ')' ∉ new) ∧
    retarget (relabel "a" "b\"") mixedSource
      = "x URL('b\"') url(d) Url(\"b\"\") url(a".toList ∧
    urls (retarget (relabel "a" "b\"") mixedSource)
      = ["b\"".toList, "d".toList, "b\"".toList] ∧
    urls (retarget (relabel "b\"" "url(c") (retarget (relabel "a" "b\"") mixedSource))
      = ["url(c".toList, "d".toList, "url(c".toList] := by
  have hrelabel (old new : String) (hnew : ')' ∉ new.toList) :
      ∀ u v, relabel old new u = some v → ')' ∉ v := by
    intro u v h
    unfold relabel at h
    split at h
    · exact Option.some.inj h ▸ hnew
    · cases h
  have hfirst := hrelabel "a" "b\"" (by decide)
  obtain ⟨hurls, -, htwice, -⟩ := retarget_references _ hfirst mixedSource
  refine ⟨hfirst, by decide +kernel, hurls.trans (by decide +kernel), ?_⟩
  exact ((htwice (relabel "b\"" "url(c")).2 (hrelabel _ _ (by decide))).trans (by decide +kernel)

end PageTemplates.Css
