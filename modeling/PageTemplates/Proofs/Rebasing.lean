import PageTemplates.Location
import PageTemplates.Proofs.Paths

/-!
# Urls that move

A url that is rebased names the same resource as before, from wherever it is read, and it is not
rebased again.  A url that is left as it is names the same resource from wherever it is read, unless
it is rooted in the origin of its location.

* `Url.hasScheme_iff`, `Url.hasScheme_join`   a scheme is kept by what is joined to its url;
* `resolveUrl_relative_file`, `resolveUrl_slash_file`   what a relative or a rooted url stands for;
* `resolveUrl_siteUrl`     what the url of a file of the site stands for;
* `resolveUrl_rebase`      the resource of a rebased url;
* `resolveUrl_same_origin` rooted urls, `resolveUrl_fixed` all urls that are left as they are.
-/

namespace PageTemplates

/-! ## schemes -/

namespace Url

/-- whether a text can stand before the colon of a url with a scheme -/
def IsScheme : Text → Prop
  | c :: d :: rest => c.isAlpha = true ∧ (d :: rest).all schemeChar = true
  | _ => False

theorem schemeChar_of_isAlpha {c : Char} (h : c.isAlpha = true) : schemeChar c = true := by
  unfold schemeChar Char.isAlphanum
  rw [h]
  rfl

theorem IsScheme.schemeChar {s : Text} (h : IsScheme s) : ∀ c ∈ s, schemeChar c = true := by
  match s, h with
  | c :: d :: rest, ⟨hc, hrest⟩ =>
    intro c' hm
    rcases List.mem_cons.1 hm with rfl | hm
    · exact schemeChar_of_isAlpha hc
    · exact List.all_eq_true.1 hrest c' hm

theorem IsScheme.not_isColon {s : Text} (h : IsScheme s) : ∀ c ∈ s, isColon c = false := by
  intro c hc
  apply Bool.eq_false_iff.2
  intro hcolon
  have hs := h.schemeChar c hc
  rw [eq_of_beq hcolon] at hs
  exact absurd hs (by decide)

theorem hasScheme_iff {url : Text} :
    hasScheme url = true ↔ ∃ s rest, IsScheme s ∧ url = s ++ ':' :: rest := by
  unfold hasScheme
  constructor
  · intro h
    obtain ⟨hsince, hscheme⟩ := Bool.and_eq_true_iff.1 h
    obtain ⟨c, rest, hrest⟩ : ∃ c rest, Text.since isColon url = c :: rest := by
      apply List.exists_cons_of_ne_nil
      intro hnil
      rw [hnil] at hsince
      cases hsince
    have hcolon : isColon c = true := Text.eq_true_of_since hrest
    refine ⟨Text.upTo isColon url, rest, ?_, ?_⟩
    · split at hscheme
      · next c d rest hup =>
        rw [hup]
        exact Bool.and_eq_true_iff.1 hscheme
      · cases hscheme
    · rw [← eq_of_beq hcolon, ← hrest, Text.upTo_append_since]
  · rintro ⟨s, rest, hs, rfl⟩
    rw [Text.since_append_cons hs.not_isColon rfl, Text.upTo_append_cons hs.not_isColon rfl]
    match s, hs with
    | c :: d :: _, ⟨hc, hrest⟩ =>
      show (true && (c.isAlpha && _)) = true
      rw [hc, hrest]
      rfl

/-- the origin of a url keeps the scheme -/
theorem split_of_scheme {s rest : Text} (hs : IsScheme s) :
    ∃ rest', (split (s ++ ':' :: rest)).1 = s ++ ':' :: rest' := by
  have hslash : ∀ c ∈ s ++ [':'], isSlash c = false := by
    intro c hc
    rcases List.mem_append.1 hc with hc | hc
    · apply Bool.eq_false_iff.2
      intro hcs
      have hchar := hs.schemeChar c hc
      rw [eq_of_beq hcs] at hchar
      exact absurd hchar (by decide)
    · rw [List.mem_singleton.1 hc]
      rfl
  unfold split authorityStart
  cases hfind : Text.find? "://".toList (s ++ ':' :: rest) with
  | none =>
    refine ⟨Text.upTo isSlash rest, ?_⟩
    show Text.upTo isSlash (s ++ ':' :: rest) = _
    rw [List.append_cons, Text.upTo_append hslash, ← List.append_cons]
  | some j =>
    obtain ⟨_, hj⟩ := Text.find?_spec hfind
    -- the mark starts with a colon, and there is none in the scheme
    have hle : s.length ≤ j := by
      apply Nat.le_of_not_lt
      intro hlt
      rw [List.drop_append_of_le_length (Nat.le_of_lt hlt), List.drop_eq_getElem_cons hlt] at hj
      have hcolon : ':' = s[j] := (List.cons_prefix_cons.1 hj).1
      have hno := hs.not_isColon s[j] (List.getElem_mem hlt)
      rw [← hcolon] at hno
      cases hno
    obtain ⟨k, rfl⟩ := Nat.exists_eq_add_of_le hle
    have htake : (s ++ ':' :: rest).take (s.length + k + 3) = s ++ ':' :: rest.take (k + 2) := by
      have hk : s.length + k + 3 - s.length = k + 2 + 1 := by omega
      rw [List.take_append, List.take_of_length_le (by omega), hk, List.take_succ_cons]
    refine ⟨rest.take (k + 2)
      ++ Text.upTo isSlash ((s ++ ':' :: rest).drop (s.length + k + 3)), ?_⟩
    show (s ++ ':' :: rest).take (s.length + k + 3) ++ _ = _
    rw [htake, List.append_assoc, List.cons_append]

/-- a relative reference is joined behind the scheme of its base -/
theorem hasScheme_join {base reference : Text} (hbase : hasScheme base = true)
    (h : hasScheme reference = false) (hslash : startsWith ['/', '/'] reference = false) :
    hasScheme (join base reference) = true := by
  obtain ⟨s, rest, hs, rfl⟩ := hasScheme_iff.1 hbase
  obtain ⟨rest', hsplit⟩ : ∃ rest', (split (s ++ ':' :: rest)).1 = s ++ ':' :: rest' :=
    split_of_scheme hs
  unfold join
  rw [h, hslash]
  dsimp only
  rw [if_neg Bool.false_ne_true, if_neg Bool.false_ne_true, hsplit, List.append_assoc]
  exact hasScheme_iff.2 ⟨s, _, hs, rfl⟩

theorem hasScheme_slash (t : Text) : hasScheme ('/' :: t) = false := by
  apply Bool.eq_false_iff.2
  intro h
  obtain ⟨s, rest, hs, he⟩ := hasScheme_iff.1 h
  match s, hs with
  | c :: d :: _, ⟨hc, _⟩ =>
    obtain rfl : '/' = c := (List.cons.inj he).1
    exact absurd hc (by decide)

end Url

/-! ## what urls stand for -/

namespace Location

/-- a location whose path, if it is a file, has a spelling -/
def Proper : Location → Prop
  | .file path => path.Proper
  | .remote _ => True

theorem proper_remote (base : Text) : (remote base).Proper := trivial

theorem isFixed_eq_false_iff {url : Text} : isFixed url = false ↔
    url ≠ [] ∧ Url.hasScheme url = false ∧ url.head? ≠ some '/' ∧ url.head? ≠ some '#' := by
  cases url with
  | nil => simp [isFixed]
  | cons c rest => simp [isFixed, and_assoc]

theorem startsWith_slashes {url : Text} (h : url.head? ≠ some '/') :
    Url.startsWith ['/', '/'] url = false := by
  cases url with
  | nil => rfl
  | cons c rest =>
    have hc : ('/' == c) = false := beq_false_of_ne fun he => h (congrArg some he.symm)
    unfold Url.startsWith
    rw [List.isPrefixOf_cons_cons, hc]
    rfl

theorem startsWith_slashes_cons {t : Text} (h : t.head? ≠ some '/') :
    Url.startsWith ['/', '/'] ('/' :: t) = false := by
  cases t with
  | nil => rfl
  | cons c rest =>
    have hc : ('/' == c) = false := beq_false_of_ne fun he => h (congrArg some he.symm)
    unfold Url.startsWith
    rw [List.isPrefixOf_cons_cons, List.isPrefixOf_cons_cons, hc]
    rfl

section
variable {siteRoot : Path} {url : Text} (h : isFixed url = false)
include h

theorem resolveUrl_relative_remote (base : Text) :
    (Location.remote base).resolveUrl siteRoot url = .remote (Url.join base url) := by
  obtain ⟨_, hscheme, hslash, _⟩ := isFixed_eq_false_iff.1 h
  unfold resolveUrl
  rw [hscheme, startsWith_slashes hslash]
  rfl

theorem resolveUrl_relative_file (path : Path) : (Location.file path).resolveUrl siteRoot url
    = ofPath (path.directory.join (.ofText (Url.withoutQuery url))) := by
  obtain ⟨_, hscheme, hslash, _⟩ := isFixed_eq_false_iff.1 h
  have hrelative (rooted : Text) : Url.withoutQuery url ≠ '/' :: rooted := by
    intro he
    have hwhole := Text.upTo_append_since Url.isQuery url
    rw [show Text.upTo Url.isQuery url = '/' :: rooted from he] at hwhole
    rw [← hwhole] at hslash
    exact hslash rfl
  unfold resolveUrl
  rw [hscheme, startsWith_slashes hslash, if_neg Bool.false_ne_true, if_neg Bool.false_ne_true]
  dsimp only
  split
  · next rooted he => exact absurd he (hrelative rooted)
  · rfl

end

theorem resolveUrl_of_startsWith_slashes {url : Text}
    (h : Url.startsWith ['/', '/'] url = true) (l : Location) (siteRoot : Path) :
    l.resolveUrl siteRoot url = .remote ("https:".toList ++ url) := by
  obtain ⟨t, rfl⟩ := List.isPrefixOf_iff_prefix.1 h
  unfold resolveUrl
  rw [h, if_pos rfl]
  exact if_neg (Bool.eq_false_iff.1 (Url.hasScheme_slash _))

section
variable {siteRoot : Path} {t : Text}

theorem resolveUrl_slash_remote (hsingle : Url.startsWith ['/', '/'] ('/' :: t) = false)
    (base : Text) : (Location.remote base).resolveUrl siteRoot ('/' :: t)
      = .remote (Url.join base ('/' :: t)) := by
  unfold resolveUrl
  rw [Url.hasScheme_slash, hsingle]
  rfl

theorem resolveUrl_slash_file (hsingle : Url.startsWith ['/', '/'] ('/' :: t) = false)
    (path : Path) : (Location.file path).resolveUrl siteRoot ('/' :: t)
      = ofPath (siteRoot.join (.ofText (Url.withoutQuery t))) := by
  have hrooted : Url.withoutQuery ('/' :: t) = '/' :: Url.withoutQuery t :=
    Text.upTo_append (s := ['/']) (List.forall_mem_singleton.2 rfl) t
  unfold resolveUrl
  rw [Url.hasScheme_slash, hsingle, if_neg Bool.false_ne_true, if_neg Bool.false_ne_true]
  dsimp only
  rw [hrooted]
  rfl

/-- a rooted url that stands for a file is read in a file, with a single slash -/
theorem resolveUrl_slash_eq_file {origin : Location} {p : Path}
    (hp : origin.resolveUrl siteRoot ('/' :: t) = .file p) :
    Url.startsWith ['/', '/'] ('/' :: t) = false ∧
      .file p = ofPath (siteRoot.join (.ofText (Url.withoutQuery t))) := by
  cases hsingle : Url.startsWith ['/', '/'] ('/' :: t) with
  | true =>
    rw [resolveUrl_of_startsWith_slashes hsingle] at hp
    cases hp
  | false =>
    cases origin with
    | remote base =>
      rw [resolveUrl_slash_remote hsingle] at hp
      cases hp
    | file path => exact ⟨rfl, hp.symm.trans (resolveUrl_slash_file hsingle path)⟩

/-- a rooted url adds no name that is no text to those of the site root -/
theorem countP_isRaw_resolveUrl {origin : Location} {p : Path}
    (hp : origin.resolveUrl siteRoot ('/' :: t) = .file p) :
    p.parts.countP Path.Part.isRaw ≤ siteRoot.parts.countP Path.Part.isRaw := by
  obtain rfl := Location.file.inj (resolveUrl_slash_eq_file hp).2
  have hjoin : (siteRoot.join (.ofText (Url.withoutQuery t))).parts.countP Path.Part.isRaw
      ≤ siteRoot.parts.countP Path.Part.isRaw := by
    have htext := Path.countP_isRaw_ofText (Url.withoutQuery t)
    unfold Path.join
    split
    · rw [htext]
      exact Nat.zero_le _
    · rw [List.countP_append, htext]
      exact Nat.le_refl _
  exact Nat.le_trans (Path.countP_isRaw_normal _) hjoin

end

/-- a rooted url stands for one file, wherever it is read -/
theorem resolveUrl_rooted {siteRoot : Path} {origin : Location} {u : Text} {p : Path}
    (hslash : u.head? = some '/') (hp : origin.resolveUrl siteRoot u = .file p) (target : Path) :
    (Location.file target).resolveUrl siteRoot u = .file p := by
  obtain ⟨t, rfl⟩ := List.head?_eq_some_iff.1 hslash
  obtain ⟨hsingle, hplace⟩ := resolveUrl_slash_eq_file hp
  rw [resolveUrl_slash_file hsingle, hplace]

theorem not_isQuery_joined {parts : List Text}
    (hplain : ∀ t ∈ parts, ∀ c ∈ t, Url.isQuery c = false) :
    ∀ c ∈ '/' :: Text.joinWith ['/'] parts, Url.isQuery c = false := by
  intro c hc
  rcases List.mem_cons.1 hc with rfl | hc
  · rfl
  · rcases Text.mem_joinWith hc with hc | ⟨part, hpart, hc⟩
    · rw [List.mem_singleton.1 hc]
      rfl
    · exact hplain part hpart c hc

/-- the url of a file of the site, with any query, stands for the file -/
theorem resolveUrl_siteUrl {siteRoot : Path} {parts : List Text}
    (hparts : ∀ t ∈ parts, Path.IsPart (.text t))
    (hplain : ∀ t ∈ parts, ∀ c ∈ t, Url.isQuery c = false) (target : Path) (url : Text) :
    (Location.file target).resolveUrl siteRoot
        ('/' :: Text.joinWith ['/'] parts ++ Url.query url)
      = ofPath ⟨siteRoot.rooted, siteRoot.parts ++ parts.map .text⟩ := by
  have hsingle : Url.startsWith ['/', '/'] ('/' :: Text.joinWith ['/'] parts ++ Url.query url)
      = false := by
    apply startsWith_slashes_cons
    show (Text.joinWith ['/'] parts ++ Url.query url).head? ≠ some '/'
    rw [List.head?_append]
    intro hslash
    rcases Option.or_eq_some_iff.1 hslash with hslash | ⟨_, hslash⟩
    · exact Path.head?_joinWith_ne hparts hslash
    · obtain ⟨rest, hrest⟩ := List.head?_eq_some_iff.1 hslash
      exact absurd (Text.eq_true_of_since hrest) (by decide)
  have hquery : Url.withoutQuery (Text.joinWith ['/'] parts ++ Url.query url)
      = Text.joinWith ['/'] parts :=
    Text.upTo_append_tail (fun c hc => not_isQuery_joined hplain c (List.mem_cons_of_mem _ hc)) url
  rw [List.cons_append] at hsingle ⊢
  rw [resolveUrl_slash_file hsingle, hquery, Path.ofText_joinWith hparts]
  rfl

theorem isFixed_slash (t : Text) : isFixed ('/' :: t) = true := by
  show (_ || '/' == '/' || _) = true
  rw [beq_self_eq_true, Bool.or_true, Bool.true_or]

theorem isFixed_of_hasScheme {url : Text} (h : Url.hasScheme url = true) : isFixed url = true := by
  cases url with
  | nil => rfl
  | cons c rest =>
    show (Url.hasScheme (c :: rest) || _ || _) = true
    rw [h, Bool.true_or, Bool.true_or]

theorem rebase?_eq_none {url : Text} (h : isFixed url = true) (l : Location) (siteRoot : Path) :
    l.rebase? siteRoot url = none := if_pos h

theorem rebase?_file {url : Text} (h : isFixed url = false) {l : Location} {siteRoot path : Path}
    (hl : l.resolveUrl siteRoot url = .file path) :
    l.rebase? siteRoot url = some (siteUrl siteRoot path ++ Url.query url) := by
  unfold rebase?
  rw [h, if_neg Bool.false_ne_true, hl]

theorem rebase?_remote {url resolved : Text} (h : isFixed url = false) {l : Location}
    {siteRoot : Path} (hl : l.resolveUrl siteRoot url = .remote resolved) :
    l.rebase? siteRoot url = some resolved := by
  unfold rebase?
  rw [h, if_neg Bool.false_ne_true, hl]

theorem not_fixed_of_rebase? {l : Location} {siteRoot : Path} {url v : Text}
    (h : l.rebase? siteRoot url = some v) : isFixed url = false := by
  apply Bool.eq_false_iff.2
  intro hfixed
  rw [rebase?_eq_none hfixed] at h
  cases h

theorem resolveUrl_of_hasScheme {url : Text} (h : Url.hasScheme url = true) (l : Location)
    (siteRoot : Path) : l.resolveUrl siteRoot url = .remote url := if_pos h

/-- what a relative url of a file stands for is a walked path that has a spelling -/
theorem resolveUrl_relative_proper {siteRoot p : Path} {origin : Location} {url : Text}
    (hfixed : isFixed url = false) (horigin : origin.Proper)
    (hp : origin.resolveUrl siteRoot url = .file p) : p.normal = p ∧ p.Proper := by
  cases origin with
  | remote base =>
    rw [resolveUrl_relative_remote hfixed] at hp
    cases hp
  | file path =>
    rw [resolveUrl_relative_file hfixed] at hp
    obtain rfl := Location.file.inj hp
    have hpath : path.Proper := horigin
    exact ⟨Path.normal_normal _, (hpath.directory.join (Path.proper_ofText _)).normal⟩

section
variable {siteRoot : Path} {origin : Location} (horigin : origin.Proper) {url v : Text}
  (h : origin.rebase? siteRoot url = some v)
include h

/-- the rebased url of a file below the site root -/
theorem rebase?_below {parts : List Path.Part}
    (hp : origin.resolveUrl siteRoot url = .file ⟨siteRoot.rooted, siteRoot.parts ++ parts⟩) :
    v = '/' :: Path.joinParts parts ++ Url.query url := by
  have hsite : siteUrl siteRoot ⟨siteRoot.rooted, siteRoot.parts ++ parts⟩
      = '/' :: Path.joinParts parts := by
    unfold siteUrl
    rw [Path.below?_append]
  rw [rebase?_file (not_fixed_of_rebase? h) hp, hsite] at h
  exact (Option.some.inj h).symm

include horigin

/-- where the rebased url leads if the components below the site root are texts -/
theorem resolveUrl_below {parts : List Text}
    (hp : origin.resolveUrl siteRoot url
      = .file ⟨siteRoot.rooted, siteRoot.parts ++ parts.map .text⟩)
    (hplain : ∀ t ∈ parts, ∀ c ∈ t, Url.isQuery c = false) (target : Path) :
    (Location.file target).resolveUrl siteRoot v = origin.resolveUrl siteRoot url := by
  obtain ⟨hnormal, hproper⟩ := resolveUrl_relative_proper (not_fixed_of_rebase? h) horigin hp
  have hparts : ∀ t ∈ parts, Path.IsPart (.text t) :=
    fun t ht => hproper _ (List.mem_append_right _ (List.mem_map_of_mem ht))
  rw [rebase?_below h hp, Path.joinParts_texts, resolveUrl_siteUrl hparts hplain, hp]
  exact congrArg Location.file hnormal

end

/-- **A rebased url names the same resource.**  If a url stands at its origin for a resource of a
remote origin with a scheme, or for a file below the site root whose components there are written
without `?` and `#`, the rebased url stands for the same resource seen from any file, for a file if
and only if its components below the site root are texts.  Of a file it keeps the query and the
fragment and nothing else behind the path.  It is not rebased again. -/
theorem resolveUrl_rebase {siteRoot : Path} {origin : Location} (horigin : origin.Proper)
    {url v : Text} (h : origin.rebase? siteRoot url = some v)
    (hresource : (∃ base, origin = .remote base ∧ Url.hasScheme base = true) ∨
      ∃ parts : List Path.Part,
        origin.resolveUrl siteRoot url = .file ⟨siteRoot.rooted, siteRoot.parts ++ parts⟩ ∧
        ∀ part ∈ parts, ∀ c ∈ part.toText, Url.isQuery c = false) :
    ((∀ target, (Location.file target).resolveUrl siteRoot v = origin.resolveUrl siteRoot url) ↔
      ∀ p, origin.resolveUrl siteRoot url = .file p →
        ∃ texts : List Text, p.parts = siteRoot.parts ++ texts.map .text) ∧
    (∀ p, origin.resolveUrl siteRoot url = .file p →
      ∃ t, v = t ++ Url.query url ∧ ∀ c ∈ t, Url.isQuery c = false) ∧
    ∀ l : Location, l.rebase? siteRoot v = none := by
  rcases hresource with ⟨base, rfl, hbase⟩ | ⟨parts, hp, hplain⟩
  · have hfixed := not_fixed_of_rebase? h
    obtain ⟨_, hscheme, hslash, _⟩ := isFixed_eq_false_iff.1 hfixed
    have hresolved : (Location.remote base).resolveUrl siteRoot url
        = .remote (Url.join base url) := resolveUrl_relative_remote hfixed base
    rw [rebase?_remote hfixed hresolved] at h
    obtain rfl := Option.some.inj h
    have hjoined := Url.hasScheme_join hbase hscheme (startsWith_slashes hslash)
    rw [hresolved]
    exact ⟨⟨nofun, fun _ target => resolveUrl_of_hasScheme hjoined _ _⟩, nofun,
      fun l => rebase?_eq_none (isFixed_of_hasScheme hjoined) l siteRoot⟩
  · have hv := rebase?_below h hp
    have hwritten := not_isQuery_joined (List.forall_mem_map.2 hplain)
    refine ⟨⟨fun hsame p hp' => ?_, fun htexts => ?_⟩, fun _ _ => ⟨_, hv, hwritten⟩,
      fun l => ?_⟩
    · obtain rfl := Location.file.inj (hp.symm.trans hp')
      -- the rebased url is a text, so that what it stands for has no other names
      have hcount : (siteRoot.parts ++ parts).countP Path.Part.isRaw
          ≤ siteRoot.parts.countP Path.Part.isRaw := by
        have hrooted := (hsame siteRoot).trans hp
        rw [hv] at hrooted
        exact countP_isRaw_resolveUrl hrooted
      rw [List.countP_append] at hcount
      have hnone : parts.countP Path.Part.isRaw = 0 := by omega
      obtain ⟨texts, rfl⟩ := Path.exists_texts hnone
      exact ⟨texts, rfl⟩
    · obtain ⟨texts, hparts⟩ := htexts _ hp
      obtain rfl := List.append_cancel_left hparts
      exact resolveUrl_below horigin h hp
        (fun t ht => hplain (.text t) (List.mem_map_of_mem ht))
    · rw [hv]
      exact rebase?_eq_none (isFixed_slash _) l siteRoot

/-- a reference out of a directory, with a colon in a component and marks of paths in its query -/
theorem resolveUrl_rebase_colon :
    (∃ v, (Location.ofPath (.ofText "/site/css/x.css".toList)).rebase? (.ofText "/site".toList)
        "../a:b.png?v=/../:".toList = some v ∧
      ∀ target, (Location.file target).resolveUrl (.ofText "/site".toList) v
        = .ofPath (.ofText "/site/a:b.png".toList)) ∧
    ∃ v, (Location.remote "https://x.org/css/x.css".toList).rebase? (.ofText "/site".toList)
        "../a.png".toList = some v ∧
      ∀ target, (Location.file target).resolveUrl (.ofText "/site".toList) v
        = .remote "https://x.org/a.png".toList := by
  have hproper : (Location.ofPath (.ofText "/site/css/x.css".toList)).Proper :=
    (Path.proper_ofText _).normal
  have hfile : (Location.ofPath (.ofText "/site/css/x.css".toList)).resolveUrl
      (.ofText "/site".toList) "../a:b.png?v=/../:".toList
      = .ofPath (.ofText "/site/a:b.png".toList) := by decide
  have hbelow : Location.ofPath (.ofText "/site/a:b.png".toList)
      = .file ⟨(Path.ofText "/site".toList).rooted,
        (Path.ofText "/site".toList).parts ++ [.text "a:b.png".toList]⟩ := by decide
  have hplain : ("a:b.png".toList.all fun c => Url.isQuery c == false) = true := by decide
  simp only [List.all_eq_true, beq_iff_eq] at hplain
  have hmoved : (Location.ofPath (.ofText "/site/css/x.css".toList)).rebase?
      (.ofText "/site".toList) "../a:b.png?v=/../:".toList
      = some "/a:b.png?v=/../:".toList := by decide
  have hremote : (Location.remote "https://x.org/css/x.css".toList).resolveUrl
      (.ofText "/site".toList) "../a.png".toList = .remote "https://x.org/a.png".toList := by decide
  have hjoined : (Location.remote "https://x.org/css/x.css".toList).rebase?
      (.ofText "/site".toList) "../a.png".toList
      = some "https://x.org/a.png".toList := by decide
  refine ⟨⟨_, hmoved, fun target => ?_⟩, _, hjoined, fun target => ?_⟩
  · rw [← hfile]
    refine (resolveUrl_rebase hproper hmoved
      (.inr ⟨_, hfile.trans hbelow, List.forall_mem_singleton.2 hplain⟩)).1.2 ?_ target
    intro p hp
    obtain rfl := Location.file.inj ((hfile.trans hbelow).symm.trans hp)
    exact ⟨["a:b.png".toList], rfl⟩
  · rw [← hremote]
    refine (resolveUrl_rebase (proper_remote _) hjoined
      (.inl ⟨_, rfl, by decide⟩)).1.2 ?_ target
    intro p hp
    rw [hremote] at hp
    cases hp

/-- a byte that is no text -/
def stray : Undecoded := ⟨[0xFF], by decide, by decide⟩

/-- a sheet of the site in a directory whose name is no text -/
def strayed : Location := .file ⟨true, [.text "site".toList, .raw stray, .text "a.css".toList]⟩

/-- A name that is no text is replaced, so that the rebased url leads to another directory.  A
scheme of one letter is taken for a directory, and rebased again. -/
theorem resolveUrl_rebase_replaced :
    (strayed.Proper ∧
      strayed.rebase? (.ofText "/site".toList) "b.png".toList = some "/\uFFFD/b.png".toList ∧
      (∃ p, strayed.resolveUrl (.ofText "/site".toList) "b.png".toList = .file p ∧
        (Path.ofText "/site".toList).Holds p ∧
        ∀ part ∈ p.parts, ∀ c ∈ part.toText, Url.isQuery c = false) ∧
      ∀ target, (Location.file target).resolveUrl (.ofText "/site".toList) "/\uFFFD/b.png".toList
        ≠ strayed.resolveUrl (.ofText "/site".toList) "b.png".toList) ∧
    (Location.remote "x://h/a.css".toList).rebase? (.ofText "/site".toList) "b.png".toList
      = some "x://h/b.png".toList ∧
    (∀ target, (Location.file target).resolveUrl (.ofText "/site".toList) "x://h/b.png".toList
      ≠ (Location.remote "x://h/a.css".toList).resolveUrl (.ofText "/site".toList)
        "b.png".toList) ∧
    (Location.file (.ofText "/site/c.css".toList)).rebase? (.ofText "/site".toList)
      "x://h/b.png".toList = some "/x:/h/b.png".toList := by
  have hplace : strayed.resolveUrl (.ofText "/site".toList) "b.png".toList
      = .file ⟨true, [.text "site".toList, .raw stray, .text "b.png".toList]⟩ := by decide
  have hmoved (target : Path) : (Location.file target).resolveUrl (.ofText "/site".toList)
      "/\uFFFD/b.png".toList
      = .file ⟨true, [.text "site".toList, .text "\uFFFD".toList, .text "b.png".toList]⟩ := rfl
  have hremote : (Location.remote "x://h/a.css".toList).resolveUrl (.ofText "/site".toList)
      "b.png".toList = .remote "x://h/b.png".toList := by decide
  have hfile (target : Path) : (Location.file target).resolveUrl (.ofText "/site".toList)
      "x://h/b.png".toList
      = .file (target.directory.join (.ofText "x://h/b.png".toList)).normal := rfl
  have hplain : (([.text "site".toList, .raw stray, .text "b.png".toList] : List Path.Part).all
      fun part => part.toText.all fun c => Url.isQuery c == false) = true := by decide
  simp only [List.all_eq_true, beq_iff_eq] at hplain
  refine ⟨⟨?_, by decide, ⟨_, hplace, ⟨_, rfl⟩, hplain⟩, fun target => ?_⟩, by decide,
    fun target => ?_, by decide⟩
  · refine List.forall_mem_cons.2 ⟨⟨by decide, by decide, by decide⟩, ?_⟩
    exact List.forall_mem_cons.2
      ⟨trivial, List.forall_mem_singleton.2 ⟨by decide, by decide, by decide⟩⟩
  · rw [hmoved, hplace]
    decide
  · rw [hfile, hremote]
    intro hsame
    cases hsame

/-! ## urls that stay as they are -/

/-- the origin in which the rooted urls of a location are rooted; those of a file are rooted in the
site -/
def origin? : Location → Option Text
  | .file _ => none
  | .remote base => some (Url.split base).1

/-- the origin is all that a rooted url takes from its base -/
theorem join_rooted (base : Text) {t : Text}
    (h : Url.startsWith ['/', '/'] ('/' :: t) = false) : Url.join base ('/' :: t)
      = (Url.split base).1 ++ '/' :: Text.joinWith ['/'] (Url.segments ('/' :: t)) := by
  unfold Url.join
  rw [Url.hasScheme_slash, h, if_neg Bool.false_ne_true, if_neg Bool.false_ne_true]
  rfl

/-- a rooted url stands for the same resource wherever it is rooted in the same origin -/
theorem resolveUrl_same_origin (siteRoot : Path) {l l' : Location} (t : Text)
    (h : l.origin? = l'.origin?) :
    l'.resolveUrl siteRoot ('/' :: t) = l.resolveUrl siteRoot ('/' :: t) := by
  cases hsingle : Url.startsWith ['/', '/'] ('/' :: t) with
  | true => rw [resolveUrl_of_startsWith_slashes hsingle, resolveUrl_of_startsWith_slashes hsingle]
  | false =>
    cases l with
    | file path =>
      cases l' with
      | file path' => rw [resolveUrl_slash_file hsingle, resolveUrl_slash_file hsingle]
      | remote base' => cases h
    | remote base =>
      cases l' with
      | file path' => cases h
      | remote base' =>
        have hsame : (Url.split base).1 = (Url.split base').1 := Option.some.inj h
        rw [resolveUrl_slash_remote hsingle, resolveUrl_slash_remote hsingle,
          join_rooted base hsingle, join_rooted base' hsingle, hsame]

theorem isFixed_of_rebase? {l : Location} {siteRoot : Path} {url : Text}
    (h : l.rebase? siteRoot url = none) : isFixed url = true := by
  cases hfixed : isFixed url with
  | true => rfl
  | false =>
    unfold rebase? at h
    rw [hfixed, if_neg Bool.false_ne_true] at h
    split at h <;> cases h

/-- **A url that is not rebased means the same everywhere.**  If it is more than a fragment, it
stands for one resource wherever it is read; but a url that is rooted in the location itself, with a
single slash, does so only among the files, and among remote locations of one origin. -/
theorem resolveUrl_fixed {siteRoot : Path} {l l' : Location} {url : Text} (hne : url ≠ [])
    (hfragment : url.head? ≠ some '#') (hfixed : l.rebase? siteRoot url = none)
    (hrooted : url.head? = some '/' → Url.startsWith ['/', '/'] url = false →
      l.origin? = l'.origin?) :
    l'.resolveUrl siteRoot url = l.resolveUrl siteRoot url := by
  by_cases hscheme : Url.hasScheme url = true
  · rw [resolveUrl_of_hasScheme hscheme, resolveUrl_of_hasScheme hscheme]
  · -- what is left of the fixed urls starts with a slash
    have hslash : url.head? = some '/' := by
      refine Decidable.byContradiction fun hslash => ?_
      rw [Bool.not_eq_true] at hscheme
      have hfree := isFixed_eq_false_iff.2 ⟨hne, hscheme, hslash, hfragment⟩
      rw [isFixed_of_rebase? hfixed] at hfree
      cases hfree
    cases hdouble : Url.startsWith ['/', '/'] url with
    | true =>
      rw [resolveUrl_of_startsWith_slashes hdouble, resolveUrl_of_startsWith_slashes hdouble]
    | false =>
      have horigin := hrooted hslash hdouble
      obtain ⟨t, rfl⟩ := List.head?_eq_some_iff.1 hslash
      exact resolveUrl_same_origin siteRoot t horigin

/-- a url with a scheme and one without, from a file to a remote location, and a rooted url between
two sheets of one origin -/
theorem resolveUrl_fixed_remote :
    (Location.remote "https://x.org/a.css".toList).resolveUrl (.ofText "/site".toList)
        "data:,b".toList
      = (Location.file (.ofText "/site/c.css".toList)).resolveUrl (.ofText "/site".toList)
        "data:,b".toList ∧
    (Location.remote "https://x.org/a.css".toList).resolveUrl (.ofText "/site".toList)
        "//y.org/b".toList
      = (Location.file (.ofText "/site/c.css".toList)).resolveUrl (.ofText "/site".toList)
        "//y.org/b".toList ∧
    (Location.remote "https://x.org/a.css".toList).resolveUrl (.ofText "/site".toList)
        "/d/../b".toList
      = (Location.remote "https://x.org/d/c.css?q".toList).resolveUrl (.ofText "/site".toList)
        "/d/../b".toList := by
  refine ⟨?_, ?_, ?_⟩
  · exact resolveUrl_fixed (by decide) (by decide) (by decide) (fun h => absurd h (by decide))
  · exact resolveUrl_fixed (by decide) (by decide) (by decide) (fun _ h => absurd h (by decide))
  · exact resolveUrl_fixed (by decide) (by decide) (by decide) (fun _ _ => by decide)

/-- a rooted url is a file of the site in a file, and a resource of its origin in a remote sheet -/
theorem resolveUrl_fixed_rooted : ¬∀ (siteRoot : Path) (url : Text) (l l' : Location),
    siteRoot.rooted = true → url ≠ [] → url.head? ≠ some '#' → l.rebase? siteRoot url = none →
      l'.resolveUrl siteRoot url = l.resolveUrl siteRoot url := by
  intro h
  have hsame := h (.ofText "/site".toList) "/a.png".toList
    (.file (.ofText "/site/c.css".toList)) (.remote "https://x.org/a.css".toList)
    (by decide) (by decide) (by decide) (by decide)
  exact absurd hsame (by decide)

end Location

end PageTemplates
