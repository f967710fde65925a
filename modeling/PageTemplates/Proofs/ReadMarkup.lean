import Mathlib.Data.List.Chain
import PageTemplates.Proofs.Markup

/-!
# Markup that has been read

Whatever a source has in it, the tree that is read from it is one that can be written: names are
names, text elements hold one run, and no two runs stand side by side.  What is cut off a source in
one step is one of a few pieces (`Token.Piece`); while the builder takes them, the elements that are
open are such that hold nodes of any kind (`Builder.Regular`).

* `StartTag.attributeName_ofText`   the attributes of a start tag;
* `Token.piece_next`          the tokens of one step;
* `Builder.Regular.foldl_piece`     what the builder makes of them;
* `Fragment.printable_ofText`       the whole tree;
* `Family`, `Fragment.ofText_regular`   the same, said of the children of every element.
-/

namespace PageTemplates.Html

/-! ## names in a source -/

namespace StartTag

theorem nameChar_of_isLower {c : Char} (h : c.isLower = true) : nameChar c = true := by
  have hlow : 97 ≤ c.val.toNat := of_decide_eq_true (Bool.and_eq_true_iff.1 h).1
  have hother {d : Char} (hd : d.val.toNat < 97) : (c == d) = false := by
    rw [beq_eq_false_iff_ne]
    rintro rfl
    omega
  simp (disch := decide) only [nameChar, asciiBlank, hother, Bool.or_false, Bool.not_false]

theorem nameChar_toLower {c : Char} (h : nameChar c = true) : nameChar c.toLower = true :=
  Text.toLower_cases (p := (nameChar · = true)) (fun _ => nameChar_of_isLower) fun _ => h

theorem attributeName_lower {name : Text} (hne : name ≠ []) (h : ∀ c ∈ name, nameChar c = true) :
    AttributeName (Text.lower name) := by
  refine ⟨mt List.map_eq_nil_iff.1 hne, fun c hc => ?_⟩
  obtain ⟨d, hd, rfl⟩ := List.mem_map.1 hc
  exact ⟨nameChar_toLower (h d hd), Text.isUpper_toLower d⟩

/-- attributes with names that can be written -/
def Named (m : Attributes) : Prop := ∀ e ∈ m.entries, AttributeName e.1

theorem Named.insert {m : Attributes} (hm : Named m) {name : Text} (h : AttributeName name)
    (v : Text) : Named (m.insert name v) := by
  by_cases hmem : name ∈ m.names
  · rw [NameMap.insert_of_mem hmem]
    exact hm
  · unfold Named
    rw [NameMap.entries_insert_of_not_mem hmem, List.forall_mem_append]
    exact ⟨hm, List.forall_mem_singleton.2 h⟩

theorem Named.settle {m : Attributes} (hm : Named m) {pending : Option Text}
    (h : ∀ name ∈ pending, AttributeName name) : Named (settle m pending) := by
  cases pending with
  | none => exact hm
  | some name => exact hm.insert (h name rfl) []

theorem Named.scan {m : Attributes} (hm : Named m) {pending : Option Text}
    (h : ∀ name ∈ pending, AttributeName name) (s : Text) :
    Named (scan m pending s).attributes := by
  have hnone : ∀ name ∈ (none : Option Text), AttributeName name :=
    fun name hname => absurd hname (Option.not_mem_none name)
  fun_induction StartTag.scan m pending s with
  | case1 | case2 | case3 => exact hm.settle h
  | case4 m s ih => exact ih hm hnone
  | case5 m s name v ih => exact ih (hm.insert (h name rfl) _) hnone
  | case6 m pending s ih => exact ih hm h
  | case7 m pending s ih => exact ih hm h
  | case8 m pending c s _ _ _ _ _ hc ih =>
    refine ih (hm.settle h) fun name hname => ?_
    obtain rfl := Option.some.inj hname
    refine attributeName_lower (List.cons_ne_nil _ _) (List.forall_mem_cons.2 ⟨hc, ?_⟩)
    exact List.all_eq_true.1 List.all_takeWhile
  | case9 m pending c s _ _ _ _ _ _ ih => exact ih hm h

theorem attributeName_ofText (s : Text) : Named (ofText s).attributes := by
  have hempty : Named .empty := List.forall_mem_nil _
  show Named (scan .empty none s).attributes
  refine hempty.scan ?_ s
  exact nofun

end StartTag

namespace Token
open StartTag (Named)

theorem isAlpha_eq_isLower {c : Char} (h : c.isUpper = false) : c.isAlpha = c.isLower := by
  show (c.isUpper || c.isLower) = c.isLower
  rw [h, Bool.false_or]

theorem tagChar_toLower {c : Char} (h : nameChar c = true) : tagChar c.toLower = true := by
  refine Text.toLower_cases (p := (tagChar · = true)) (fun d hd => ?_) fun hupper => ?_
  · simp [tagChar, hd]
  · simpa [tagChar, nameChar, Char.isAlphanum, isAlpha_eq_isLower hupper] using h

/-- behind a letter, the characters of a name make one -/
theorem tagName_nameOf {c : Char} (h : c.isAlpha = true) (s : Text) :
    TagName (nameOf (c :: s)) := by
  have hname : nameChar c = true := by simp [nameChar, Char.isAlphanum, h]
  have hsplit : nameOf (c :: s) = c.toLower :: Text.lower (s.takeWhile nameChar) := by
    rw [nameOf, List.takeWhile_cons_of_pos hname]
    rfl
  constructor
  · rw [hsplit]
    show c.toLower.isLower = true
    refine Text.toLower_cases (p := (·.isLower = true)) (fun _ => id) fun hupper => ?_
    rwa [isAlpha_eq_isLower hupper] at h
  · intro d hd
    obtain ⟨e, he, rfl⟩ := List.mem_map.1 hd
    exact tagChar_toLower (List.all_eq_true.1 List.all_takeWhile e he)

/-! ## one step through a source -/

/-- the content of a text element, as its children -/
def contentNodes (name t : Text) : List Node :=
  if t.isEmpty then []
  else if isRaw name then [.text ⟨t, true⟩] else [.text ⟨Reference.decode t, false⟩]

theorem contentRun_eq (name t : Text) :
    contentRun name t = Node.tokensList (contentNodes name t) := by
  unfold contentRun contentNodes
  split
  · rfl
  · split <;> rfl

/-- what one step cuts off a source -/
inductive Piece : List Token → Prop where
  | nothing : Piece []
  | doctype : Piece [.doctype]
  | run (t : Text) : t ≠ [] → Piece [plain t]
  | stop (name : Text) : Piece [.stop name]
  | leaf (name : Text) (m : Attributes) : TagName name → Named m → Piece [.leaf name m]
  /-- the start of an element that may hold nodes of any kind -/
  | start (name : Text) (m : Attributes) : TagName name → Named m → isVoid name = false →
      (isRaw name || isPlain name) = false → Piece [.start name m]
  /-- a whole text element -/
  | content (name : Text) (m : Attributes) (children : List Node) : TagName name → Named m →
      isVoid name = false → (isRaw name || isPlain name) = true → TextContent name children →
      Piece (.start name m :: (Node.tokensList children ++ [.stop name]))

theorem decode_ne_nil {s : Text} (h : s ≠ []) : Reference.decode s ≠ [] := by
  obtain ⟨c, s, rfl⟩ := List.exists_cons_of_ne_nil h
  rw [Reference.decode]
  split
  · split <;> exact List.cons_ne_nil _ _
  · exact List.cons_ne_nil _ _

/-- what stands in front of the first end tag of the name has no such end tag -/
theorem not_infix_content (name s : Text) :
    ¬ '<' :: '/' :: name <:+: Text.lower (content name s).1 := by
  have hlower (i : Nat) : Text.lower (s.take i) = (Text.lower s).take i := List.map_take
  unfold content
  cases hfind : Text.find? ('<' :: '/' :: name) (Text.lower s) with
  | none =>
    show ¬ _ <:+: Text.lower (s.take s.length)
    rw [List.take_length]
    exact Text.not_infix_of_find? hfind
  | some i =>
    show ¬ _ <:+: Text.lower (s.take i)
    rw [hlower]
    exact Text.not_infix_take (List.cons_ne_nil _ _) hfind

theorem textContent_contentNodes {name t : Text} (h : ¬ '<' :: '/' :: name <:+: Text.lower t) :
    TextContent name (contentNodes name t) := by
  unfold contentNodes
  split
  · trivial
  · next hempty =>
    have hne : t ≠ [] := fun he => hempty (List.isEmpty_iff.2 he)
    split
    · next hraw => exact ⟨hne, hraw.symm, fun _ => h⟩
    · next hraw =>
      exact ⟨decode_ne_nil hne, (Bool.not_eq_true _ ▸ hraw).symm, fun h => absurd h hraw⟩

theorem piece_element {c : Char} (h : c.isAlpha = true) (s : Text) :
    Piece (element (c :: s)).1 := by
  have hname := tagName_nameOf h s
  have hnamed := StartTag.attributeName_ofText ((c :: s).dropWhile nameChar)
  unfold element
  dsimp only
  split
  · exact .leaf _ _ hname hnamed
  · next hleaf =>
    rw [Bool.not_eq_true, Bool.or_eq_false_iff] at hleaf
    split
    · next htext =>
      rw [contentRun_eq]
      exact .content _ _ _ hname hnamed hleaf.2 htext
        (textContent_contentNodes (not_infix_content _ _))
    · next htext => exact .start _ _ hname hnamed hleaf.2 (Bool.not_eq_true _ ▸ htext)

theorem piece_markup (s : Text) : Piece (markup s).1 := by
  have hdoctype (b : Bool) : Piece (if b then [.doctype] else []) := by
    cases b
    · exact .nothing
    · exact .doctype
  unfold markup
  split
  · exact .nothing
  · exact hdoctype _
  · exact hdoctype _
  · next s =>
    show Piece (if (nameOf s).isEmpty then [] else [.stop (nameOf s)])
    split
    · exact .nothing
    · exact .stop _
  · exact .run _ (List.cons_ne_nil _ _)
  · split
    · next c s _ _ _ _ halpha => exact piece_element halpha s
    · exact .run _ (List.cons_ne_nil _ _)

theorem piece_next (c : Char) (s : Text) : Piece (next c s).1 := by
  unfold next
  split
  · exact piece_markup s
  · next hc =>
    refine .run _ (decode_ne_nil ?_)
    rw [Text.upTo, List.takeWhile_cons_of_pos (by rw [Bool.not_eq_true] at hc; rw [hc]; rfl)]
    exact List.cons_ne_nil _ _

end Token

/-! ## what the builder makes of it -/

theorem Node.printableList_iff {ns : List Node} :
    PrintableList ns ↔
      (∀ n ∈ ns, n.Printable) ∧ ns.IsChain fun m n => m.isText = true → n.isText = false := by
  induction ns with
  | nil => exact iff_of_true trivial ⟨List.forall_mem_nil _, List.isChain_nil⟩
  | cons n ns ih =>
    rw [PrintableList, ih, List.forall_mem_cons, List.isChain_cons]
    exact ⟨fun ⟨hn, hnext, hns, hchain⟩ => ⟨⟨hn, hns⟩, fun m hm htext => hnext htext m hm, hchain⟩,
      fun ⟨⟨hn, hns⟩, hnext, hchain⟩ => ⟨hn, fun htext m hm => hnext m hm htext, hns, hchain⟩⟩

theorem Node.printableList_reverse {ns : List Node} (h : PrintableList ns) :
    PrintableList ns.reverse := by
  rw [printableList_iff] at h ⊢
  refine ⟨fun n hn => h.1 n (List.mem_reverse.1 hn), List.isChain_reverse.2 ?_⟩
  refine h.2.imp fun m n hmn htext => ?_
  rw [← Bool.not_eq_true]
  exact fun hm => Bool.false_ne_true ((hmn hm).symm.trans htext)

/-- an open element that may hold nodes of any kind, and does hold such as can be written -/
structure Frame.Regular (f : Frame) : Prop where
  name : TagName f.name
  attributes : StartTag.Named f.attributes
  mixed : isVoid f.name = false ∧ (isRaw f.name || isPlain f.name) = false
  children : Node.PrintableList f.children

theorem Frame.Regular.node {f : Frame} (h : f.Regular) : f.node.Printable := by
  refine ⟨h.name, h.attributes, ?_⟩
  rw [h.mixed.1, if_neg Bool.false_ne_true, h.mixed.2, if_neg Bool.false_ne_true]
  exact Node.printableList_reverse h.children

namespace Builder

structure Regular (b : Builder) : Prop where
  root : Node.PrintableList b.root
  frames : ∀ f ∈ b.frames, f.Regular

variable {b : Builder}

theorem Regular.modify (h : b.Regular) {f : List Node → List Node}
    (hf : ∀ ns, Node.PrintableList ns → Node.PrintableList (f ns)) : (b.modify f).Regular := by
  obtain ⟨root, frames, hasDoctype⟩ := b
  cases frames with
  | nil => exact ⟨hf root h.root, h.frames⟩
  | cons top fs =>
    obtain ⟨htop, hfs⟩ := List.forall_mem_cons.1 h.frames
    have hnew : Frame.Regular { top with children := f top.children } :=
      ⟨htop.name, htop.attributes, htop.mixed, hf top.children htop.children⟩
    exact ⟨h.root, List.forall_mem_cons.2 ⟨hnew, hfs⟩⟩

/-- an element may stand beside any node -/
theorem Regular.add (h : b.Regular) {n : Node} (hn : n.Printable) (htext : n.isText = false) :
    (b.add n).Regular := by
  refine h.modify fun ns hns => ⟨hn, ?_, hns⟩
  rw [htext]
  exact nofun

theorem Regular.pop (h : b.Regular) : b.pop.Regular := by
  obtain ⟨root, frames, hasDoctype⟩ := b
  cases frames with
  | nil => exact h
  | cons top fs =>
    obtain ⟨htop, hfs⟩ := List.forall_mem_cons.1 h.frames
    have hbelow : Regular ⟨root, fs, hasDoctype⟩ := ⟨h.root, hfs⟩
    exact hbelow.add htop.node rfl

theorem Regular.popN (h : b.Regular) (n : Nat) : (b.popN n).Regular := by
  induction n generalizing b with
  | zero => exact h
  | succ n ih => exact ih h.pop

theorem Regular.close (h : b.Regular) (name : Text) : (b.close name).Regular := by
  unfold Builder.close
  split
  · exact h
  · exact h.popN _

/-- a run joins the run in front of it, which is never a verbatim one -/
theorem printableList_addRun {t : Text} (ht : t ≠ []) {ns : List Node}
    (h : Node.PrintableList ns) : Node.PrintableList (addRun ⟨t, false⟩ ns) := by
  have halone (hnext : ∀ m ∈ ns.head?, m.isText = false) :
      Node.PrintableList (.text ⟨t, false⟩ :: ns) := ⟨⟨ht, rfl⟩, fun _ => hnext, h⟩
  unfold addRun
  split
  · next last ns =>
    obtain ⟨hlast, hnext, hns⟩ := h
    rw [if_pos hlast.2]
    exact ⟨⟨fun hnil => ht (List.append_eq_nil_iff.1 hnil).2, rfl⟩, fun _ => hnext rfl, hns⟩
  · next hother =>
    refine halone fun m hm => ?_
    cases m with
    | text run =>
      obtain ⟨ns, rfl⟩ := List.head?_eq_some_iff.1 hm
      exact absurd rfl (hother run ns)
    | element name attributes children => rfl
    | fragment children hasDoctype => rfl

theorem Regular.foldl_piece (h : b.Regular) {ts : List Token} (hts : Token.Piece ts) :
    (ts.foldl step b).Regular := by
  cases hts with
  | nothing => exact h
  | doctype => exact ⟨h.root, h.frames⟩
  | run t ht => exact h.modify fun ns => printableList_addRun ht
  | stop name => exact h.close name
  | leaf name m hname hm =>
    refine h.add ⟨hname, hm, ?_⟩ rfl
    split
    · rfl
    · split <;> trivial
  | start name m hname hm hvoid htext =>
    exact ⟨h.root, List.forall_mem_cons.2 ⟨⟨hname, hm, ⟨hvoid, htext⟩, trivial⟩, h.frames⟩⟩
  | content name m children hname hm hvoid htext hchildren =>
    rw [foldl_element name m fun b' hb' => hchildren.foldl_tokensList hb']
    refine h.add ⟨hname, hm, ?_⟩ rfl
    rw [hvoid, if_neg Bool.false_ne_true, htext, if_pos rfl]
    exact hchildren

theorem Regular.foldl_tokens (h : b.Regular) (source : Text) :
    ((tokens source).foldl step b).Regular := by
  fun_induction tokens source generalizing b with
  | case1 => exact h
  | case2 c s ih =>
    rw [List.foldl_append]
    exact ih (h.foldl_piece (Token.piece_next c s))

end Builder

/-- what is read can be written -/
theorem Fragment.printable_ofText (source : Text) : (Fragment.ofText source).Printable := by
  have hempty : Builder.empty.Regular := ⟨trivial, List.forall_mem_nil _⟩
  exact Node.printableList_reverse ((hempty.foldl_tokens source).popN _).root

/-! ## the children of every element -/

/-- the children of an element, or the nodes outside of every element -/
structure Family where
  parent : Option (Text × Attributes)
  children : List Node

mutual
/-- the families in a node, at any depth -/
def Node.families : Node → List Family
  | .text _ => []
  | .element name attributes children =>
    ⟨some (name, attributes), children⟩ :: Node.familiesList children
  | .fragment children _ => ⟨none, children⟩ :: Node.familiesList children
def Node.familiesList : List Node → List Family
  | [] => []
  | n :: ns => n.families ++ Node.familiesList ns
end

def Fragment.families (f : Fragment) : List Family :=
  ⟨none, f.children⟩ :: Node.familiesList f.children

/-- the normal form of markup, said of one element and its children -/
structure Family.Regular (f : Family) : Prop where
  /-- no fragment stands below another -/
  flat : ∀ children hasDoctype, .fragment children hasDoctype ∉ f.children
  nonempty : ∀ run, .text run ∈ f.children → run.text ≠ []
  /-- runs of one kind are one run -/
  joined : f.children.IsChain fun m n =>
    ∀ r s : Run, m = .text r → n = .text s → r.verbatim ≠ s.verbatim
  name : ∀ e ∈ f.parent, (∃ c ∈ e.1.head?, c.isAlpha = true) ∧
    ∀ c ∈ e.1, Token.nameChar c = true ∧ c.isUpper = false
  attributes : ∀ e ∈ f.parent, e.2.names.Nodup ∧
    ∀ name ∈ e.2.names, name ≠ [] ∧ ∀ c ∈ name, c.isUpper = false
  void : ∀ e ∈ f.parent, isVoid e.1 = true → f.children = []
  /-- a text element holds at most one run, of its own kind -/
  content : ∀ e ∈ f.parent, (isRaw e.1 || isPlain e.1) = true →
    f.children = [] ∨ ∃ t, f.children = [.text ⟨t, isRaw e.1⟩]
  /-- verbatim runs stand in no other element -/
  verbatim : ∀ run, .text run ∈ f.children → run.verbatim = true → ∃ e ∈ f.parent, isRaw e.1 = true

theorem TagName.letters {name : Text} (h : TagName name) :
    (∃ c ∈ name.head?, c.isAlpha = true) ∧
      ∀ c ∈ name, Token.nameChar c = true ∧ c.isUpper = false := by
  refine ⟨?_, fun c hc => ⟨nameChar_of_tagChar (h.chars c hc), isUpper_of_tagChar (h.chars c hc)⟩⟩
  obtain ⟨c, s, rfl⟩ := List.exists_cons_of_ne_nil h.nonempty
  have hlower : c.isLower = true := h.first
  refine ⟨c, rfl, ?_⟩
  show (c.isUpper || c.isLower) = true
  rw [hlower, Bool.or_true]

theorem StartTag.Named.distinct {m : Attributes} (h : Named m) :
    m.names.Nodup ∧ ∀ name ∈ m.names, name ≠ [] ∧ ∀ c ∈ name, c.isUpper = false := by
  refine ⟨m.nodup, fun name hname => ?_⟩
  obtain ⟨e, he, rfl⟩ := List.mem_map.1 hname
  exact ⟨(h e he).nonempty, fun c hc => ((h e he).chars c hc).2⟩

namespace Family

/-- the children of the root, and of an element that may hold nodes of any kind -/
theorem regular_of_printableList {parent : Option (Text × Attributes)} {children : List Node}
    (hparent : ∀ e ∈ parent, TagName e.1 ∧ StartTag.Named e.2 ∧
      (isVoid e.1 = true → children = []) ∧ (isRaw e.1 || isPlain e.1) = false)
    (h : Node.PrintableList children) : Regular ⟨parent, children⟩ := by
  obtain ⟨hnodes, hchain⟩ := Node.printableList_iff.1 h
  constructor
  case flat => exact fun _ _ hmem => hnodes _ hmem
  case nonempty => exact fun run hmem => (hnodes _ hmem).1
  case joined =>
    refine hchain.imp ?_
    rintro _ _ hmn r s rfl rfl
    cases hmn rfl
  case name => exact fun e he => (hparent e he).1.letters
  case attributes => exact fun e he => (hparent e he).2.1.distinct
  case void => exact fun e he => (hparent e he).2.2.1
  case content =>
    intro e he htext
    rw [(hparent e he).2.2.2] at htext
    cases htext
  case verbatim =>
    intro run hmem hverbatim
    rw [(hnodes _ hmem).2] at hverbatim
    cases hverbatim

/-- the children of a text element -/
theorem regular_of_textContent {name : Text} {m : Attributes} {children : List Node}
    (hname : TagName name) (hm : StartTag.Named m) (hvoid : isVoid name = false)
    (h : TextContent name children) : Regular ⟨some (name, m), children⟩ := by
  have hmem (n : Node) (hn : n ∈ children) : ∃ t, t ≠ [] ∧ n = .text ⟨t, isRaw name⟩ := by
    rcases h.cases with rfl | ⟨⟨t, verbatim⟩, rfl, ht, rfl, -⟩
    · cases hn
    · exact ⟨t, ht, List.mem_singleton.1 hn⟩
  constructor
  case flat =>
    intro _ _ hn
    obtain ⟨t, -, he⟩ := hmem _ hn
    cases he
  case nonempty =>
    intro run hn
    obtain ⟨t, ht, he⟩ := hmem _ hn
    cases he
    exact ht
  case joined =>
    rcases h.cases with rfl | ⟨run, rfl, -⟩
    · exact List.isChain_nil
    · exact List.isChain_singleton _
  case name =>
    rintro _ ⟨⟩
    exact hname.letters
  case attributes =>
    rintro _ ⟨⟩
    exact hm.distinct
  case void =>
    rintro _ ⟨⟩ he
    rw [hvoid] at he
    cases he
  case content =>
    rintro _ ⟨⟩ -
    rcases h.cases with rfl | ⟨⟨t, verbatim⟩, rfl, -, rfl, -⟩
    · exact .inl rfl
    · exact .inr ⟨t, rfl⟩
  case verbatim =>
    intro run hn hverbatim
    obtain ⟨t, -, he⟩ := hmem _ hn
    cases he
    exact ⟨(name, m), rfl, hverbatim⟩

theorem regular_of_printable {name : Text} {m : Attributes} {children : List Node}
    (h : (Node.element name m children).Printable) : Regular ⟨some (name, m), children⟩ := by
  obtain ⟨hname, hm, hchildren⟩ := h
  split at hchildren
  · next hvoid =>
    obtain ⟨hraw, hplain⟩ := isText_elements hvoid
    subst hchildren
    refine regular_of_printableList ?_ trivial
    rintro _ ⟨⟩
    exact ⟨hname, hm, fun _ => rfl, Bool.or_eq_false_iff.2 ⟨hraw, hplain⟩⟩
  · next hvoid =>
    split at hchildren
    · exact regular_of_textContent hname hm (Bool.not_eq_true _ ▸ hvoid) hchildren
    · next htext =>
      refine regular_of_printableList ?_ hchildren
      rintro _ ⟨⟩
      exact ⟨hname, hm, fun he => absurd he hvoid, Bool.not_eq_true _ ▸ htext⟩

end Family

namespace Node

mutual
theorem regular_families (n : Node) (h : n.Printable) : ∀ f ∈ n.families, f.Regular := by
  cases n with
  | text run => exact List.forall_mem_nil _
  | fragment children hasDoctype => exact h.elim
  | element name attributes children =>
    refine List.forall_mem_cons.2 ⟨Family.regular_of_printable h, ?_⟩
    obtain ⟨-, -, hchildren⟩ := h
    split at hchildren
    · rw [hchildren]
      exact List.forall_mem_nil _
    · split at hchildren
      · have hnone : familiesList children = [] := by
          rcases hchildren.cases with rfl | ⟨run, rfl, -⟩ <;> rfl
        rw [hnone]
        exact List.forall_mem_nil _
      · exact regular_familiesList children (printableList_iff.1 hchildren).1
theorem regular_familiesList (ns : List Node) (h : ∀ n ∈ ns, n.Printable) :
    ∀ f ∈ familiesList ns, f.Regular := by
  cases ns with
  | nil => exact List.forall_mem_nil _
  | cons n ns =>
    rw [List.forall_mem_cons] at h
    rw [familiesList, List.forall_mem_append]
    exact ⟨regular_families n h.1, regular_familiesList ns h.2⟩
end

end Node

/-- **Whatever is read is in normal form.**  At every depth of the tree that is read from a source,
an element has a proper name and attributes with distinct proper names; its children are no
fragments, their runs are not empty and no two of one kind are neighbours; a void element has none,
a text element has at most one run of its own kind, and verbatim runs stand nowhere else. -/
theorem Fragment.ofText_regular (source : Text) :
    ∀ f ∈ (Fragment.ofText source).families, f.Regular := by
  have h := Fragment.printable_ofText source
  refine List.forall_mem_cons.2 ⟨Family.regular_of_printableList nofun h, ?_⟩
  exact Node.regular_familiesList _ (Node.printableList_iff.1 h).1

/-- a source with a torn element, a repeated attribute, a stray end tag and an unclosed style -/
def tornSource : Text := "<B>a<i X=1 x=2>b</b>c</z>&lt;<style>p\x7b<b>".toList

theorem Fragment.ofText_regular_torn :
    ∃ f ∈ (Fragment.ofText tornSource).families, f.parent = some ("style".toList, .empty) ∧
      Node.renderList f.children = "p\x7b<b>".toList ∧ f.Regular := by
  have hstyle : ∃ f ∈ (Fragment.ofText tornSource).families,
      f.parent = some ("style".toList, .empty) ∧
        Node.renderList f.children = "p\x7b<b>".toList := by decide +kernel
  obtain ⟨f, hf, hparent, hchildren⟩ := hstyle
  exact ⟨f, hf, hparent, hchildren, Fragment.ofText_regular tornSource f hf⟩

end PageTemplates.Html
