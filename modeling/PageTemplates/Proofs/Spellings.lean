import PageTemplates.Proofs.History
import PageTemplates.Proofs.Paths

/-!
# Spelled paths

Many spellings lead to the same path.  What stands between the slashes of a spelling is a text or
not, so that all rooted paths are covered, not only those that a text spells.  A walk may stop at
any directory and go on from there, so that references compose.  A rooted path is what a walk from
the root leads to, apart from the steps over the root: two of them cancel out, and a single one
stays in front as `..`.

* `Path.normal_join_normal`   going on from a normalised path;
* `Path.spellIn`              the text of a path in a directory;
* `Location.resolvePath_resolvePath`   a reference as seen from a file that is referred to;
* `Path.descent`, `Path.overshoots`    where a walk that stays at the root leads, and how often it
                              meets `..` there (`normal_ofParts`, and from any directory
                              `foldl_walk_ofParts`);
* `Session.run_spellings`     the templates of two spellings.
-/

namespace PageTemplates

namespace Path

/-! ## going on from a directory -/

theorem normal_join_normal (base p : Path) :
    (base.normal.join p).normal = (base.join p).normal := by
  cases hp : p.rooted with
  | true =>
    unfold join
    rw [if_pos hp, if_pos hp]
  | false =>
    have hrelative : ¬ p.rooted = true := by rw [hp]; exact Bool.false_ne_true
    have hwalked : Walked (base.parts.foldl walk []) :=
      foldl_walk_walked (fun _ hm => absurd hm List.not_mem_nil) base.parts
    unfold join
    rw [if_neg hrelative, if_neg hrelative]
    unfold normal
    rw [List.foldl_append, List.foldl_append, foldl_walk_reverse hwalked]

/-- whether a text names an entry of a directory -/
structure IsName (f : Text) : Prop where
  part : IsPart (.text f)
  below : f ≠ parent

theorem IsName.ofText {f : Text} (h : IsName f) : ofText f = ⟨false, [.text f]⟩ :=
  ofText_joinWith (List.forall_mem_singleton.2 h.part)

/-- the directory of an entry is found by the walk that leaves the entry out -/
theorem directory_normal_concat (rooted : Bool) (parts : List Part) {f : Text} (h : IsName f) :
    (Path.normal ⟨rooted, parts ++ [.text f]⟩).directory = Path.normal ⟨rooted, parts⟩ := by
  have hwalk : walk (parts.foldl walk []) (.text f) = .text f :: parts.foldl walk [] :=
    if_neg fun he => h.below (Part.text.inj he)
  unfold normal directory
  rw [List.foldl_append, List.foldl_cons, List.foldl_nil, hwalk, List.reverse_cons,
    List.dropLast_concat]

/-- the spelling of `f` in the directory that `d` spells -/
def spellIn (d f : Text) : Text := if d = [] then f else d ++ '/' :: f

theorem rooted_ofText_eq_false {s : Text} (h : s.head? ≠ some '/') : (ofText s).rooted = false :=
  beq_false_of_ne h

theorem ofText_spellIn {d f : Text} (hd : d.head? ≠ some '/') (hf : f.head? ≠ some '/') :
    ofText (spellIn d f) = ⟨false, (ofText d).parts ++ (ofText f).parts⟩ := by
  cases d with
  | nil =>
    rw [← rooted_ofText_eq_false hf]
    rfl
  | cons c d =>
    rw [← rooted_ofText_eq_false hd]
    unfold spellIn ofText ofParts pieces
    rw [if_neg (List.cons_ne_nil c d), List.splitOn_append_cons_self, List.map_append,
      List.filter_append]
    rfl

end Path

/-- **References compose.**  What a reference names as seen from a file that is itself referred to
in a directory is what it names when it is spelled in that directory; and a normalised path is its
own normal form. -/
theorem Location.resolvePath_resolvePath (p : Path) {d f r : Text} (hd : d.head? ≠ some '/')
    (hf : Path.IsName f) (hr : r.head? ≠ some '/') :
    ((ofPath p).resolvePath (Path.spellIn d f)).resolvePath r
        = (ofPath p).resolvePath (Path.spellIn d r) ∧
      ∀ q : Path, q.normal.normal = q.normal := by
  refine ⟨?_, Path.normal_normal⟩
  have hslash : f.head? ≠ some '/' := fun h => hf.part.2.2 (List.mem_of_mem_head? h)
  have hfile : ofPath (p.normal.directory.join (.ofText (Path.spellIn d f)))
      = .file (Path.normal ⟨p.rooted,
          (p.normal.directory.parts ++ (Path.ofText d).parts) ++ [.text f]⟩) := by
    rw [Path.ofText_spellIn hd hslash, hf.ofText, List.append_assoc]
    rfl
  show (ofPath (p.normal.directory.join (.ofText (Path.spellIn d f)))).resolvePath r
    = ofPath (p.normal.directory.join (.ofText (Path.spellIn d r)))
  rw [hfile, Path.ofText_spellIn hd hr]
  show ofPath ((Path.normal _).directory.join (.ofText r)) = _
  rw [Path.directory_normal_concat p.rooted _ hf]
  unfold ofPath
  rw [Path.normal_join_normal]
  unfold Path.join
  rw [Path.rooted_ofText_eq_false hr, if_neg Bool.false_ne_true, if_neg Bool.false_ne_true,
    List.append_assoc]
  rfl

/-- a reference over the root, from a file whose directory is over the root, too -/
theorem Location.resolvePath_resolvePath_climbing :
    "../../b/./..".toList.head? ≠ some '/' ∧ Path.IsName "f".toList ∧
    "../.././../c".toList.head? ≠ some '/' ∧
    ((ofPath (.ofText "/a/x.html".toList)).resolvePath "../../b/./../f".toList).resolvePath
        "../.././../c".toList
      = (ofPath (.ofText "/a/x.html".toList)).resolvePath "../../b/./../../.././../c".toList ∧
    (ofPath (.ofText "/a/x.html".toList)).resolvePath "../../b/./../../.././../c".toList
      = .file ⟨true, [.text "c".toList]⟩ := by
  have hname : Path.IsName "f".toList := ⟨⟨by decide, by decide, by decide⟩, by decide⟩
  exact ⟨by decide, hname, by decide, (resolvePath_resolvePath (.ofText "/a/x.html".toList)
    (d := "../../b/./..".toList) (by decide) hname (by decide)).1, by decide⟩

namespace Path

/-! ## rooted paths -/

/-- one part of a spelling on the stack of the directories below the root, innermost first; at the
root `..` stays there -/
def enter (stack : List Part) (part : Part) : List Part :=
  if part.isComponent then
    if part = .text parent then stack.tail else part :: stack
  else stack

/-- the directories below the root that a spelling leads through -/
def descent (parts : List Part) : List Part := (parts.foldl enter []).reverse

/-- how often `..` is met at the root -/
def climbs (stack : List Part) : List Part → Nat
  | [] => 0
  | part :: parts =>
    (if part = .text parent ∧ stack = [] then 1 else 0) + climbs (enter stack part) parts

def overshoots (parts : List Part) : Nat := climbs [] parts

/-- what `n` steps over the root leave in front of a path -/
def surplus (n : Nat) : List Part := if n % 2 = 1 then [.text parent] else []

theorem reverse_surplus (n : Nat) : (surplus n).reverse = surplus n := by
  unfold surplus
  split <;> rfl

theorem walk_surplus_parent (n : Nat) : walk (surplus n) (.text parent) = surplus (n + 1) := by
  unfold surplus
  rcases Nat.mod_two_eq_zero_or_one n with hn | hn
  · rw [if_neg (by omega), if_pos (by omega)]
    rfl
  · rw [if_pos hn, if_neg (by omega)]
    rfl

/-- `n` steps up from the directory that a stack stands for -/
def ascend (stack : List Part) (n : Nat) : List Part :=
  (List.replicate n (.text parent)).foldl walk stack

theorem ascend_succ (stack : List Part) (n : Nat) :
    ascend stack (n + 1) = walk (ascend stack n) (.text parent) := by
  unfold ascend
  rw [List.replicate_succ', List.foldl_append]
  rfl

/-- steps up remove directories as long as there are any -/
theorem ascend_eq (stack : List Part) (n : Nat) :
    ascend stack n = stack.drop n ++ surplus (n - stack.length) := by
  induction n with
  | zero => rw [Nat.zero_sub]; exact (List.append_nil stack).symm
  | succ n ih =>
    rw [ascend_succ, ih]
    rcases Nat.lt_or_ge n stack.length with hn | hn
    · have hnone : n + 1 - stack.length = n - stack.length := by omega
      rw [List.drop_eq_getElem_cons hn, hnone]
      exact if_pos rfl
    · rw [List.drop_eq_nil_of_le hn, List.drop_eq_nil_of_le (Nat.le_succ_of_le hn),
        Nat.sub_add_comm hn]
      exact walk_surplus_parent _

/-- the two walks side by side: below the stack of the one that stays at the root, the other keeps
what its steps over the root have left of the directory it started from -/
theorem walk_append_ascend {part : Part} (h : part.isComponent = true) (stack base : List Part)
    (n : Nat) : walk (stack ++ ascend base n) part
      = enter stack part
        ++ ascend base (n + if part = .text parent ∧ stack = [] then 1 else 0) := by
  unfold enter
  rw [if_pos h]
  by_cases hpart : part = .text parent
  · rw [if_pos hpart]
    cases stack with
    | nil =>
      rw [if_pos ⟨hpart, rfl⟩, hpart]
      exact (ascend_succ base n).symm
    | cons top outer =>
      rw [if_neg (fun hboth => List.cons_ne_nil top outer hboth.2)]
      exact if_pos hpart
  · rw [if_neg hpart, if_neg (fun hboth => hpart hboth.1)]
    exact if_neg hpart

theorem foldl_walk_ascend (parts stack base : List Part) (n : Nat) :
    (parts.filter Part.isComponent).foldl walk (stack ++ ascend base n)
      = parts.foldl enter stack ++ ascend base (n + climbs stack parts) := by
  induction parts generalizing stack n with
  | nil => rfl
  | cons part parts ih =>
    rw [List.foldl_cons, climbs, ← Nat.add_assoc]
    by_cases hkeep : part.isComponent = true
    · rw [← ih, ← walk_append_ascend hkeep]
      exact congrArg (List.foldl walk _) (List.filter_cons_of_pos hkeep)
    · have hstay : enter stack part = stack := if_neg hkeep
      have hlevel : ¬ (part = .text parent ∧ stack = []) := by
        rintro ⟨rfl, -⟩
        exact hkeep isPart_parent.isComponent
      rw [hstay, if_neg hlevel, ← ih]
      exact congrArg (List.foldl walk _) (List.filter_cons_of_neg hkeep)

/-- a spelling walked from a directory -/
theorem foldl_walk_ofParts (rooted : Bool) (parts base : List Part) :
    (ofParts rooted parts).parts.foldl walk base
      = (descent parts).reverse ++ ascend base (overshoots parts) := by
  have hwalk := foldl_walk_ascend parts [] base 0
  rw [Nat.zero_add] at hwalk
  rw [descent, List.reverse_reverse]
  exact hwalk

/-- a rooted path is where it leads from the root, behind what its steps over the root leave -/
theorem normal_ofParts (parts : List Part) :
    (ofParts true parts).normal = ⟨true, surplus (overshoots parts) ++ descent parts⟩ := by
  have hwalk := foldl_walk_ofParts true parts []
  rw [ascend_eq, List.drop_nil, List.nil_append, List.length_nil, Nat.sub_zero] at hwalk
  unfold normal
  rw [hwalk, List.reverse_append, reverse_surplus, List.reverse_reverse]
  rfl

theorem forall_mem_foldl_enter (parts : List Part) {stack : List Part}
    (h : ∀ part ∈ stack, part ≠ .text [] ∧ part ≠ .text here ∧ part ≠ .text parent) :
    ∀ part ∈ parts.foldl enter stack,
      part ≠ .text [] ∧ part ≠ .text here ∧ part ≠ .text parent := by
  induction parts generalizing stack with
  | nil => exact h
  | cons part parts ih =>
    refine ih ?_
    unfold enter
    split
    · next hkeep =>
      obtain ⟨hempty, hhere⟩ := isComponent_iff.1 hkeep
      split
      · exact fun part' hm => h part' (List.mem_of_mem_tail hm)
      · next hpart => exact List.forall_mem_cons.2 ⟨⟨hempty, hhere, hpart⟩, h⟩
    · exact h

theorem forall_mem_descent (parts : List Part) :
    ∀ part ∈ descent parts, part ≠ .text [] ∧ part ≠ .text here ∧ part ≠ .text parent :=
  fun part hm =>
    forall_mem_foldl_enter parts (List.forall_mem_nil _) part (List.mem_reverse.1 hm)

theorem surplus_inj {m n : Nat} : surplus m = surplus n ↔ m % 2 = n % 2 := by
  unfold surplus
  rcases Nat.mod_two_eq_zero_or_one m with hm | hm <;>
    rcases Nat.mod_two_eq_zero_or_one n with hn | hn <;> rw [hm, hn] <;> decide

/-- spellings that lead to the same directory from the root -/
theorem normal_ofParts_inj {a b : List Part} (h : descent a = descent b) :
    (ofParts true a).normal = (ofParts true b).normal ↔ overshoots a % 2 = overshoots b % 2 := by
  rw [normal_ofParts, normal_ofParts, h, Path.mk.injEq, List.append_left_inj, surplus_inj]
  exact and_iff_right rfl

/-- a text with a slash in front spells a rooted path -/
theorem ofText_rooted {s : Text} (h : s.head? = some '/') : ofText s = ofParts true (pieces s) := by
  unfold ofText
  rw [h]
  rfl

end Path

namespace Call

/-- only calls for a main template can be without effect -/
theorem mem_effective {c : Call} (hc : c.isMain = false) {known : Bool} {cs : List Call}
    (h : c ∈ cs) : c ∈ effective known cs := by
  induction cs generalizing known with
  | nil => exact h
  | cons b cs ih =>
    rw [effective]
    rcases List.mem_cons.1 h with rfl | h
    · rw [hc, Bool.false_and, if_neg Bool.false_ne_true]
      exact List.mem_cons_self
    · split
      · exact ih h
      · exact List.mem_cons_of_mem b (ih h)

end Call

namespace Session

/-! ## the templates of two spellings -/

/-- what is called for is one template -/
theorem exists_template_iff {s : Session} (h : s.ledger.Recorded) {reference : Text}
    {origin : Location} (hc : Call.template reference origin ∈ s.calls) :
    ∃ t ∈ s.catalog.templates, ∀ t' ∈ s.catalog.templates,
      t'.location = origin.resolvePath reference ↔ t' = t := by
  have haccounts := h.tallied.accounts .template
  have hmention : (⟨.template, origin.resolvePath reference⟩ : Resource) ∈ firsts s.mentions :=
    mem_firsts.2 (List.mem_map.2 ⟨⟨_, origin.toText⟩,
      List.mem_filterMap.2 ⟨_, Call.mem_effective rfl hc, rfl⟩, rfl⟩)
  obtain ⟨c, hcard, hat⟩ := (haccounts.mem_firsts_iff _).1 hmention
  obtain ⟨t, ht, rfl⟩ := List.mem_map.1 hcard
  have hnumbered : Numbered Template.id s.catalog.templates := haccounts.numbered.of_map
  have hplace (u : Template) (hu : u ∈ s.catalog.templates) :
      (s.ledger.cards .template)[u.id]? = some u.card := by
    show (s.catalog.templates.map Template.card)[u.id]? = _
    rw [List.getElem?_map, hnumbered.getElem?_of_mem hu, Option.map_some]
  refine ⟨t, ht, fun t' ht' => ⟨fun hl => ?_, fun he => he ▸ (Card.isAt_iff.1 hat).2⟩⟩
  have hsame : t'.card = t.card :=
    haccounts.eq_of_isAt (hplace t' ht') (hplace t ht) (Card.isAt_iff.2 ⟨rfl, hl⟩) hat
  have hid : t'.id = t.id := congrArg Card.id hsame
  have hfound := hnumbered.getElem?_of_mem ht'
  rw [hid, hnumbered.getElem?_of_mem ht] at hfound
  exact (Option.some.inj hfound).symm

/-- **One file, one template.**  A rooted spelling is normalised to where it leads from the root,
which has no `.`, no `..` and no empty component; but if it meets `..` at the root an odd number of
times, one `..` stays in front.  Of two spellings that lead to the same place, both have the same
location, and are one template after a run, if these numbers are both even or both odd; otherwise
they are two. -/
theorem run_spellings {a b : List Path.Part} :
    (Path.ofParts true a).normal = ⟨true, Path.surplus (Path.overshoots a) ++ Path.descent a⟩ ∧
    (∀ part ∈ Path.descent a,
      part ≠ .text [] ∧ part ≠ .text Path.here ∧ part ≠ .text Path.parent) ∧
    (Path.descent a = Path.descent b →
      (Location.ofPath (.ofParts true a) = Location.ofPath (.ofParts true b) ↔
        Path.overshoots a % 2 = Path.overshoots b % 2) ∧
      ∀ (env : Env) (siteRoot : Path) (lints : Bool) (cs : List Call) (fuel : Nat) (σ : Session)
        (s t : Text) (p q : Path), (prepared env siteRoot lints cs).run env fuel = some σ →
        s.head? = some '/' → Path.pieces s = a → t.head? = some '/' → Path.pieces t = b →
        Call.template s (.file p) ∈ σ.calls → Call.template t (.file q) ∈ σ.calls →
        ∃ u ∈ σ.catalog.templates, ∃ v ∈ σ.catalog.templates,
          (∀ c ∈ σ.catalog.templates, c.location = .ofPath (.ofText s) ↔ c = u) ∧
          (∀ c ∈ σ.catalog.templates, c.location = .ofPath (.ofText t) ↔ c = v) ∧
          (u = v ↔ Path.overshoots a % 2 = Path.overshoots b % 2)) := by
  refine ⟨Path.normal_ofParts a, Path.forall_mem_descent a, fun h => ?_⟩
  have hsame : Location.ofPath (.ofParts true a) = Location.ofPath (.ofParts true b) ↔
      Path.overshoots a % 2 = Path.overshoots b % 2 := by
    rw [← Path.normal_ofParts_inj h]
    exact ⟨Location.file.inj, congrArg Location.file⟩
  refine ⟨hsame, ?_⟩
  rintro env siteRoot lints cs fuel σ s t p q hrun hs rfl ht rfl hsc htc
  have hrec := (run_recorded env fuel hrun (prepared_recorded env siteRoot lints cs)).1
  have hresolve {r : Text} (hr : r.head? = some '/') (o : Path) :
      (Location.file o).resolvePath r = .ofPath (.ofText r) :=
    congrArg Location.ofPath (if_pos (beq_iff_eq.2 hr))
  obtain ⟨u, hu, huonly⟩ := exists_template_iff hrec hsc
  obtain ⟨v, hv, hvonly⟩ := exists_template_iff hrec htc
  rw [hresolve hs p] at huonly
  rw [hresolve ht q] at hvonly
  refine ⟨u, hu, v, hv, huonly, hvonly, ?_⟩
  rw [← hsame, ← Path.ofText_rooted hs, ← Path.ofText_rooted ht, ← (huonly u hu).2 rfl]
  exact ⟨fun he => (hvonly u hu).2 he, fun he => (hvonly u hu).1 he⟩

/-- every file is a template that imports another one -/
def referring (reference : Text) : Env where
  read _ := .ok []
  parseMarkup _ _ :=
    .ok ⟨[.element "import".toList (.ofList [("src".toList, reference)]) []], true⟩
  parseCss _ _ := ⟨[], .ok (.sheet [])⟩

/-- a template that imports itself with two steps over the root -/
theorem run_spellings_detour :
    "/b/c".toList.head? = some '/' ∧ "/a/../../../b/.//c".toList.head? = some '/' ∧
    (Path.ofText "/a/../../../b/.//c".toList).normal
      = ⟨true, [.text "b".toList, .text "c".toList]⟩ ∧
    ∃ s, (prepared (referring "/a/../../../b/.//c".toList) ⟨true, []⟩ true
        [.template "/b/c".toList (.file ⟨true, []⟩)]).run
          (referring "/a/../../../b/.//c".toList) 1 = some s ∧
      ∃ a ∈ s.catalog.templates,
        (∀ c ∈ s.catalog.templates, c.location = .ofPath (.ofText "/b/c".toList) ↔ c = a) ∧
        (∀ c ∈ s.catalog.templates,
          c.location = .ofPath (.ofText "/a/../../../b/.//c".toList) ↔ c = a) := by
  have hcalls : ((prepared (referring "/a/../../../b/.//c".toList) ⟨true, []⟩ true
      [.template "/b/c".toList (.file ⟨true, []⟩)]).run
        (referring "/a/../../../b/.//c".toList) 1).map calls
      = some [.template "/b/c".toList (.file ⟨true, []⟩),
        .template "/a/../../../b/.//c".toList
          (.file ⟨true, [.text "b".toList, .text "c".toList]⟩)] := by
    decide +kernel
  obtain ⟨s, hrun, hs⟩ := Option.map_eq_some_iff.1 hcalls
  obtain ⟨-, -, halike⟩ := run_spellings (a := Path.pieces "/b/c".toList)
    (b := Path.pieces "/a/../../../b/.//c".toList)
  obtain ⟨a, ha, b, -, haonly, hbonly, hone⟩ := (halike (by decide)).2 _ _ _ _ _ s _ _
    ⟨true, []⟩ ⟨true, [.text "b".toList, .text "c".toList]⟩ hrun (by decide) rfl (by decide) rfl
    (by rw [hs]; decide) (by rw [hs]; decide)
  obtain rfl : a = b := hone.2 (by decide)
  exact ⟨by decide, by decide, by decide, s, hrun, a, ha, haonly, hbonly⟩

/-- a template that imports itself with one step over the root is loaded twice -/
theorem run_spellings_root :
    Path.descent (Path.pieces "/../a".toList) = Path.descent (Path.pieces "/a".toList) ∧
    (Path.ofText "/../a".toList).normal = ⟨true, [.text Path.parent, .text "a".toList]⟩ ∧
    ∃ s, (prepared (referring "/../a".toList) ⟨true, []⟩ true
        [.template "/a".toList (.file ⟨true, []⟩)]).run (referring "/../a".toList) 2 = some s ∧
      s.reads = [.ofPath (.ofText "/a".toList), .ofPath (.ofText "/../a".toList)] ∧
      s.catalog.templates.map Template.location = s.reads := by
  have hreads : ((prepared (referring "/../a".toList) ⟨true, []⟩ true
      [.template "/a".toList (.file ⟨true, []⟩)]).run (referring "/../a".toList) 2).map
        (fun s => (s.reads, s.catalog.templates.map Template.location))
      = some ([.ofPath (.ofText "/a".toList), .ofPath (.ofText "/../a".toList)],
        [.ofPath (.ofText "/a".toList), .ofPath (.ofText "/../a".toList)]) := by decide +kernel
  obtain ⟨s, hrun, hs⟩ := Option.map_eq_some_iff.1 hreads
  obtain ⟨hread, htemplates⟩ := Prod.mk.inj hs
  exact ⟨by decide, by decide, s, hrun, hread, htemplates.trans hread.symm⟩

end Session

end PageTemplates
