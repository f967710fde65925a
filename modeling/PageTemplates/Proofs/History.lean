import Mathlib.Data.List.Induction
import Mathlib.Data.List.Nodup
import Mathlib.Logic.Function.Basic
import PageTemplates.Proofs.Discovery

/-!
# The history of a session

What a session holds of templates and shared sheets is a function of the calls made so far.

* `mentions`          what the calls refer to, one after another;
* `firsts`            the resources in the order of their first mention;
* `uses`              the places that mention a resource;
* `Ledger`            the part of a session that calls and reads can change;
* `Ledger.Recorded`   the ledger agrees with its calls: one card per resource, one use per mention,
                      and what has been read, followed by what is queued, is `firsts`;
* `run_history`       the same at the end of a run.
-/

namespace PageTemplates

/-! ## mentions -/

inductive Kind where
  | template
  | sheet
deriving DecidableEq

/-- a template or a shared sheet -/
structure Resource where
  kind : Kind
  location : Location
deriving DecidableEq

structure Mention where
  resource : Resource
  usedFrom : Text

namespace Call

def isMain : Call → Bool
  | .main _ => true
  | _ => false

/-- the resource that a call refers to; an inline sheet is none -/
def mention? (siteRoot : Path) : Call → Option Mention
  | .main l => some ⟨⟨.template, l⟩, "<entry>".toList⟩
  | .template reference origin => some ⟨⟨.template, origin.resolvePath reference⟩, origin.toText⟩
  | .sheet url origin => some ⟨⟨.sheet, origin.resolveUrl siteRoot url⟩, origin.toText⟩
  | .inline _ _ _ => none

/-- the calls without those for a main template when there is one already -/
def effective (known : Bool) : List Call → List Call
  | [] => []
  | c :: cs =>
    if c.isMain && known then effective known cs else c :: effective (known || c.isMain) cs

theorem effective_concat (known : Bool) (cs : List Call) (c : Call) :
    effective known (cs ++ [c]) = effective known cs
      ++ if c.isMain && (known || cs.any isMain) then [] else [c] := by
  induction cs generalizing known with
  | nil =>
    rw [List.nil_append, List.any_nil, Bool.or_false, effective, effective, effective]
    rfl
  | cons b cs ih =>
    rw [List.cons_append, effective, effective, List.any_cons]
    cases hb : b.isMain && known with
    | true =>
      obtain ⟨h1, h2⟩ := Bool.and_eq_true_iff.1 hb
      rw [if_pos rfl, if_pos rfl, ih, h1, h2, Bool.true_or, Bool.true_or]
    | false =>
      rw [if_neg Bool.false_ne_true, if_neg Bool.false_ne_true, ih, List.cons_append,
        Bool.or_assoc]

end Call

def mentions (siteRoot : Path) (cs : List Call) : List Mention :=
  (Call.effective false cs).filterMap (Call.mention? siteRoot)

/-- the places that mention a resource, in order -/
def uses (r : Resource) (ms : List Mention) : List Text :=
  (ms.filter fun m => m.resource = r).map Mention.usedFrom

/-- the mentioned resources, each at its first mention -/
def firsts (ms : List Mention) : List Resource := (ms.map Mention.resource).eraseDups

/-- the locations of the resources of one kind -/
def locationsOf (kind : Kind) (rs : List Resource) : List Location :=
  (rs.filter fun r => r.kind = kind).map Resource.location

theorem mentions_concat (siteRoot : Path) (cs : List Call) (c : Call) :
    mentions siteRoot (cs ++ [c]) = mentions siteRoot cs
      ++ if c.isMain && cs.any Call.isMain then [] else (c.mention? siteRoot).toList := by
  unfold mentions
  rw [Call.effective_concat, List.filterMap_append, Bool.false_or]
  congr 1
  split
  · rfl
  · cases hm : c.mention? siteRoot with
    | none => rw [List.filterMap_cons_none hm, List.filterMap_nil, Option.toList_none]
    | some m => rw [List.filterMap_cons_some hm, List.filterMap_nil, Option.toList_some]

theorem uses_concat (r : Resource) (ms : List Mention) (m : Mention) :
    uses r (ms ++ [m]) = uses r ms ++ if m.resource = r then [m.usedFrom] else [] := by
  unfold uses
  rw [List.filter_append, List.map_append]
  congr 1
  by_cases h : m.resource = r
  · rw [if_pos h, List.filter_singleton, decide_eq_true h]
    rfl
  · rw [if_neg h, List.filter_singleton, decide_eq_false h]
    rfl

theorem mem_firsts {r : Resource} {ms : List Mention} :
    r ∈ firsts ms ↔ r ∈ ms.map Mention.resource := List.mem_eraseDups

theorem firsts_concat_of_mem {ms : List Mention} {m : Mention} (h : m.resource ∈ firsts ms) :
    firsts (ms ++ [m]) = firsts ms := by
  unfold firsts
  rw [List.map_append]
  exact eraseDups_concat_of_mem (mem_firsts.1 h)

theorem firsts_concat_of_not_mem {ms : List Mention} {m : Mention} (h : m.resource ∉ firsts ms) :
    firsts (ms ++ [m]) = firsts ms ++ [m.resource] := by
  unfold firsts
  rw [List.map_append]
  exact eraseDups_concat_of_not_mem (mt mem_firsts.2 h)

theorem nodup_firsts (ms : List Mention) : (firsts ms).Nodup := by
  induction ms using List.reverseRecOn with
  | nil => exact List.nodup_nil
  | append_singleton ms m ih =>
    by_cases h : m.resource ∈ firsts ms
    · rw [firsts_concat_of_mem h]
      exact ih
    · rw [firsts_concat_of_not_mem h]
      exact List.nodup_append.2 ⟨ih, List.nodup_singleton _, fun a ha b hb hab =>
        h (List.mem_singleton.1 hb ▸ hab ▸ ha)⟩

theorem mem_locationsOf {kind : Kind} {l : Location} {rs : List Resource} :
    l ∈ locationsOf kind rs ↔ (⟨kind, l⟩ : Resource) ∈ rs := by
  unfold locationsOf
  rw [List.mem_map]
  constructor
  · rintro ⟨r, hr, rfl⟩
    obtain ⟨hm, hk⟩ := List.mem_filter.1 hr
    rw [← of_decide_eq_true hk]
    exact hm
  · intro h
    exact ⟨⟨kind, l⟩, List.mem_filter.2 ⟨h, decide_eq_true rfl⟩, rfl⟩

theorem nodup_locationsOf (kind : Kind) {rs : List Resource} (h : rs.Nodup) :
    (locationsOf kind rs).Nodup := by
  unfold locationsOf
  refine List.Nodup.map_on ?_ (h.filter _)
  intro a ha b hb hab
  obtain ⟨k, l⟩ := a
  obtain ⟨k', l'⟩ := b
  have h1 : k = kind := of_decide_eq_true (List.mem_filter.1 ha).2
  have h2 : k' = kind := of_decide_eq_true (List.mem_filter.1 hb).2
  rw [h1, h2]
  exact congrArg _ hab

/-! ## cards -/

/-- what a session knows of a resource apart from its contents -/
structure Card where
  id : Nat
  location : Location
  inline : Bool
  usedFrom : List Text

def Template.card (t : Template) : Card := ⟨t.id, t.location, false, t.usedFrom⟩

def Sheet.card (s : Sheet) : Card := ⟨s.id, s.location, s.inline, s.usedFrom⟩

namespace Card

def mention (usedFrom : Text) (c : Card) : Card := { c with usedFrom := c.usedFrom ++ [usedFrom] }

def isAt (l : Location) (c : Card) : Bool := !c.inline && c.location = l

/-- one more place that refers to the resource at `l`; the resource is new if it has no card -/
def register (cards : List Card) (l : Location) (usedFrom : Text) : List Card :=
  match cards.find? (isAt l) with
  | some c => cards.modify c.id (mention usedFrom)
  | none => cards ++ [⟨cards.length, l, false, [usedFrom]⟩]

theorem isAt_iff {l : Location} {c : Card} :
    c.isAt l = true ↔ c.inline = false ∧ c.location = l := by
  unfold isAt
  rw [Bool.and_eq_true_iff, Bool.not_eq_true', decide_eq_true_iff]

/-- the cards of one kind agree with the mentions of that kind -/
structure Accounts (kind : Kind) (cards : List Card) (ms : List Mention) : Prop where
  numbered : Numbered Card.id cards
  locations : (cards.filter fun c => !c.inline).map location = locationsOf kind (firsts ms)
  usedFrom : ∀ c ∈ cards, c.inline = false → c.usedFrom = uses ⟨kind, c.location⟩ ms

namespace Accounts
variable {kind : Kind} {cards : List Card} {ms : List Mention}

theorem nil (kind : Kind) : Accounts kind [] [] :=
  ⟨.nil _, rfl, fun _ h => absurd h List.not_mem_nil⟩

theorem mem_firsts_iff (h : Accounts kind cards ms) (l : Location) :
    (⟨kind, l⟩ : Resource) ∈ firsts ms ↔ ∃ c ∈ cards, c.isAt l = true := by
  rw [← mem_locationsOf, ← h.locations, List.mem_map]
  constructor
  · rintro ⟨c, hc, rfl⟩
    obtain ⟨hm, hi⟩ := List.mem_filter.1 hc
    exact ⟨c, hm, isAt_iff.2 ⟨Bool.not_eq_true' _ ▸ hi, rfl⟩⟩
  · rintro ⟨c, hm, hc⟩
    obtain ⟨hi, rfl⟩ := isAt_iff.1 hc
    exact ⟨c, List.mem_filter.2 ⟨hm, by rw [hi]; rfl⟩, rfl⟩

/-- shared cards at one location are one card -/
theorem eq_of_isAt (h : Accounts kind cards ms) {l : Location} {i j : Nat} {c d : Card}
    (hc : cards[i]? = some c) (hd : cards[j]? = some d) (hcl : c.isAt l = true)
    (hdl : d.isAt l = true) : c = d := by
  have hnodup : ((cards.filter fun c => !c.inline).map location).Nodup := by
    rw [h.locations]
    exact nodup_locationsOf kind (nodup_firsts ms)
  obtain ⟨hci, hcl⟩ := isAt_iff.1 hcl
  obtain ⟨hdi, hdl⟩ := isAt_iff.1 hdl
  refine List.inj_on_of_nodup_map hnodup ?_ ?_ (hcl.trans hdl.symm)
  · exact List.mem_filter.2 ⟨List.mem_of_getElem? hc, by rw [hci]; rfl⟩
  · exact List.mem_filter.2 ⟨List.mem_of_getElem? hd, by rw [hdi]; rfl⟩

/-- a mention of another kind of resource -/
theorem other (h : Accounts kind cards ms) {m : Mention} (hm : m.resource.kind ≠ kind) :
    Accounts kind cards (ms ++ [m]) := by
  refine ⟨h.numbered, ?_, ?_⟩
  · rw [h.locations]
    by_cases hf : m.resource ∈ firsts ms
    · rw [firsts_concat_of_mem hf]
    · rw [firsts_concat_of_not_mem hf]
      unfold locationsOf
      rw [List.filter_append, List.filter_singleton, decide_eq_false hm, List.map_append]
      exact (List.append_nil _).symm
  · intro c hc hi
    have hne : m.resource ≠ ⟨kind, c.location⟩ := fun he => hm (congrArg Resource.kind he)
    rw [h.usedFrom c hc hi, uses_concat, if_neg hne, List.append_nil]

theorem mention (h : Accounts kind cards ms) {l : Location} (u : Text) {j : Nat} {found : Card}
    (hj : cards[j]? = some found) (hfound : found.isAt l = true) :
    Accounts kind (cards.modify j (Card.mention u)) (ms ++ [⟨⟨kind, l⟩, u⟩]) := by
  have hmem : found ∈ cards := List.mem_of_getElem? hj
  have hfirst : (⟨kind, l⟩ : Resource) ∈ firsts ms := (h.mem_firsts_iff l).2 ⟨found, hmem, hfound⟩
  refine ⟨h.numbered.modify (Card.mention u) (fun _ => rfl) j, ?_, ?_⟩
  · have h1 := map_modify_of_eq (fun c : Card => (c.inline, c.location)) (Card.mention u)
      (fun _ => rfl) cards j
    have h2 (cs : List Card) : (cs.filter fun c => !c.inline).map location
        = ((cs.map fun c => (c.inline, c.location)).filter fun p => !p.1).map Prod.snd := by
      rw [List.filter_map, List.map_map]
      rfl
    rw [firsts_concat_of_mem hfirst, ← h.locations, h2, h2, h1]
  · intro c hc hi
    obtain ⟨i, hc⟩ := List.mem_iff_getElem?.1 hc
    obtain ⟨c', hc', ⟨rfl, rfl⟩ | ⟨hij, rfl⟩⟩ := getElem?_modify_eq_some hc
    · obtain rfl := Option.some.inj (hj.symm.trans hc')
      show found.usedFrom ++ [u] = uses ⟨kind, found.location⟩ _
      rw [h.usedFrom found hmem hi, uses_concat, (isAt_iff.1 hfound).2, if_pos rfl]
    · have hne : (⟨kind, l⟩ : Resource) ≠ ⟨kind, c.location⟩ := by
        intro hr
        have hl : c.isAt l = true := isAt_iff.2 ⟨hi, (congrArg Resource.location hr).symm⟩
        have he : c = found := h.eq_of_isAt hc' hj hl hfound
        exact hij ((h.numbered j found hj).symm.trans (he ▸ h.numbered i c hc'))
      rw [h.usedFrom c (List.mem_of_getElem? hc') hi, uses_concat, if_neg hne, List.append_nil]

theorem concat (h : Accounts kind cards ms) {l : Location} (u : Text)
    (hnone : ∀ c ∈ cards, ¬ c.isAt l = true) :
    Accounts kind (cards ++ [⟨cards.length, l, false, [u]⟩]) (ms ++ [⟨⟨kind, l⟩, u⟩]) := by
  have hnew : (⟨kind, l⟩ : Resource) ∉ firsts ms := by
    rw [h.mem_firsts_iff]
    rintro ⟨c, hc, hl⟩
    exact hnone c hc hl
  refine ⟨h.numbered.concat rfl, ?_, ?_⟩
  · rw [firsts_concat_of_not_mem hnew, List.filter_append, List.map_append, h.locations]
    unfold locationsOf
    have hkind : decide ((⟨kind, l⟩ : Resource).kind = kind) = true := decide_eq_true rfl
    rw [List.filter_append, List.map_append, List.filter_singleton, List.filter_singleton, hkind]
    rfl
  · intro c hc hi
    rcases List.mem_append.1 hc with hc | hc
    · have hne : (⟨kind, l⟩ : Resource) ≠ ⟨kind, c.location⟩ := fun hr =>
        hnone c hc (isAt_iff.2 ⟨hi, (congrArg Resource.location hr).symm⟩)
      rw [h.usedFrom c hc hi, uses_concat, if_neg hne, List.append_nil]
    · obtain rfl := List.mem_singleton.1 hc
      have hunused : uses ⟨kind, l⟩ ms = [] := by
        unfold uses
        rw [List.map_eq_nil_iff, List.filter_eq_nil_iff]
        intro m hm he
        exact hnew (mem_firsts.2 (of_decide_eq_true he ▸ List.mem_map_of_mem hm))
      show [u] = uses ⟨kind, l⟩ _
      rw [uses_concat, if_pos rfl, hunused, List.nil_append]

theorem register (h : Accounts kind cards ms) (l : Location) (u : Text) :
    Accounts kind (Card.register cards l u) (ms ++ [⟨⟨kind, l⟩, u⟩]) := by
  unfold Card.register
  cases hfind : cards.find? (isAt l) with
  | some found =>
    obtain ⟨j, hj⟩ := List.mem_iff_getElem?.1 (List.mem_of_find?_eq_some hfind)
    have hid : found.id = j := h.numbered j found hj
    exact h.mention u (hid ▸ hj) (List.find?_some hfind)
  | none => exact h.concat u (List.find?_eq_none.1 hfind)

/-- an inline sheet has a card and is never mentioned -/
theorem inline (h : Accounts kind cards ms) (l : Location) (u : List Text) :
    Accounts kind (cards ++ [⟨cards.length, l, true, u⟩]) ms := by
  refine ⟨h.numbered.concat rfl, ?_, ?_⟩
  · rw [List.filter_append, List.map_append, h.locations]
    exact List.append_nil _
  · intro c hc hi
    rcases List.mem_append.1 hc with hc | hc
    · exact h.usedFrom c hc hi
    · rw [List.mem_singleton.1 hc] at hi
      cases hi

end Accounts

/-- a card keeps its place when another use is recorded -/
theorem register_getElem? (cards : List Card) (l : Location) (u : Text) {i : Nat} {c : Card}
    (hc : cards[i]? = some c) :
    ∃ c', (register cards l u)[i]? = some c' ∧ c'.inline = c.inline ∧ c'.location = c.location := by
  unfold register
  split
  · next found _ =>
    rw [List.getElem?_modify, hc]
    refine ⟨_, rfl, ?_, ?_⟩
    · split <;> rfl
    · split <;> rfl
  · refine ⟨c, ?_, rfl, rfl⟩
    rw [List.getElem?_append_left (List.getElem?_eq_some_iff.1 hc).1, hc]

end Card

/-! ## ledgers -/

def Kind.job : Kind → Nat → Job
  | .template, id => .template id
  | .sheet, id => .sheet id

def Job.kind : Job → Kind
  | .template _ => .template
  | .sheet _ => .sheet

def Job.number : Job → Nat
  | .template id => id
  | .sheet id => id

theorem Kind.kind_job (kind : Kind) (id : Nat) : (kind.job id).kind = kind := by cases kind <;> rfl

theorem Kind.number_job (kind : Kind) (id : Nat) : (kind.job id).number = id := by
  cases kind <;> rfl

/-- the part of a session that calls and reads can change -/
structure Ledger where
  siteRoot : Path
  main : Option TemplateId
  cards : Kind → List Card
  queue : List Job
  reads : List Location
  calls : List Call

namespace Ledger

/-- the resource that a job reads -/
def resource? (cards : Kind → List Card) (job : Job) : Option Resource :=
  (cards job.kind)[job.number]?.bind fun c =>
    if c.inline then none else some ⟨job.kind, c.location⟩

def note (L : Ledger) (c : Call) : Ledger := { L with calls := L.calls ++ [c] }

def register (L : Ledger) (kind : Kind) (l : Location) (u : Text) : Ledger :=
  { L with
    cards := Function.update L.cards kind (Card.register (L.cards kind) l u)
    queue :=
      if ((L.cards kind).find? (Card.isAt l)).isSome then L.queue
      else L.queue ++ [kind.job (L.cards kind).length] }

theorem register_of_some {L : Ledger} {kind : Kind} {l : Location} {u : Text} {c : Card}
    (h : (L.cards kind).find? (Card.isAt l) = some c) :
    L.register kind l u = { L with
      cards := Function.update L.cards kind ((L.cards kind).modify c.id (Card.mention u)) } := by
  unfold register Card.register
  rw [h]
  rfl

theorem register_of_none {L : Ledger} {kind : Kind} {l : Location} {u : Text}
    (h : (L.cards kind).find? (Card.isAt l) = none) :
    L.register kind l u = { L with
      cards :=
        Function.update L.cards kind (L.cards kind ++ [⟨(L.cards kind).length, l, false, [u]⟩])
      queue := L.queue ++ [kind.job (L.cards kind).length] } := by
  unfold register Card.register
  rw [h]
  rfl

def registerInline (L : Ledger) (l : Location) (u : List Text) : Ledger :=
  { L with
    cards :=
      Function.update L.cards .sheet (L.cards .sheet ++ [⟨(L.cards .sheet).length, l, true, u⟩]) }

/-- the cards agree with the mentions, and the first mentions are done or queued in order -/
structure Tallied (L : Ledger) (ms : List Mention) : Prop where
  accounts : ∀ kind, Card.Accounts kind (L.cards kind) ms
  order : ∃ done pending, firsts ms = done ++ pending ∧ L.reads = done.map Resource.location ∧
    L.queue.map (resource? L.cards) = pending.map some

/-- jobs that name a resource name it also after a change that keeps the cards they need -/
theorem map_resource? {cards cards' : Kind → List Card} {queue : List Job}
    {pending : List Resource} (h : queue.map (resource? cards) = pending.map some)
    (hkeep : ∀ kind (i : Nat) (c : Card), (cards kind)[i]? = some c →
      ∃ c', (cards' kind)[i]? = some c' ∧ c'.inline = c.inline ∧ c'.location = c.location) :
    queue.map (resource? cards') = pending.map some := by
  rw [← h]
  apply List.map_congr_left
  intro job hjob
  have h1 : resource? cards job ∈ pending.map some := h ▸ List.mem_map_of_mem hjob
  obtain ⟨r, -, hr⟩ := List.mem_map.1 h1
  rw [← hr]
  unfold resource? at hr ⊢
  obtain ⟨c, hc, hcr⟩ := Option.bind_eq_some_iff.1 hr.symm
  obtain ⟨c', hc', hi, hl⟩ := hkeep _ _ c hc
  rw [hc', ← hcr]
  show (if c'.inline then _ else _) = _
  rw [hi, hl]

namespace Tallied
variable {L : Ledger} {ms : List Mention}

theorem note (h : L.Tallied ms) (c : Call) : (L.note c).Tallied ms := ⟨h.accounts, h.order⟩

theorem register (h : L.Tallied ms) (kind : Kind) (l : Location) (u : Text) :
    (L.register kind l u).Tallied (ms ++ [⟨⟨kind, l⟩, u⟩]) := by
  obtain ⟨done, pending, hfirsts, hreads, hqueue⟩ := h.order
  have hkeep : ∀ k (i : Nat) (c : Card), (L.cards k)[i]? = some c →
      ∃ c', ((L.register kind l u).cards k)[i]? = some c' ∧ c'.inline = c.inline
        ∧ c'.location = c.location := by
    intro k i c hc
    show ∃ c', (Function.update L.cards kind _ k)[i]? = some c' ∧ _
    by_cases hk : k = kind
    · subst hk
      rw [Function.update_self]
      exact Card.register_getElem? (L.cards k) l u hc
    · rw [Function.update_of_ne hk]
      exact ⟨c, hc, rfl, rfl⟩
  constructor
  · intro k
    show Card.Accounts k (Function.update L.cards kind _ k) _
    by_cases hk : k = kind
    · subst hk
      rw [Function.update_self]
      exact (h.accounts k).register l u
    · rw [Function.update_of_ne hk]
      exact (h.accounts k).other (Ne.symm hk)
  · have hq := map_resource? hqueue hkeep
    by_cases hfound : ((L.cards kind).find? (Card.isAt l)).isSome = true
    · have hold : (⟨kind, l⟩ : Resource) ∈ firsts ms :=
        ((h.accounts kind).mem_firsts_iff l).2 (List.find?_isSome.1 hfound)
      have hsame : (L.register kind l u).queue = L.queue := if_pos hfound
      exact ⟨done, pending, by rw [firsts_concat_of_mem hold, hfirsts], hreads, hsame ▸ hq⟩
    · have hnew : (⟨kind, l⟩ : Resource) ∉ firsts ms := fun hold =>
        hfound (List.find?_isSome.2 (((h.accounts kind).mem_firsts_iff l).1 hold))
      have hmore : (L.register kind l u).queue = L.queue ++ [kind.job (L.cards kind).length] :=
        if_neg hfound
      have hnone : (L.cards kind).find? (Card.isAt l) = none := by
        rwa [Option.not_isSome_iff_eq_none] at hfound
      have hjob : resource? (L.register kind l u).cards (kind.job (L.cards kind).length)
          = some ⟨kind, l⟩ := by
        unfold resource?
        rw [Kind.kind_job, Kind.number_job]
        show ((Function.update L.cards kind _ kind)[_]?).bind _ = _
        rw [Function.update_self, Card.register, hnone]
        show ((L.cards kind ++ [_])[_]?).bind _ = _
        rw [List.getElem?_append_right (Nat.le_refl _), Nat.sub_self]
        rfl
      refine ⟨done, pending ++ [⟨kind, l⟩], ?_, hreads, ?_⟩
      · rw [firsts_concat_of_not_mem hnew, hfirsts, List.append_assoc]
      · rw [hmore, List.map_append, List.map_append, hq, List.map_singleton, hjob]
        rfl

theorem registerInline (h : L.Tallied ms) (l : Location) (u : List Text) :
    (L.registerInline l u).Tallied ms := by
  obtain ⟨done, pending, hfirsts, hreads, hqueue⟩ := h.order
  refine ⟨?_, done, pending, hfirsts, hreads, map_resource? hqueue ?_⟩
  · intro k
    show Card.Accounts k (Function.update L.cards .sheet _ k) _
    by_cases hk : k = .sheet
    · subst hk
      rw [Function.update_self]
      exact (h.accounts .sheet).inline l u
    · rw [Function.update_of_ne hk]
      exact h.accounts k
  · intro k i c hc
    show ∃ c', (Function.update L.cards .sheet _ k)[i]? = some c' ∧ _
    by_cases hk : k = .sheet
    · subst hk
      rw [Function.update_self, List.getElem?_append_left (List.getElem?_eq_some_iff.1 hc).1]
      exact ⟨c, hc, rfl, rfl⟩
    · rw [Function.update_of_ne hk]
      exact ⟨c, hc, rfl, rfl⟩

/-- the next job reads its resource, which is the first of those that are queued -/
theorem read (h : L.Tallied ms) {job : Job} {queue : List Job} (hq : L.queue = job :: queue) :
    ∃ r, resource? L.cards job = some r ∧
      ({ L with queue, reads := L.reads ++ [r.location] } : Ledger).Tallied ms := by
  obtain ⟨done, pending, hfirsts, hreads, hqueue⟩ := h.order
  rw [hq, List.map_cons] at hqueue
  cases pending with
  | nil => cases hqueue
  | cons r pending =>
    obtain ⟨hr, hrest⟩ := List.cons.inj hqueue
    refine ⟨r, hr, h.accounts, done ++ [r], pending, ?_, ?_, hrest⟩
    · rw [hfirsts, List.append_assoc]
      rfl
    · show L.reads ++ [r.location] = _
      rw [hreads, List.map_append, List.map_singleton]

end Tallied

/-- the ledger agrees with its calls -/
structure Recorded (L : Ledger) : Prop where
  tallied : L.Tallied (mentions L.siteRoot L.calls)
  main : L.main.isSome = L.calls.any Call.isMain

namespace Recorded
variable {L : Ledger}

theorem mention (h : L.Recorded) {c : Call} {kind : Kind} {l : Location} {u : Text}
    (hc : c.mention? L.siteRoot = some ⟨⟨kind, l⟩, u⟩) (hm : c.isMain = false) :
    ((L.note c).register kind l u).Recorded := by
  constructor
  · show Tallied _ (mentions L.siteRoot (L.calls ++ [c]))
    rw [mentions_concat, hm, hc]
    exact (h.tallied.note c).register kind l u
  · show L.main.isSome = (L.calls ++ [c]).any Call.isMain
    rw [List.any_append, h.main, List.any_cons, hm, List.any_nil, Bool.or_self, Bool.or_false]

/-- the first call for a main template -/
theorem mentionMain (h : L.Recorded) (hnone : L.main = none) (l : Location) (id : TemplateId) :
    ({ (L.note (.main l)).register .template l "<entry>".toList with
      main := some id } : Ledger).Recorded := by
  have hno : L.calls.any Call.isMain = false := by
    rw [← h.main, hnone]
    rfl
  constructor
  · show Tallied _ (mentions L.siteRoot (L.calls ++ [Call.main l]))
    rw [mentions_concat, hno, Bool.and_false]
    have h1 := (h.tallied.note (.main l)).register .template l "<entry>".toList
    exact ⟨h1.accounts, h1.order⟩
  · show true = (L.calls ++ [Call.main l]).any Call.isMain
    rw [List.any_append, List.any_cons]
    exact (Bool.or_true _).symm

/-- a further call for a main template -/
theorem mainAgain (h : L.Recorded) {id : TemplateId} (hid : L.main = some id) (l : Location) :
    (L.note (.main l)).Recorded := by
  have hyes : L.calls.any Call.isMain = true := by
    rw [← h.main, hid]
    rfl
  constructor
  · show Tallied _ (mentions L.siteRoot (L.calls ++ [Call.main l]))
    rw [mentions_concat, hyes]
    show Tallied _ (mentions L.siteRoot L.calls ++ [])
    rw [List.append_nil]
    exact h.tallied.note (.main l)
  · show L.main.isSome = (L.calls ++ [Call.main l]).any Call.isMain
    rw [List.any_append, h.main, hyes, Bool.true_or]

theorem inline (h : L.Recorded) (source : Text) (origin : Location) (fromComponent : Bool) :
    ((L.note (.inline source origin fromComponent)).registerInline origin
      [origin.toText]).Recorded := by
  constructor
  · show Tallied _ (mentions L.siteRoot (L.calls ++ [Call.inline source origin fromComponent]))
    rw [mentions_concat]
    show Tallied _ (mentions L.siteRoot L.calls ++ [])
    rw [List.append_nil]
    exact (h.tallied.note _).registerInline origin [origin.toText]
  · show L.main.isSome = (L.calls ++ [Call.inline source origin fromComponent]).any Call.isMain
    rw [List.any_append, h.main]
    exact (Bool.or_false _).symm

theorem read (h : L.Recorded) {job : Job} {queue : List Job} (hq : L.queue = job :: queue) :
    ∃ r, resource? L.cards job = some r ∧
      ({ L with queue, reads := L.reads ++ [r.location] } : Ledger).Recorded := by
  obtain ⟨r, hr, ht⟩ := h.tallied.read hq
  exact ⟨r, hr, ht, h.main⟩

end Recorded

end Ledger

/-! ## sessions -/

def cardsOf (templates sheets : List Card) : Kind → List Card
  | .template => templates
  | .sheet => sheets

theorem update_cardsOf_template (ts ss ts' : List Card) :
    Function.update (cardsOf ts ss) .template ts' = cardsOf ts' ss := by
  funext kind
  cases kind with
  | template => rw [Function.update_self]; rfl
  | sheet => exact Function.update_of_ne Kind.noConfusion _ _

theorem update_cardsOf_sheet (ts ss ss' : List Card) :
    Function.update (cardsOf ts ss) .sheet ss' = cardsOf ts ss' := by
  funext kind
  cases kind with
  | template => exact Function.update_of_ne Kind.noConfusion _ _
  | sheet => rw [Function.update_self]; rfl

namespace Session

def ledger (s : Session) : Ledger where
  siteRoot := s.catalog.siteRoot
  main := s.catalog.main
  cards := cardsOf (s.catalog.templates.map Template.card) (s.catalog.sheets.map Sheet.card)
  queue := s.queue
  reads := s.reads
  calls := s.calls

theorem ledger_mapCatalog (s : Session) (f : Catalog → Catalog)
    (hr : (f s.catalog).siteRoot = s.catalog.siteRoot) (hm : (f s.catalog).main = s.catalog.main)
    (ht : (f s.catalog).templates.map Template.card = s.catalog.templates.map Template.card)
    (hs : (f s.catalog).sheets.map Sheet.card = s.catalog.sheets.map Sheet.card) :
    (s.mapCatalog f).ledger = s.ledger := by
  unfold ledger mapCatalog
  dsimp only
  rw [hr, hm, ht, hs]

theorem ledger_withLog (s : Session) (log : Log) : (s.withLog log).ledger = s.ledger :=
  ledger_mapCatalog s _ rfl rfl rfl rfl

theorem ledger_registerTemplate (s : Session) (l : Location) (usedFrom : Text) (isMain : Bool) :
    (s.registerTemplate l usedFrom isMain).2.ledger = s.ledger.register .template l usedFrom := by
  have hfind : (s.ledger.cards .template).find? (Card.isAt l)
      = (s.catalog.template? l).map Template.card := List.find?_map
  unfold registerTemplate
  cases h : s.catalog.template? l with
  | some t =>
    rw [h] at hfind
    rw [Ledger.register_of_some hfind]
    unfold ledger
    rw [update_cardsOf_template]
    dsimp only [mapCatalog, Catalog.modifyTemplate]
    rw [map_modify Template.card _ (Card.mention usedFrom) (fun _ => rfl)]
    rfl
  | none =>
    rw [h] at hfind
    rw [Ledger.register_of_none hfind]
    unfold ledger
    dsimp only
    rw [update_cardsOf_template, List.map_append]
    show _ = Ledger.mk _ _
      (cardsOf (_ ++ [⟨(s.catalog.templates.map Template.card).length, _, _, _⟩]) _)
      (_ ++ [Job.template (s.catalog.templates.map Template.card).length]) _ _
    rw [List.length_map]
    rfl

theorem ledger_registerSheet (s : Session) (l : Location) (usedFrom : Text) :
    (s.registerSheet l usedFrom).2.ledger = s.ledger.register .sheet l usedFrom := by
  have hfind : (s.ledger.cards .sheet).find? (Card.isAt l)
      = (s.catalog.sharedSheet? l).map Sheet.card := List.find?_map
  unfold registerSheet
  cases h : s.catalog.sharedSheet? l with
  | some sheet =>
    rw [h] at hfind
    rw [Ledger.register_of_some hfind]
    unfold ledger
    rw [update_cardsOf_sheet]
    dsimp only [mapCatalog, Catalog.modifySheet]
    rw [map_modify Sheet.card _ (Card.mention usedFrom) (fun _ => rfl)]
    rfl
  | none =>
    rw [h] at hfind
    rw [Ledger.register_of_none hfind]
    unfold ledger
    dsimp only
    rw [update_cardsOf_sheet, List.map_append]
    show _ = Ledger.mk _ _ (cardsOf _ (_ ++ [⟨(s.catalog.sheets.map Sheet.card).length, _, _, _⟩]))
      (_ ++ [Job.sheet (s.catalog.sheets.map Sheet.card).length]) _ _
    rw [List.length_map]
    rfl

theorem ledger_registerInline (s : Session) (origin : Location) (fromComponent : Bool) :
    (s.registerInline origin fromComponent).ledger
      = s.ledger.registerInline origin [origin.toText] := by
  unfold Ledger.registerInline ledger registerInline
  dsimp only [cardsOf, mapCatalog]
  rw [update_cardsOf_sheet, List.map_append, List.length_map]
  rfl

/-! ## what calls and jobs keep -/

section
variable {s : Session}

theorem withLog_recorded (h : s.ledger.Recorded) (log : Log) : (s.withLog log).ledger.Recorded := by
  rw [ledger_withLog]
  exact h

theorem modifyTemplate_recorded (h : s.ledger.Recorded) (id : TemplateId) (f : Template → Template)
    (hf : ∀ t, (f t).card = t.card) : (s.mapCatalog (·.modifyTemplate id f)).ledger.Recorded := by
  rw [ledger_mapCatalog s (·.modifyTemplate id f) rfl rfl (map_modify_of_eq _ _ hf _ _) rfl]
  exact h

theorem modifySheet_recorded (h : s.ledger.Recorded) (id : SheetId) (f : Sheet → Sheet)
    (hf : ∀ sheet, (f sheet).card = sheet.card) :
    (s.mapCatalog (·.modifySheet id f)).ledger.Recorded := by
  rw [ledger_mapCatalog s (·.modifySheet id f) rfl rfl rfl (map_modify_of_eq _ _ hf _ _)]
  exact h

theorem modifyComponent_recorded (h : s.ledger.Recorded) (id : ComponentId)
    (f : Component → Component) : (s.mapCatalog (·.modifyComponent id f)).ledger.Recorded := by
  rw [ledger_mapCatalog s (·.modifyComponent id f) rfl rfl rfl rfl]
  exact h

theorem useMain_recorded (h : s.ledger.Recorded) (l : Location) :
    (s.useMain l).2.ledger.Recorded := by
  unfold useMain
  dsimp only
  split
  · next id hid => exact h.mainAgain hid l
  · next hnone =>
    have h1 := h.mentionMain hnone l ((s.note (.main l)).registerTemplate l "<entry>".toList true).1
    have h2 := ledger_registerTemplate (s.note (.main l)) l "<entry>".toList true
    rw [show (s.note (.main l)).ledger = s.ledger.note (.main l) from rfl] at h2
    rw [← h2] at h1
    exact h1

theorem useTemplate_recorded (h : s.ledger.Recorded) (reference : Text) (origin : Location) :
    (s.useTemplate reference origin).2.ledger.Recorded := by
  unfold useTemplate
  rw [ledger_registerTemplate]
  exact h.mention (c := .template reference origin) rfl rfl

theorem importSheet_recorded (h : s.ledger.Recorded) (url : Text) (origin : Location) :
    (s.importSheet url origin).2.ledger.Recorded := by
  unfold importSheet
  rw [ledger_registerSheet]
  exact h.mention (c := .sheet url origin) rfl rfl

theorem importSheets_recorded (urls : List Text) (origin : Location) (h : s.ledger.Recorded) :
    (s.importSheets urls origin).2.ledger.Recorded := by
  induction urls generalizing s with
  | nil => exact h
  | cons url urls ih => exact ih (importSheet_recorded h url origin)

theorem finishSheet_recorded (h : s.ledger.Recorded) (id : SheetId) (l : Location)
    (ast : Option Css.Node) : (s.finishSheet id l ast).ledger.Recorded := by
  cases ast with
  | none => exact modifySheet_recorded h id _ (fun _ => rfl)
  | some ast => exact modifySheet_recorded (importSheets_recorded _ l h) id _ (fun _ => rfl)

theorem parseSheet_ledger (env : Env) (s : Session) (source file : Text) :
    (s.parseSheet env source file).2.ledger = s.ledger := by
  obtain ⟨log, hlog⟩ := parseSheet_eq env s source file
  rw [hlog, ledger_withLog]

theorem inlineSheet_recorded (env : Env) (h : s.ledger.Recorded) (source : Text)
    (origin : Location) (fromComponent : Bool) :
    (s.inlineSheet env source origin fromComponent).2.ledger.Recorded := by
  refine finishSheet_recorded ?_ _ origin _
  rw [parseSheet_ledger, ledger_registerInline]
  exact h.inline source origin fromComponent

theorem call_recorded (env : Env) (h : s.ledger.Recorded) (c : Call) :
    (s.call env c).ledger.Recorded := by
  cases c with
  | main l => exact useMain_recorded h l
  | template reference origin => exact useTemplate_recorded h reference origin
  | sheet url origin => exact importSheet_recorded h url origin
  | inline source origin fromComponent => exact inlineSheet_recorded env h source origin _

theorem move_recorded {env : Env} {o : Origin} {s' : Session} (m : Declarations.Move env o s s')
    (h : s.ledger.Recorded) : s'.ledger.Recorded := by
  cases m with
  | report p => exact withLog_recorded h _
  | declare name params t =>
    refine modifyTemplate_recorded ?_ o.template _ (fun _ => rfl)
    rw [ledger_mapCatalog s (·.addComponent o.template name params) rfl rfl rfl rfl]
    exact h
  | body id body => exact modifyComponent_recorded h id _
  | useTemplate reference => exact useTemplate_recorded h reference o.location
  | importSheet url => exact importSheet_recorded h url o.location
  | inlineSheet source => exact inlineSheet_recorded env h source o.location _
  | fileImport id => exact modifyTemplate_recorded h o.template _ (fun _ => rfl)
  | componentImport owner id => exact modifyComponent_recorded h owner _
  | sheet id => exact modifyTemplate_recorded h o.template _ (fun _ => rfl)
  | fileLink link => exact modifyTemplate_recorded h o.template _ (fun _ => rfl)
  | componentLink owner link => exact modifyComponent_recorded h owner _
  | testData l t => exact modifyTemplate_recorded h o.template _ (fun _ => rfl)
  | host host id t =>
    exact modifyTemplate_recorded h o.template _ (fun t => by cases host <;> rfl)

theorem moves_recorded {env : Env} {o : Origin} {s' : Session} (m : Declarations.Moves env o s s')
    (h : s.ledger.Recorded) : s'.ledger.Recorded := by
  induction m with
  | refl => exact h
  | tail _ m ih => exact move_recorded m ih

/-- what is left of the work of a job once its location has been read -/
theorem loadTemplate_recorded (env : Env) (t : Template)
    (h : ({ s with reads := s.reads ++ [t.location] } : Session).ledger.Recorded) :
    (s.loadTemplate env t).ledger.Recorded := by
  unfold loadTemplate
  dsimp only
  split
  · refine withLog_recorded ?_ _
    exact modifyTemplate_recorded h t.id _ (fun _ => rfl)
  · exact moves_recorded (Declarations.discover_moves env _ _ _)
      (modifyTemplate_recorded h t.id _ (fun _ => rfl))

theorem loadSheet_recorded (env : Env) (sheet : Sheet)
    (h : ({ s with reads := s.reads ++ [sheet.location] } : Session).ledger.Recorded) :
    (s.loadSheet env sheet).ledger.Recorded := by
  unfold loadSheet
  dsimp only
  split
  · exact withLog_recorded (finishSheet_recorded h sheet.id sheet.location none) _
  · refine finishSheet_recorded ?_ sheet.id sheet.location _
    rw [parseSheet_ledger]
    exact h

/-- a job reads its own resource, and no other -/
theorem step_recorded (env : Env) {s' : Session} (hstep : s.step env = some s')
    (h : s.ledger.Recorded) : s'.ledger.Recorded := by
  unfold step at hstep
  split at hstep
  · cases hstep
  · next job queue hq =>
    obtain rfl := Option.some.inj hstep
    obtain ⟨r, hr, hrec⟩ := h.read hq
    obtain ⟨card, hcard, hread⟩ := Option.bind_eq_some_iff.1 hr
    have hlocation : card.location = r.location := by
      split at hread
      · cases hread
      · rw [← Option.some.inj hread]
    cases job with
    | template id =>
      have h1 : (s.catalog.templates.map Template.card)[id]? = some card := hcard
      rw [List.getElem?_map] at h1
      obtain ⟨t, ht, rfl⟩ := Option.map_eq_some_iff.1 h1
      unfold perform
      dsimp only
      rw [ht]
      refine loadTemplate_recorded env t ?_
      rw [← hlocation] at hrec
      exact hrec
    | sheet id =>
      have h1 : (s.catalog.sheets.map Sheet.card)[id]? = some card := hcard
      rw [List.getElem?_map] at h1
      obtain ⟨sheet, hsheet, rfl⟩ := Option.map_eq_some_iff.1 h1
      unfold perform
      dsimp only
      rw [hsheet]
      refine loadSheet_recorded env sheet ?_
      rw [← hlocation] at hrec
      exact hrec

end

theorem run_recorded (env : Env) (fuel : Nat) {s s' : Session} (hrun : s.run env fuel = some s')
    (h : s.ledger.Recorded) : s'.ledger.Recorded ∧ s'.queue = [] := by
  exact ⟨run_induction (·.ledger.Recorded) (fun _ _ hstep h => step_recorded env hstep h) hrun h,
    run_queue env fuel hrun⟩

theorem start_recorded (siteRoot : Path) (lints : Bool) :
    (start siteRoot lints).ledger.Recorded := by
  refine ⟨⟨?_, [], [], rfl, rfl, rfl⟩, rfl⟩
  intro kind
  cases kind <;> exact Card.Accounts.nil _

theorem prepared_recorded (env : Env) (siteRoot : Path) (lints : Bool) (cs : List Call) :
    (prepared env siteRoot lints cs).ledger.Recorded := by
  induction cs using List.reverseRecOn with
  | nil => exact start_recorded siteRoot lints
  | append_singleton cs c ih =>
    rw [prepared_concat]
    exact call_recorded env ih c

/-- the calls of a prepared session, apart from those that its inline sheets have made -/
theorem prepared_calls (env : Env) (siteRoot : Path) (lints : Bool) (cs : List Call) :
    cs.Sublist (prepared env siteRoot lints cs).calls ∧
      (prepared env siteRoot lints cs).reads = [] := by
  induction cs using List.reverseRecOn with
  | nil => exact ⟨List.Sublist.refl _, rfl⟩
  | append_singleton cs c ih =>
    have hg := call_grows env (prepared env siteRoot lints cs) c
    rw [prepared_concat]
    refine ⟨?_, hg.reads.trans ih.2⟩
    exact (ih.1.append (List.Sublist.refl [c])).trans hg.calls.sublist

/-- what the calls of a session refer to -/
def mentions (s : Session) : List Mention := PageTemplates.mentions s.catalog.siteRoot s.calls

/-- **Every resource is registered once, read once, and knows all its uses.**  At the end of a run
the templates and the shared sheets are the resources that the calls mention, each once; they have
been read in the order of their first mentions, and nothing else has been read; and each has one use
per call that mentions it, in the order of the calls. -/
theorem run_history (env : Env) (siteRoot : Path) (lints : Bool) (cs : List Call) (fuel : Nat)
    (s : Session) (hrun : (prepared env siteRoot lints cs).run env fuel = some s) :
    (s.catalog.templates.map Template.location).Nodup ∧
    ((s.catalog.sheets.filter fun sheet => !sheet.inline).map Sheet.location).Nodup ∧
    (prepared env siteRoot lints cs).reads = [] ∧
    s.reads = (firsts s.mentions).map Resource.location ∧
    s.catalog.templates.map Template.location = locationsOf .template (firsts s.mentions) ∧
    (s.catalog.sheets.filter fun sheet => !sheet.inline).map Sheet.location
      = locationsOf .sheet (firsts s.mentions) ∧
    (∀ t ∈ s.catalog.templates, t.usedFrom = uses ⟨.template, t.location⟩ s.mentions) ∧
    (∀ sheet ∈ s.catalog.sheets, sheet.inline = false →
      sheet.usedFrom = uses ⟨.sheet, sheet.location⟩ s.mentions) ∧
    cs.Sublist s.calls := by
  obtain ⟨hrec, hqueue⟩ := run_recorded env fuel hrun (prepared_recorded env siteRoot lints cs)
  obtain ⟨hcalls, hreads⟩ := prepared_calls env siteRoot lints cs
  obtain ⟨done, pending, hfirsts, hdone, hpending⟩ := hrec.tallied.order
  have ht := hrec.tallied.accounts .template
  have hs := hrec.tallied.accounts .sheet
  -- the cards of templates are never inline
  have htl : s.catalog.templates.map Template.location
      = locationsOf .template (firsts s.mentions) := by
    refine Eq.trans ?_ ht.locations
    show _ = ((s.catalog.templates.map Template.card).filter fun c => !c.inline).map Card.location
    rw [List.filter_map, List.map_map]
    show _ = (s.catalog.templates.filter fun _ => true).map Template.location
    rw [List.filter_true]
  have hsl : (s.catalog.sheets.filter fun sheet => !sheet.inline).map Sheet.location
      = locationsOf .sheet (firsts s.mentions) := by
    refine Eq.trans ?_ hs.locations
    show _ = ((s.catalog.sheets.map Sheet.card).filter fun c => !c.inline).map Card.location
    rw [List.filter_map, List.map_map]
    rfl
  refine ⟨?_, ?_, hreads, ?_, htl, hsl, ?_, ?_, hcalls.trans (run_calls env fuel hrun).sublist⟩
  · rw [htl]
    exact nodup_locationsOf .template (nodup_firsts _)
  · rw [hsl]
    exact nodup_locationsOf .sheet (nodup_firsts _)
  · have hnone : pending.map some = [] := by
      rw [← hpending]
      show s.queue.map _ = []
      rw [hqueue, List.map_nil]
    rw [List.map_eq_nil_iff.1 hnone, List.append_nil] at hfirsts
    exact hdone.trans (congrArg _ hfirsts.symm)
  · intro t hm
    exact ht.usedFrom t.card (List.mem_map_of_mem hm) rfl
  · intro sheet hm hi
    exact hs.usedFrom sheet.card (List.mem_map_of_mem hm) hi

/-- two templates that import each other and share a sheet that imports itself -/
def ring : Env where
  read _ := .ok []
  parseMarkup _ file :=
    let other := if file = "x/a".toList then "b".toList else "a".toList
    .ok ⟨[.element "import".toList (.ofList [("src".toList, other)]) [],
      .element "link".toList
        (.ofList [("rel".toList, "stylesheet".toList), ("href".toList, "c".toList)]) []], true⟩
  parseCss _ _ := ⟨[], .ok (.sheet [.statement "import".toList "'c'".toList])⟩

/-- the ring is walked once, although a second main template is asked for -/
theorem run_history_ring : ∃ s,
    (prepared ring ⟨true, []⟩ true [.main (.remote "x/a".toList), .main (.remote "x/b".toList)]).run
      ring 3 = some s ∧
    s.reads = (firsts s.mentions).map Resource.location ∧
    s.reads = [.remote "x/a".toList, .remote "x/b".toList, .remote "x/c".toList] := by
  have hreads : ((prepared ring ⟨true, []⟩ true
      [.main (.remote "x/a".toList), .main (.remote "x/b".toList)]).run ring 3).map reads
      = some [.remote "x/a".toList, .remote "x/b".toList, .remote "x/c".toList] := by decide
  obtain ⟨s, hrun, hs⟩ := Option.map_eq_some_iff.1 hreads
  exact ⟨s, hrun, (run_history _ _ _ _ _ s hrun).2.2.2.1, hs⟩

end Session

end PageTemplates
