import Mathlib.Data.Set.Finite.Basic
import PageTemplates.Proofs.History

/-!
# Every run ends

If only finitely many locations can be read, the queue is drained after finitely many jobs,
whatever the files refer to.  A location is read at most twice, once as a template and once as a
sheet, and a job whose location cannot be read puts nothing into the queue.

* `readable_reads_le`   how often readable locations can have been read;
* `step_reads`          what one job does to the queue and to what has been read;
* `left`                how many reads of readable locations are still to come at most;
* `exists_run`          a run from any session that its calls have led to;
* `run_ends`            a run from any calls.
-/

namespace PageTemplates

namespace Session

/-- both uses that a session can make of some locations -/
def resources (ls : List Location) : List Resource :=
  ls.flatMap fun l => [⟨.template, l⟩, ⟨.sheet, l⟩]

theorem length_resources (ls : List Location) : (resources ls).length = 2 * ls.length := by
  induction ls with
  | nil => rfl
  | cons l ls ih =>
    have hcons : (resources (l :: ls)).length = 2 + (resources ls).length := by
      rw [resources, List.flatMap_cons, List.length_append]
      rfl
    rw [hcons, ih, List.length_cons]
    omega

theorem mem_resources {ls : List Location} {r : Resource} (h : r.location ∈ ls) :
    r ∈ resources ls := by
  refine List.mem_flatMap.2 ⟨r.location, h, ?_⟩
  obtain ⟨kind, l⟩ := r
  cases kind with
  | template => exact List.mem_cons_self
  | sheet => exact List.mem_cons_of_mem _ List.mem_cons_self

/-- a location is read as a template at most once, and as a sheet at most once -/
theorem readable_reads_le {s : Session} (h : s.ledger.Recorded) (ls : List Location) :
    (s.reads.filter (· ∈ ls)).length ≤ 2 * ls.length := by
  obtain ⟨done, pending, hfirsts, hreads, _⟩ := h.tallied.order
  have hreads : s.reads = done.map Resource.location := hreads
  have hnodup : done.Nodup := by
    have hall := nodup_firsts (mentions s)
    rw [show firsts (mentions s) = done ++ pending from hfirsts] at hall
    exact (List.nodup_append.1 hall).1
  rw [hreads, List.filter_map, List.length_map, ← length_resources]
  refine (List.Nodup.subperm (hnodup.filter _) ?_).length_le
  intro r hr
  exact mem_resources (of_decide_eq_true (List.mem_filter.1 hr).2)

section
variable {env : Env} {s s' : Session}

theorem card_of_job (h : s.ledger.Recorded) {job : Job} {queue : List Job}
    (hq : s.queue = job :: queue) : ∃ card, (s.ledger.cards job.kind)[job.number]? = some card := by
  obtain ⟨r, hr, _⟩ := h.read hq
  obtain ⟨card, hcard, _⟩ := Option.bind_eq_some_iff.1 hr
  exact ⟨card, hcard⟩

theorem loadTemplate_queue {t : Template} (hfail : ¬ ∃ source, env.read t.location = .ok source) :
    (s.loadTemplate env t).queue = s.queue := by
  unfold loadTemplate
  cases hread : env.read t.location with
  | error e => rfl
  | ok source => exact absurd ⟨source, hread⟩ hfail

theorem loadSheet_queue {sheet : Sheet} (hfail : ¬ ∃ source, env.read sheet.location = .ok source) :
    (s.loadSheet env sheet).queue = s.queue := by
  unfold loadSheet
  cases hread : env.read sheet.location with
  | error e => rfl
  | ok source => exact absurd ⟨source, hread⟩ hfail

/-- a job reads one location, and if that fails it only leaves the queue -/
theorem step_reads (hstep : s.step env = some s') (h : s.ledger.Recorded) :
    ∃ l, s'.reads = s.reads ++ [l] ∧
      ((¬ ∃ source, env.read l = .ok source) → s'.queue.length < s.queue.length) := by
  unfold step at hstep
  split at hstep
  · cases hstep
  · next job queue hq =>
    obtain rfl := Option.some.inj hstep
    obtain ⟨card, hcard⟩ := card_of_job h hq
    rw [hq]
    cases job with
    | template id =>
      have hcard : (s.catalog.templates.map Template.card)[id]? = some card := hcard
      rw [List.getElem?_map] at hcard
      obtain ⟨t, ht, _⟩ := Option.map_eq_some_iff.1 hcard
      unfold perform
      dsimp only
      rw [ht]
      refine ⟨t.location, (loadTemplate_grows env { s with queue } t).reads, fun hfail => ?_⟩
      dsimp only
      rw [loadTemplate_queue hfail]
      exact Nat.lt_succ_self queue.length
    | sheet id =>
      have hcard : (s.catalog.sheets.map Sheet.card)[id]? = some card := hcard
      rw [List.getElem?_map] at hcard
      obtain ⟨sheet, hsheet, _⟩ := Option.map_eq_some_iff.1 hcard
      unfold perform
      dsimp only
      rw [hsheet]
      refine ⟨sheet.location, (loadSheet_grows env { s with queue } sheet).reads, fun hfail => ?_⟩
      dsimp only
      rw [loadSheet_queue hfail]
      exact Nat.lt_succ_self queue.length

/-- how many reads of the locations `ls` are still to come at most -/
def left (ls : List Location) (s : Session) : Nat :=
  2 * ls.length - (s.reads.filter (· ∈ ls)).length

/-- a job takes one of the reads that are left, or reads nothing and shortens the queue -/
theorem step_left {ls : List Location} (hls : ∀ l, (∃ source, env.read l = .ok source) → l ∈ ls)
    (hstep : s.step env = some s') (h : s.ledger.Recorded) :
    s'.left ls < s.left ls ∨ s'.left ls = s.left ls ∧ s'.queue.length < s.queue.length := by
  obtain ⟨l, hreads, hfail⟩ := step_reads hstep h
  have hbound := readable_reads_le (step_recorded env hstep h) ls
  unfold left
  rw [hreads, List.filter_append, List.length_append] at hbound ⊢
  by_cases hl : l ∈ ls
  · left
    have hone : [l].filter (· ∈ ls) = [l] := List.filter_cons_of_pos (decide_eq_true hl)
    rw [hone, List.length_singleton] at hbound ⊢
    omega
  · right
    have hnone : [l].filter (· ∈ ls) = [] := List.filter_cons_of_neg (by simpa using hl)
    rw [hnone]
    exact ⟨rfl, hfail fun hok => hl (hls l hok)⟩

theorem exists_run {ls : List Location} (hls : ∀ l, (∃ source, env.read l = .ok source) → l ∈ ls)
    (s : Session) (h : s.ledger.Recorded) : ∃ fuel s', s.run env fuel = some s' := by
  cases hstep : s.step env with
  | none =>
    refine ⟨1, s, ?_⟩
    rw [run, hstep]
  | some s' =>
    obtain ⟨fuel, s'', hrun⟩ := exists_run hls s' (step_recorded env hstep h)
    refine ⟨fuel + 1, s'', ?_⟩
    rw [run, hstep]
    exact hrun
termination_by (s.left ls, s.queue.length)
decreasing_by
  rcases step_left hls hstep h with hleft | ⟨hleft, hqueue⟩
  · exact Prod.Lex.left _ _ hleft
  · rw [hleft]
    exact Prod.Lex.right _ hqueue

end

/-- **Every run ends.**  If finitely many locations can be read, finitely many jobs drain the queue
after any calls. -/
theorem run_ends (env : Env) (hfinite : {l | ∃ source, env.read l = .ok source}.Finite)
    (siteRoot : Path) (lints : Bool) (cs : List Call) :
    ∃ fuel s, (prepared env siteRoot lints cs).run env fuel = some s ∧ s.queue = [] := by
  have hls (l : Location) (hl : ∃ source, env.read l = .ok source) :
      l ∈ hfinite.toFinset.toList :=
    Finset.mem_toList.2 (hfinite.mem_toFinset.2 hl)
  have hrecorded := prepared_recorded env siteRoot lints cs
  obtain ⟨fuel, s, hrun⟩ := exists_run hls _ hrecorded
  exact ⟨fuel, s, hrun, (run_recorded env fuel hrun hrecorded).2⟩

/-- a single file that imports itself and something that cannot be read, with a style that imports
a sheet at the same place -/
def knot : Env where
  read l := if l = .remote "x/a".toList then .ok [] else .error (.remoteUnsupported l.toText)
  parseMarkup _ _ :=
    .ok ⟨[.element "import".toList (.ofList [("src".toList, "a".toList)]) [],
      .element "import".toList (.ofList [("src".toList, "b".toList)]) [],
      .element "style".toList .empty [.text ⟨[], false⟩]], true⟩
  parseCss _ _ := ⟨[], .ok (.sheet [.statement "import".toList "'a'".toList])⟩

theorem run_ends_knot : {l | ∃ source, knot.read l = .ok source}.Finite ∧
    ∃ fuel s,
      (prepared knot ⟨true, []⟩ true [.main (.remote "x/a".toList)]).run knot fuel = some s ∧
      s.queue = [] := by
  have hfinite : {l | ∃ source, knot.read l = .ok source}.Finite := by
    refine (Set.finite_singleton (Location.remote "x/a".toList)).subset ?_
    rintro l ⟨source, hl⟩
    by_contra hne
    have hread : knot.read l = .error (.remoteUnsupported l.toText) := if_neg hne
    rw [hread] at hl
    cases hl
  exact ⟨hfinite, run_ends knot hfinite ⟨true, []⟩ true _⟩

end Session

end PageTemplates
