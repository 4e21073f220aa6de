import Mathlib.Order.Nat
import V2xw.Lib.Fcfs
import V2xw.Lib.Mealy
import V2xw.Scms.Causality

/-!
# Service queues

The entities of the backend serve requests (`crates/v2xw-proto/src/service.rs`). A queue keeps only
the instants at which its servers are free; it serves first come, first served all the same.

## Main definitions

* `Served`, `ServiceQueue.serve` — a request as it was served.
* `ServiceQueue.servedBy` — the requests of a run as they were served.

## Main results

* `ServiceQueue.takes_serve` — an admission takes a server that is free first.
* `ServiceQueue.first_come_first_served` — the law of the queue.
-/

namespace V2xw.Scms

open V2xw.Core

/-- A request with the server it was given and the time it took there. -/
structure Served where
  job : Fcfs.Job SimTime
  service : Duration

namespace ServiceQueue

/-- A request, by its arrival and the cryptographic time it needs. -/
abbrev Request := SimTime × Duration

/-- Admits a request; the observer sees the server and the instant it starts at. -/
def serve (q : ServiceQueue) (r : Request) : Served × ServiceQueue :=
  let (index, free) := (firstFree q.freeAt).getD (0, r.1)
  let (done, q') := q.admitRequest r.1 r.2
  (⟨⟨index, r.1, max free r.1, done⟩, ⟨sat64 (r.2.ns + q.fixedOverhead.ns)⟩⟩, q')

/-- The requests of a run of a new queue, as they were served. -/
def servedBy (spec : ServiceModelSpec) (rs : List Request) : List Served :=
  Mealy.outputs serve (new spec) rs

/-- The queue after a run. -/
def after (spec : ServiceModelSpec) (rs : List Request) : ServiceQueue :=
  Mealy.run serve (new spec) rs

/-! ## Admissions -/

/-- The server taken is free first. -/
lemma firstFree_le : ∀ {l : List SimTime} {i : ℕ} {t : SimTime}, firstFree l = some (i, t) →
    ∀ u ∈ l, t ≤ u
  | v :: l, i, t, h => by
    intro u hu
    unfold firstFree at h
    cases hl : firstFree l with
    | none =>
      rw [hl] at h
      obtain ⟨rfl, rfl⟩ := Prod.mk.inj (Option.some.inj h)
      rw [firstFree_eq_none hl] at hu
      exact (List.mem_singleton.1 hu).ge
    | some p =>
      obtain ⟨j, w⟩ := p
      have ih := firstFree_le hl
      rw [hl] at h
      dsimp only at h
      split_ifs at h with hvw
      all_goals obtain ⟨rfl, rfl⟩ := Prod.mk.inj (Option.some.inj h)
      · rcases List.mem_cons.1 hu with rfl | hu
        · exact le_rfl
        · exact hvw.trans (ih u hu)
      · rcases List.mem_cons.1 hu with rfl | hu
        · exact (not_le.1 hvw).le
        · exact ih u hu

/-- What an admission does. -/
lemma serve_cases {q : ServiceQueue} (hq : q.Inv) (r : Request) : ∃ index free,
    firstFree q.freeAt = some (index, free) ∧
      (q.serve r).1.service = ⟨sat64 (r.2.ns + q.fixedOverhead.ns)⟩ ∧
      (q.serve r).1.job =
        ⟨index, r.1, max free r.1, (q.serve r).1.service.after (max free r.1)⟩ ∧
      (q.serve r).2 = { q with
        freeAt := q.freeAt.set index (q.serve r).1.job.finish
        busyNs := sat64 (q.busyNs + (q.serve r).1.service.ns)
        waitedNs := sat64 (q.waitedNs + (max free r.1 - r.1))
        served := q.served + 1 } := by
  obtain ⟨⟨index, free⟩, hfirst⟩ : ∃ x, firstFree q.freeAt = some x := by
    cases h : firstFree q.freeAt with
    | none => exact absurd (firstFree_eq_none h) hq.servers
    | some x => exact ⟨x, rfl⟩
  refine ⟨index, free, hfirst, rfl, ?_, ?_⟩
  all_goals
    simp only [serve, admitRequest, hfirst, Option.getD_some]

/-- **An admission takes a server that is free first.** -/
theorem takes_serve {q : ServiceQueue} (hq : q.Inv) {r : Request} (hr : r.1 ≤ u64Max) :
    Fcfs.Takes q.freeAt (q.serve r).1.job (q.serve r).2.freeAt := by
  obtain ⟨index, free, hfirst, hservice, hjob, hnext⟩ := serve_cases hq r
  have hget := firstFree_spec hfirst
  have hfree : free ≤ u64Max := hq.free_le free (List.mem_of_getElem? hget)
  refine ⟨⟨free, ?_, firstFree_le hfirst, ?_⟩, ?_, ?_⟩
  · rw [hjob]
    exact hget
  · rw [hjob]
  · rw [hjob]
    exact le_min (Nat.le_add_right _ _) (max_le hfree hr)
  · rw [hnext, hjob]

/-! ## Runs -/

/-- What a run has done to a queue: its servers follow the schedule, and the times are added up. -/
structure Follows (spec : ServiceModelSpec) (log : List Served) (q : ServiceQueue) : Prop where
  inv : q.Inv
  schedule : Fcfs.Schedule (max spec.servers 1) (log.map Served.job) q.freeAt
  finish_eq : ∀ x ∈ log, x.job.finish = x.service.after x.job.start
  busy_eq : q.busyNs = sat64 (log.map fun x => x.service.ns).sum
  waited_eq : q.waitedNs = sat64 (log.map fun x => x.job.start - x.job.arrival).sum

private lemma sat64_add (a b : ℕ) : sat64 (sat64 a + b) = sat64 (a + b) := by
  unfold sat64
  omega

/-- A queue follows the schedule of its run. -/
lemma follows (spec : ServiceModelSpec) (rs : List Request) (hle : ∀ r ∈ rs, r.1 ≤ u64Max)
    (hsorted : rs.Pairwise fun r r' => r.1 ≤ r'.1) :
    (servedBy spec rs).map (fun x => x.job.arrival) = rs.map Prod.fst ∧
      Follows spec (servedBy spec rs) (after spec rs) := by
  induction rs using List.reverseRecOn with
  | nil => exact ⟨rfl, inv_new spec, .nil, fun x hx => absurd hx List.not_mem_nil, rfl, rfl⟩
  | append_singleton rs r ih =>
    obtain ⟨hbefore, -, hlast⟩ := List.pairwise_append.1 hsorted
    obtain ⟨harrivals, hf⟩ := ih (fun r' hr' => hle r' (List.mem_append_left _ hr')) hbefore
    have hr : r.1 ≤ u64Max := hle r (List.mem_append_right _ List.mem_cons_self)
    obtain ⟨index, free, hfirst, hservice, hjob, hnext⟩ := serve_cases hf.inv r
    have htakes := takes_serve hf.inv hr
    have hpast : ∀ x ∈ (servedBy spec rs).map Served.job,
        x.arrival ≤ ((after spec rs).serve r).1.job.arrival := by
      intro x hx
      obtain ⟨y, hy, rfl⟩ := List.mem_map.1 hx
      have hmem : y.job.arrival ∈ rs.map Prod.fst :=
        harrivals ▸ List.mem_map_of_mem (f := fun x : Served => x.job.arrival) hy
      obtain ⟨r', hr', heq⟩ := List.mem_map.1 hmem
      rw [hjob, ← heq]
      exact hlast r' hr' r List.mem_cons_self
    have hlog : servedBy spec (rs ++ [r]) = servedBy spec rs ++ [((after spec rs).serve r).1] :=
      Mealy.outputs_concat serve (new spec) rs r
    have hrun : after spec (rs ++ [r]) = ((after spec rs).serve r).2 :=
      Mealy.run_concat serve (new spec) rs r
    have hadmits := admits hf.inv hr r.2
    have hqueue : ((after spec rs).serve r).2 = ((after spec rs).admitRequest r.1 r.2).2 := rfl
    rw [hlog, hrun]
    refine ⟨?_, hqueue ▸ hadmits.inv, ?_, fun x hx => ?_, ?_, ?_⟩
    · rw [List.map_append, harrivals, List.map_append, List.map_singleton, List.map_singleton, hjob]
    · rw [List.map_append]
      exact hf.schedule.snoc hpast htakes
    · rcases List.mem_append.1 hx with hx | hx
      · exact hf.finish_eq x hx
      · rw [List.mem_singleton.1 hx, hjob]
    · rw [hnext, hf.busy_eq, sat64_add, List.map_append, List.sum_append, List.map_singleton,
        List.sum_singleton]
    · rw [hnext, hf.waited_eq, sat64_add, List.map_append, List.sum_append, List.map_singleton,
        List.sum_singleton, hjob]

private lemma foldl_max_mem : ∀ (l : List SimTime) (a : SimTime),
    l.foldl max a = a ∨ l.foldl max a ∈ l
  | [], _ => .inl rfl
  | b :: l, a => by
    rcases foldl_max_mem l (max a b) with h | h
    · rw [List.foldl_cons, h]
      rcases max_choice a b with hmax | hmax
      · exact .inl hmax
      · rw [hmax]
        exact .inr List.mem_cons_self
    · exact .inr (List.mem_cons_of_mem _ h)

private lemma foldl_max_le {l m : List SimTime} (h : ∀ t ∈ l, t = 0 ∨ ∃ u ∈ m, t ≤ u) :
    l.foldl max 0 ≤ m.foldl max 0 := by
  rcases foldl_max_mem l 0 with hzero | hmem
  · rw [hzero]
    exact Nat.zero_le _
  · rcases h _ hmem with hzero | ⟨u, hu, hle⟩
    · rw [hzero]
      exact Nat.zero_le _
    · exact hle.trans (le_busyUntil (q := ⟨m, ⟨0⟩, 0, 0, 0⟩) hu)

/-- **First come, first served.** A queue with at least one server, whose requests arrive in order,
starts them in that order and not before they arrive. At no instant are more requests in service
than it has servers, and while a request waits they are as many. Requests that take equally long are
finished in order. The queue is busy until the latest completion, and the times it reports are the
sums of the service times and of the waiting times, up to the largest `u64`. -/
theorem first_come_first_served (spec : ServiceModelSpec) {rs : List Request}
    (hle : ∀ r ∈ rs, r.1 ≤ u64Max) (hsorted : rs.Pairwise fun r r' => r.1 ≤ r'.1) :
    let log := servedBy spec rs
    let q := after spec rs
    log.map (fun x => x.job.arrival) = rs.map Prod.fst ∧
    log.Pairwise (fun x y => x.job.start ≤ y.job.start) ∧
    (∀ x ∈ log, x.job.arrival ≤ x.job.start ∧ x.job.finish = x.service.after x.job.start) ∧
    (∀ t, log.countP (fun x => x.job.start ≤ t ∧ t < x.job.finish) ≤ max spec.servers 1) ∧
    (∀ x ∈ log, ∀ t, x.job.arrival ≤ t → t < x.job.start →
      log.countP (fun y => y.job.start ≤ t ∧ t < y.job.finish) = max spec.servers 1) ∧
    log.Pairwise (fun x y => x.service = y.service → x.job.finish ≤ y.job.finish) ∧
    q.busyUntil = (log.map fun x => x.job.finish).foldl max 0 ∧
    q.busyNs = sat64 (log.map fun x => x.service.ns).sum ∧
    q.waitedNs = sat64 (log.map fun x => x.job.start - x.job.arrival).sum := by
  obtain ⟨harrivals, hf⟩ := follows spec rs hle hsorted
  intro log q
  have hcount (t : SimTime) : log.countP (fun x => x.job.start ≤ t ∧ t < x.job.finish) =
      (log.map Served.job).countP (fun x => decide (x.During t)) := by
    rw [List.countP_map]
    rfl
  have hstart : log.Pairwise fun x y => x.job.start ≤ y.job.start :=
    (List.pairwise_map (f := Served.job)).1 hf.schedule.pairwise_start
  refine ⟨harrivals, hstart, fun x hx => ⟨?_, hf.finish_eq x hx⟩, fun t => ?_,
    fun x hx t ht hlt => ?_, ?_, ?_, hf.busy_eq, hf.waited_eq⟩
  · exact (hf.schedule.arrival_le _ (List.mem_map_of_mem hx)).1
  · rw [hcount]
    exact hf.schedule.countP_le t
  · rw [hcount]
    exact hf.schedule.countP_of_waiting _ (List.mem_map_of_mem hx) t ht hlt
  · refine hstart.imp_of_mem fun hx hy hxy hsame => ?_
    rw [hf.finish_eq _ hx, hf.finish_eq _ hy, hsame]
    exact Duration.after_mono _ hxy
  · -- The servers are free at completions, and every completion is followed by one.
    refine le_antisymm (foldl_max_le fun t ht => ?_) (foldl_max_le fun t ht => ?_)
    · rcases hf.schedule.exists_finish t ht with hzero | ⟨x, hx, rfl⟩
      · exact .inl hzero
      · obtain ⟨y, hy, rfl⟩ := List.mem_map.1 hx
        exact .inr ⟨_, List.mem_map_of_mem hy, le_rfl⟩
    · obtain ⟨x, hx, rfl⟩ := List.mem_map.1 ht
      obtain ⟨f, hget, hfin⟩ := hf.schedule.finish_le _ (List.mem_map_of_mem hx)
      exact .inr ⟨f, List.mem_of_getElem? hget, hfin⟩

/-- Three requests for two servers: the third one waits. -/
theorem first_come_first_served_waiting :
    (servedBy ⟨2, ⟨1⟩⟩ [(0, ⟨9⟩), (1, ⟨9⟩), (5, ⟨4⟩)]).map (fun x => x.job.start) = [0, 1, 10] ∧
      ∀ t, (servedBy ⟨2, ⟨1⟩⟩ [(0, ⟨9⟩), (1, ⟨9⟩), (5, ⟨4⟩)]).countP
        (fun x => x.job.start ≤ t ∧ t < x.job.finish) ≤ 2 :=
  ⟨by decide +kernel, (first_come_first_served ⟨2, ⟨1⟩⟩ (by decide) (by decide)).2.2.2.1⟩

/-- A queue for no servers has one: the request it is given is in service. -/
theorem served_without_servers :
    ¬ ∀ (spec : ServiceModelSpec) (rs : List Request), (∀ r ∈ rs, r.1 ≤ u64Max) →
      rs.Pairwise (fun r r' => r.1 ≤ r'.1) → ∀ t,
        (servedBy spec rs).countP (fun x => x.job.start ≤ t ∧ t < x.job.finish) ≤ spec.servers := by
  intro h
  have hone := h ⟨0, ⟨1⟩⟩ [(0, ⟨0⟩)] (by decide) (by decide) 0
  exact absurd hone (by decide +kernel)

end ServiceQueue

end V2xw.Scms
