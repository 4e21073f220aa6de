import V2xw.Node.RuntimeSpec

/-!
# Messages are delivered once they are checked

A call hands over the checks that have finished by the instant it believes it is, in the order they
finish, as long as no frame of its inbox is parsed after that instant. A frame that is parsed later
takes the verifier with it: the checks are advanced to the end of the parse, and what has finished
by then is delivered too early.

## Main definitions

* `ObuRuntime.Steady` — the line and the running checks at an instant.
* `Turn.Punctual` — a call that has delivered everything up to an instant, in order.
* `ObuRuntime.parsesInTime` — every frame of an inbox is parsed by the instant of the call.

## Main results

* `Turn.Punctual.receive` — a call delivers what has finished by its own instant.
* `delivered_in_order` — over whole runs.
* `delivered_early` — a run that delivers before the check has finished.
-/

namespace V2xw.Node

open Core
open Record (F64)

variable {M : NodeModels}

/-! ## The line -/

/-- The instants of a journey come in order. -/
def RxReport.InOrder (r : RxReport) : Prop :=
  r.arrived ≤ r.parsed ∧
    ∀ done, r.verifyDone = some done → ∃ start, r.verifyStart = some start ∧
      r.parsed ≤ start ∧ start ≤ done

/-- When the check of a delivered frame finished. -/
def RxReport.checkedAt (r : RxReport) : Option SimTime :=
  match r.disposition with
  | .delivered _ => r.verifyDone
  | _ => none

/-- The line and the running checks at an instant `u`: frames wait in the order they were parsed,
none after `u`, and neither a running check nor one that has yet to start finishes before `u`. -/
structure ObuRuntime.Steady (u : SimTime) (s : ObuRuntime M) : Prop where
  /-- A frame is queued at the instant it was parsed. -/
  stamps : s.verifyMeta.map (·.parsed) = s.verifyQueue.items.map (·.enqueuedAt)
  arrived : ∀ w ∈ s.verifyMeta, w.arrived ≤ w.parsed
  sorted : (s.verifyQueue.items.map (·.enqueuedAt)).Pairwise (· ≤ ·)
  parsed : ∀ q ∈ s.verifyQueue.items, q.enqueuedAt ≤ u
  waiting : s.verifyCost.isSome → ∀ q ∈ s.verifyQueue.items,
    u ≤ max q.enqueuedAt (s.bank s.verifyRunsOn).earliestFree
  running : ∀ r ∈ s.verifying.entries, u ≤ r.finish ∧ r.check.report.checkedAt = some r.finish ∧
    r.check.report.InOrder

/-- The line is steady whatever else happens, as long as the servers only get busier. -/
lemma ObuRuntime.Steady.congr {u : SimTime} {s s' : ObuRuntime M} (h : s.Steady u)
    (hitems : s'.verifyQueue.items = s.verifyQueue.items)
    (hmeta : s'.verifyMeta = s.verifyMeta)
    (hverifying : s'.verifying.entries ⊆ s.verifying.entries)
    (hcost : s'.verifyCost.isSome = s.verifyCost.isSome)
    (hwhere : s'.verifyRunsOn = s.verifyRunsOn)
    (hfree : (s.bank s.verifyRunsOn).earliestFree ≤ (s'.bank s.verifyRunsOn).earliestFree) :
    s'.Steady u where
  stamps := by rw [hmeta, hitems, h.stamps]
  arrived := by rw [hmeta]; exact h.arrived
  sorted := by rw [hitems]; exact h.sorted
  parsed := by rw [hitems]; exact h.parsed
  waiting := by
    intro hsome q hq
    rw [hcost] at hsome
    rw [hitems] at hq
    rw [hwhere]
    exact (h.waiting hsome q hq).trans (max_le_max_left _ hfree)
  running r hr := h.running r (hverifying hr)

lemma ObuRuntime.Steady.later {u v : SimTime} {s : ObuRuntime M} (h : s.Steady u) (huv : u ≤ v)
    (hwaiting : s.verifyCost.isSome → ∀ q ∈ s.verifyQueue.items,
      v ≤ max q.enqueuedAt (s.bank s.verifyRunsOn).earliestFree)
    (hrunning : ∀ r ∈ s.verifying.entries, v ≤ r.finish) : s.Steady v where
  stamps := h.stamps
  arrived := h.arrived
  sorted := h.sorted
  parsed q hq := (h.parsed q hq).trans huv
  waiting := hwaiting
  running r hr := ⟨hrunning r hr, (h.running r hr).2⟩

namespace Turn

/-- A check that starts keeps the line steady. -/
lemma steady_startNext {u until_ : SimTime} {t t' : Turn M} {cost : Duration}
    (hcost : t.node.verifyCost = some cost) (h : t.node.Steady u)
    (hstep : t.startNext until_ = some t') : t'.node.Steady u := by
  obtain ⟨q, queue, hq, rfl⟩ := startNext_eq_some hcost hstep
  obtain ⟨hitems, -, -⟩ := startable_eq_some hq
  obtain ⟨w, ws, hmeta⟩ : ∃ w ws, t.node.verifyMeta = w :: ws := by
    cases hmeta : t.node.verifyMeta with
    | nil => simpa [hmeta, hitems] using h.stamps
    | cons w ws => exact ⟨w, ws, rfl⟩
  rw [hmeta, List.head?_cons, Option.getD_some]
  have hstamps := h.stamps
  rw [hmeta, hitems, List.map_cons, List.map_cons, List.cons.injEq] at hstamps
  have hsorted := h.sorted
  rw [hitems, List.map_cons] at hsorted
  set t' := startCheck { t with node := t.node.behind queue } q w cost
  have htail : t'.node.verifyMeta = ws := by
    change t.node.verifyMeta.tail = ws
    rw [hmeta, List.tail_cons]
  have hfree : (t.node.bank t.node.verifyRunsOn).earliestFree ≤
      (t'.node.bank t.node.verifyRunsOn).earliestFree :=
    (t.node.behind queue).earliestFree_le_submit _ _ _ _
  refine ⟨?_, ?_, ?_, ?_, ?_, ?_⟩
  · rw [htail]
    exact hstamps.2
  · rw [htail]
    exact fun v hv => h.arrived v (hmeta ▸ List.mem_cons_of_mem _ hv)
  · exact hsorted.of_cons
  · exact fun v hv => h.parsed v (hitems ▸ List.mem_cons_of_mem _ hv)
  · intro hsome v hv
    have hle := h.waiting (by rw [hcost]; rfl) v (hitems ▸ List.mem_cons_of_mem _ hv)
    exact hle.trans (max_le_max_left _ hfree)
  · intro r hr
    rcases (List.mem_orderedInsert _).1 hr with rfl | hr
    · -- The check starts when it was parsed or when a server is free, and then takes its time.
      have hstart : u ≤ max q.enqueuedAt (t.node.bank t.node.verifyRunsOn).earliestFree :=
        h.waiting (by rw [hcost]; rfl) q (hitems ▸ List.mem_cons_self)
      have hdone := ServerBank.start_le_finish (t.node.bank t.node.verifyRunsOn) q.enqueuedAt cost
      refine ⟨hstart.trans hdone, rfl, h.arrived w (hmeta ▸ List.mem_cons_self), ?_⟩
      rintro done ⟨⟩
      refine ⟨_, rfl, ?_, hdone⟩
      change w.parsed ≤ _
      rw [hstamps.1]
      exact ServerBank.arrival_le_start _ _ _
    · exact h.running r hr

/-- Starting what can start by `v` leaves a line in which nothing starts before `v`. -/
lemma steady_advanceVerifications {u : SimTime} {t : Turn M} (h : t.node.Steady u)
    (v : SimTime) :
    let t' := t.advanceVerifications v
    t'.node.Steady u ∧ t'.out = t.out ∧
      (t'.node.verifyCost.isSome → ∀ q ∈ t'.node.verifyQueue.items,
        v ≤ max q.enqueuedAt (t'.node.bank t'.node.verifyRunsOn).earliestFree) := by
  unfold advanceVerifications
  dsimp only
  split
  next hcost => exact ⟨h, rfl, fun hsome => by rw [hcost] at hsome; cases hsome⟩
  next cost hcost =>
    obtain ⟨hrun, hout, hsteady⟩ := (startLoop v).run_induction
      (P := fun t' => t'.node.verifyCost = some cost ∧ t'.out = t.out ∧ t'.node.Steady u)
      (fun s s' hstep hs => ⟨(verifyCost_startNext hstep).trans hs.1,
        (out_startNext hstep).trans hs.2.1, steady_startNext hs.1 hs.2.2 hstep⟩)
      ⟨hcost, rfl, h⟩
    refine ⟨hsteady, hout, fun _ q hq => ?_⟩
    have hnone : startable v ((startLoop v).run t).node = none :=
      Option.map_eq_none_iff.1 ((startLoop v).step_run t)
    -- The line is in order, so the front of it starts first.
    obtain ⟨front, rest, hitems⟩ := List.exists_cons_of_ne_nil (List.ne_nil_of_mem hq)
    have hfront := startable_eq_none hnone hitems
    have hsorted := hsteady.sorted
    rw [hitems, List.map_cons, List.pairwise_cons] at hsorted
    rw [hitems] at hq
    rcases List.mem_cons.1 hq with rfl | hq
    · exact hfront.le
    · exact hfront.le.trans (max_le_max_right _ (hsorted.1 _ (List.mem_map_of_mem hq)))

end Turn

/-! ## Deliveries -/

namespace Turn

/-- A call that has delivered everything that had finished by `u`, in the order it finished, and
nothing that finished before `lo`. -/
structure Punctual (lo u : SimTime) (t : Turn M) : Prop where
  steady : t.node.Steady u
  lo_le : lo ≤ u
  journeys : ∀ r ∈ t.out.rxReports, ∀ done, r.checkedAt = some done → r.InOrder
  window : ∀ done ∈ t.out.rxReports.filterMap RxReport.checkedAt, lo ≤ done ∧ done ≤ u
  order : (t.out.rxReports.filterMap RxReport.checkedAt).Pairwise (· ≤ ·)

/-- A report that tells of no check changes nothing. -/
lemma Punctual.report {lo u : SimTime} {t : Turn M} (h : t.Punctual lo u) {r : RxReport}
    (hr : r.checkedAt = none) : (t.report r).Punctual lo u := by
  have hfilter : (t.report r).out.rxReports.filterMap RxReport.checkedAt =
      t.out.rxReports.filterMap RxReport.checkedAt := by
    simp [Turn.report, hr]
  refine ⟨h.steady, h.lo_le, ?_, ?_, ?_⟩
  · intro r' hr' done hdone
    rcases List.mem_append.1 hr' with hr' | hr'
    · exact h.journeys r' hr' done hdone
    · obtain rfl := List.mem_singleton.1 hr'
      rw [hr] at hdone
      cases hdone
  · rw [hfilter]
    exact h.window
  · rw [hfilter]
    exact h.order

/-- Handing a check over moves on to the instant it finished. -/
lemma punctual_handNext {lo u v : SimTime} {t t' : Turn M} (h : t.Punctual lo u)
    (hv : t.node.verifyCost.isSome → ∀ q ∈ t.node.verifyQueue.items,
      v ≤ max q.enqueuedAt (t.node.bank t.node.verifyRunsOn).earliestFree)
    (hstep : t.handNext v = some t') : ∃ u', u ≤ u' ∧ u' ≤ v ∧ t'.Punctual lo u' := by
  obtain ⟨r, rest, hentries, hfinish, rfl⟩ := handNext_eq_some hstep
  have hmem : r ∈ t.node.verifying.entries := hentries ▸ List.mem_cons_self
  obtain ⟨hle, hdone, horder⟩ := h.steady.running r hmem
  have hsorted := t.node.verifying.sorted
  rw [hentries, List.pairwise_cons] at hsorted
  have htail : t.node.verifying.entries.tail = rest := by rw [hentries, List.tail_cons]
  have hsub : t.node.verifying.entries.tail ⊆ t.node.verifying.entries := List.tail_subset _
  have hsteady : ObuRuntime.Steady u (deliver
      { t with node := { t.node with verifying := t.node.verifying.tail } } r.check.message).node :=
    h.steady.congr rfl rfl hsub rfl rfl (le_refl _)
  have hfilter : (t.out.rxReports ++ [r.check.report]).filterMap RxReport.checkedAt =
      t.out.rxReports.filterMap RxReport.checkedAt ++ [r.finish] := by
    rw [List.filterMap_append, List.filterMap_cons_some hdone, List.filterMap_nil]
  refine ⟨r.finish, hle, hfinish, ?_, h.lo_le.trans hle, ?_, ?_, ?_⟩
  · -- What is left finishes no earlier than the check just handed over.
    refine hsteady.later hle (fun hsome q hq => hfinish.trans (hv hsome q hq)) fun r' hr' => ?_
    change r' ∈ t.node.verifying.entries.tail at hr'
    rw [htail] at hr'
    rcases hsorted.1 r' hr' with hlt | ⟨heq, -⟩
    · exact hlt.le
    · exact heq.le
  · intro r' hr' done hr'done
    rcases List.mem_append.1 hr' with hr' | hr'
    · exact h.journeys r' hr' done hr'done
    · obtain rfl := List.mem_singleton.1 hr'
      exact horder
  · intro done hmem
    change done ∈ (t.out.rxReports ++ [r.check.report]).filterMap RxReport.checkedAt at hmem
    rw [hfilter] at hmem
    rcases List.mem_append.1 hmem with hmem | hmem
    · exact ⟨(h.window done hmem).1, (h.window done hmem).2.trans hle⟩
    · obtain rfl := List.mem_singleton.1 hmem
      exact ⟨h.lo_le.trans hle, le_refl _⟩
  · change ((t.out.rxReports ++ [r.check.report]).filterMap RxReport.checkedAt).Pairwise (· ≤ ·)
    rw [hfilter, List.pairwise_append]
    refine ⟨h.order, List.pairwise_singleton _ _, fun done hmem last hlast => ?_⟩
    obtain rfl := List.mem_singleton.1 hlast
    exact (h.window done hmem).2.trans hle

/-- **Catching up** to a later instant delivers everything that has finished by then, in order. -/
lemma Punctual.catchUp {lo u v : SimTime} {t : Turn M} (h : t.Punctual lo u) (huv : u ≤ v) :
    (t.catchUp v).Punctual lo v := by
  obtain ⟨hsteady, hout, hwaiting⟩ := steady_advanceVerifications h.steady v
  have hstart : (t.advanceVerifications v).Punctual lo u :=
    ⟨hsteady, h.lo_le, by rw [hout]; exact h.journeys, by rw [hout]; exact h.window,
      by rw [hout]; exact h.order⟩
  obtain ⟨⟨u', -, hu'v, hpunctual⟩, hwait⟩ := (handLoop v).run_induction
    (P := fun t' => (∃ u', u ≤ u' ∧ u' ≤ v ∧ t'.Punctual lo u') ∧
      (t'.node.verifyCost.isSome → ∀ q ∈ t'.node.verifyQueue.items,
        v ≤ max q.enqueuedAt (t'.node.bank t'.node.verifyRunsOn).earliestFree))
    (by
      rintro s s' hstep ⟨⟨u', hu', -, hs⟩, hwait⟩
      obtain ⟨u'', hu'', hle, hs'⟩ := punctual_handNext hs hwait hstep
      obtain ⟨r, rest, -, -, rfl⟩ := handNext_eq_some hstep
      exact ⟨⟨u'', hu'.trans hu'', hle, hs'⟩, hwait⟩)
    ⟨⟨u, le_refl u, huv, hstart⟩, hwaiting⟩
  -- Everything that is left finishes after `v`.
  have hnone : ((handLoop v).run (t.advanceVerifications v)).handNext v = none :=
    (handLoop v).step_run _
  refine ⟨hpunctual.steady.later hu'v hwait fun r hr => ?_, h.lo_le.trans huv, hpunctual.journeys,
    fun done hdone => ?_, hpunctual.order⟩
  · obtain ⟨first, rest, hentries⟩ := List.exists_cons_of_ne_nil (List.ne_nil_of_mem hr)
    have hfirst := handNext_eq_none hnone hentries
    have hsorted := ((handLoop v).run (t.advanceVerifications v)).node.verifying.sorted
    rw [hentries, List.pairwise_cons] at hsorted
    rw [hentries] at hr
    rcases List.mem_cons.1 hr with rfl | hr
    · exact hfirst.le
    · rcases hsorted.1 r hr with hlt | ⟨heq, -⟩
      · exact hfirst.le.trans hlt.le
      · exact hfirst.le.trans heq.le
  · exact ⟨(hpunctual.window done hdone).1, (hpunctual.window done hdone).2.trans hu'v⟩

/-! ## One frame -/

lemma Punctual.congr {lo u : SimTime} {t t' : Turn M} (h : t.Punctual lo u)
    (hsteady : t'.node.Steady u) (hout : t'.out.rxReports = t.out.rxReports) :
    t'.Punctual lo u :=
  ⟨hsteady, h.lo_le, by rw [hout]; exact h.journeys, by rw [hout]; exact h.window,
    by rw [hout]; exact h.order⟩

/-- A frame that joins the line at the instant it was parsed keeps it steady. -/
lemma steady_join {u : SimTime} {s s' : ObuRuntime M} (h : s.Steady u) {q : Queued RxFrame}
    {w : Waiting} (hq : q.enqueuedAt = u) (hw : w.parsed = u) (harrived : w.arrived ≤ u)
    (hitems : s'.verifyQueue.items = s.verifyQueue.items ++ [q])
    (hmeta : s'.verifyMeta = s.verifyMeta ++ [w])
    (hverifying : s'.verifying = s.verifying)
    (hcost : s'.verifyCost = s.verifyCost)
    (hbank : s'.bank s'.verifyRunsOn = s.bank s.verifyRunsOn) : s'.Steady u where
  stamps := by rw [hmeta, hitems, List.map_append, List.map_append, h.stamps]; simp [hq, hw]
  arrived := by
    intro v hv
    rw [hmeta] at hv
    rcases List.mem_append.1 hv with hv | hv
    · exact h.arrived v hv
    · obtain rfl := List.mem_singleton.1 hv
      exact harrived.trans hw.ge
  sorted := by
    rw [hitems, List.map_append, List.pairwise_append]
    refine ⟨h.sorted, List.pairwise_singleton _ _, fun a ha b hb => ?_⟩
    obtain ⟨v, hv, rfl⟩ := List.mem_map.1 ha
    obtain rfl : b = q.enqueuedAt := by simpa using hb
    rw [hq]
    exact h.parsed v hv
  parsed := by
    intro v hv
    rw [hitems] at hv
    rcases List.mem_append.1 hv with hv | hv
    · exact h.parsed v hv
    · obtain rfl := List.mem_singleton.1 hv
      exact hq.le
  waiting := by
    intro hsome v hv
    rw [hcost] at hsome
    rw [hitems] at hv
    rw [hbank]
    rcases List.mem_append.1 hv with hv | hv
    · exact h.waiting hsome v hv
    · obtain rfl := List.mem_singleton.1 hv
      exact hq.ge.trans (le_max_left _ _)
  running := by
    rw [hverifying]
    exact h.running

/-- The line without its front is steady. -/
lemma steady_leave {u : SimTime} {s s' : ObuRuntime M} (h : s.Steady u)
    (hitems : s'.verifyQueue.items = s.verifyQueue.items.tail)
    (hmeta : s'.verifyMeta = s.verifyMeta.tail)
    (hverifying : s'.verifying = s.verifying)
    (hcost : s'.verifyCost = s.verifyCost)
    (hbank : s'.bank s'.verifyRunsOn = s.bank s.verifyRunsOn) : s'.Steady u where
  stamps := by rw [hmeta, hitems, List.map_tail, List.map_tail, h.stamps]
  arrived v hv := h.arrived v (List.mem_of_mem_tail (hmeta ▸ hv))
  sorted := by
    rw [hitems, List.map_tail]
    exact h.sorted.tail
  parsed v hv := h.parsed v (List.mem_of_mem_tail (hitems ▸ hv))
  waiting := by
    intro hsome v hv
    rw [hcost] at hsome
    rw [hbank]
    exact h.waiting hsome v (List.mem_of_mem_tail (hitems ▸ hv))
  running := by
    rw [hverifying]
    exact h.running

/-- Every admission outcome is punctual. -/
lemma Punctual.enqueue {lo u : SimTime} {t : Turn M} (h : t.Punctual lo u) (frame : RxFrame)
    (stamp : RxStamp) {arrived : SimTime} (harrived : arrived ≤ u) :
    (t.enqueue frame stamp arrived u).Punctual lo u := by
  have hoffer := offered_offer t.node ⟨frame, u⟩
  unfold Turn.enqueue
  dsimp only
  generalize hitems' : (offer t.node ⟨frame, u⟩).2.items = items' at hoffer
  generalize (offer t.node ⟨frame, u⟩).1 = admitted at hoffer
  cases hoffer with
  | queued =>
    refine h.congr ?_ rfl
    exact steady_join h.steady rfl rfl harrived hitems' rfl rfl rfl rfl
  | refused =>
    refine (Punctual.report ?_ rfl)
    exact h.congr (h.steady.congr hitems' rfl (List.Subset.refl _) rfl rfl (le_refl _)) rfl
  | @evicted old rest hitems =>
    obtain ⟨w, ws, hmeta⟩ : ∃ w ws, t.node.verifyMeta = w :: ws := by
      cases hmeta : t.node.verifyMeta with
      | nil => simpa [hmeta, hitems] using h.steady.stamps
      | cons w ws => exact ⟨w, ws, rfl⟩
    -- The oldest frame leaves the line to be reported, and the new one joins it behind the rest.
    let left : ObuRuntime M := { t.node with
      verifyQueue := { t.node.verifyQueue with items := rest }, verifyMeta := ws }
    have hleft : left.Steady u := by
      refine steady_leave h.steady ?_ ?_ rfl rfl rfl
      · rw [hitems, List.tail_cons]
      · rw [hmeta, List.tail_cons]
    have hover : (overflow { t with node := left } old w).Punctual lo u := by
      refine Punctual.report ?_ rfl
      exact h.congr (hleft.congr rfl rfl (List.Subset.refl _) rfl rfl (le_refl _)) rfl
    unfold admitFrame
    dsimp only
    rw [hmeta]
    exact hover.congr (steady_join hover.steady rfl rfl harrived hitems' rfl rfl rfl rfl) rfl

/-- Every decision of the policy is punctual. -/
lemma Punctual.police {lo u : SimTime} {t : Turn M} (h : t.Punctual lo u) (frame : RxFrame)
    (stamp : RxStamp) {arrived : SimTime} (harrived : arrived ≤ u) :
    (t.police frame stamp arrived u).Punctual lo u := by
  obtain ⟨stores, policy, emitted, hconsult⟩ := t.consult_eq frame arrived u
  have hasked : (t.consult frame arrived u).2.Punctual lo u := by
    rw [hconsult]
    exact h.congr (h.steady.congr rfl rfl (List.Subset.refl _) rfl rfl (le_refl _)) rfl
  unfold Turn.police
  dsimp only
  generalize (t.consult frame arrived u).2 = t' at hasked
  cases (t.consult frame arrived u).1 with
  | verify priority reason => exact hasked.enqueue frame stamp harrived
  | deliverUnverified reason =>
    refine Punctual.report ?_ rfl
    exact hasked.congr (hasked.steady.congr rfl rfl (List.Subset.refl _) rfl rfl (le_refl _)) rfl
  | drop cause =>
    refine Punctual.report ?_ rfl
    exact hasked.congr (hasked.steady.congr rfl rfl (List.Subset.refl _) rfl rfl (le_refl _)) rfl

end Turn

/-- The instant at which a frame is parsed, when the receive queue has room. -/
def ObuRuntime.parseInstant (s : ObuRuntime M) (cost : Option Duration) (arrived : SimTime) :
    SimTime :=
  match cost with
  | none => arrived
  | some c => (s.cpu.submit arrived c).1.finish

lemma ObuRuntime.le_parseInstant (s : ObuRuntime M) (cost : Option Duration)
    (arrived : SimTime) : arrived ≤ s.parseInstant cost arrived := by
  cases cost with
  | none => exact le_refl _
  | some c =>
    exact (ServerBank.arrival_le_start _ _ _).trans (ServerBank.start_le_finish _ _ _)

lemma ObuRuntime.parseInstant_mono {s s' : ObuRuntime M} (cost : Option Duration)
    {arrived arrived' : SimTime} (h : arrived ≤ arrived')
    (hcpu : s.cpu.earliestFree ≤ s'.cpu.earliestFree) :
    s.parseInstant cost arrived ≤ s'.parseInstant cost arrived' := by
  cases cost with
  | none => exact h
  | some c => exact satAdd64_mono (max_le_max h hcpu) _

namespace Turn

/-- Every frame is parsed by the instant the node believes it is, or finds the receive queue
full. -/
def parsesBy (believed : SimTime) (cost : Option Duration) :
    Turn M → List (RxFrame × RxStamp × SimTime) → Bool
  | _, [] => true
  | t, x :: frames =>
    (t.node.parse cost x.2.2).1.all (· ≤ believed) && (t.receiveFrame cost x).parsesBy believed cost
      frames

/-- A frame that is received after `u` is dealt with at the instant it is parsed. -/
lemma Punctual.receiveFrame {lo u : SimTime} {t : Turn M} (h : t.Punctual lo u)
    (cost : Option Duration) (x : RxFrame × RxStamp × SimTime)
    (hu : u ≤ t.node.parseInstant cost x.2.2) :
    (t.receiveFrame cost x).Punctual lo u ∨
      (t.node.parse cost x.2.2).1 = some (t.node.parseInstant cost x.2.2) ∧
      (t.receiveFrame cost x).Punctual lo (t.node.parseInstant cost x.2.2) := by
  obtain ⟨frame, stamp, arrived⟩ := x
  have harrived := t.node.le_parseInstant cost arrived
  unfold Turn.receiveFrame
  dsimp only at hu ⊢
  rcases t.node.parse_cases cost arrived with ⟨rfl, hparse⟩ | ⟨starts, hparse⟩ |
    ⟨c, starts, rfl, hparse⟩
  · rw [hparse]
    refine .inr ⟨rfl, Punctual.police (Punctual.catchUp ?_ hu) frame stamp harrived⟩
    exact h.congr (h.steady.congr rfl rfl (List.Subset.refl _) rfl rfl (le_refl _)) rfl
  · rw [hparse]
    refine .inl (Punctual.report ?_ rfl)
    exact h.congr (h.steady.congr rfl rfl (List.Subset.refl _) rfl rfl (le_refl _)) rfl
  · rw [hparse]
    refine .inr ⟨rfl, Punctual.police (Punctual.catchUp ?_ hu) frame stamp harrived⟩
    refine h.congr (h.steady.congr rfl rfl (List.Subset.refl _) rfl rfl ?_) rfl
    cases t.node.verifyRunsOn with
    | hsm => exact le_refl _
    | accelerator => exact le_refl _
    | cpu => exact ServerBank.earliestFree_le_submit _ _ _

/-- Frames in the order they arrived, all parsed by `b`, leave a call that is punctual by `b`. -/
lemma Punctual.foldl_receiveFrame {lo b : SimTime} (cost : Option Duration)
    (frames : List (RxFrame × RxStamp × SimTime)) :
    ∀ {u : SimTime} {t : Turn M}, t.Punctual lo u → u ≤ b → t.parsesBy b cost frames = true →
      frames.Pairwise (fun x y => x.2.2 ≤ y.2.2) →
      (∀ x ∈ frames, u ≤ t.node.parseInstant cost x.2.2) →
      ∃ u' ≤ b, (frames.foldl (Turn.receiveFrame cost) t).Punctual lo u' := by
  induction frames with
  | nil => exact fun h hub _ _ _ => ⟨_, hub, h⟩
  | cons x frames ih =>
    intro u t h hub hparses hsorted hlater
    obtain ⟨hx, hrest⟩ := Bool.and_eq_true_iff.1 hparses
    obtain ⟨hfirst, hsorted⟩ := List.pairwise_cons.1 hsorted
    have hcpu := earliestFree_receiveFrame cost t x .cpu
    rcases h.receiveFrame cost x (hlater x List.mem_cons_self) with hsame | ⟨hparse, hnext⟩
    · refine ih hsame hub hrest hsorted fun y hy => ?_
      exact (hlater y (List.mem_cons_of_mem _ hy)).trans
        (ObuRuntime.parseInstant_mono cost (le_refl _) hcpu)
    · rw [hparse] at hx
      refine ih hnext (of_decide_eq_true hx) hrest hsorted fun y hy => ?_
      exact ObuRuntime.parseInstant_mono cost (hfirst y hy) hcpu

lemma pairwise_arrivals (s : ObuRuntime M) (believed : SimTime)
    (inbox : List (RxFrame × RxStamp)) :
    (arrivals s believed inbox).Pairwise (fun x y => x.2.2 ≤ y.2.2) := by
  have hsorted := List.pairwise_insertionSort
    (fun a b : RxFrame × RxStamp × SimTime => a.2.2 ≤ b.2.2)
  exact hsorted _

end Turn

/-! ## Calls -/

/-- Every frame of the inbox of a call is parsed by the call's own instant. -/
def ObuRuntime.parsesInTime (s : ObuRuntime M) (op : NodeOp M) : Bool :=
  match op.call with
  | none => true
  | some (now, inbox) =>
    let s := s.tick now
    let believed := s.clock.believedTime now
    s.state == .off ||
      Turn.parsesBy believed s.parseCost { node := s } (Turn.arrivals s believed inbox)

/-- A call of a node with a disciplined clock, no earlier than the call before, with frames that
arrived since then. -/
def ObuRuntime.CallInStep (s : ObuRuntime M) (now : SimTime) (inbox : List (RxFrame × RxStamp)) :
    Prop :=
  s.clock.Disciplined ∧ M.hasPosition s.belief = true ∧ s.clock.lastUpdate ≤ now ∧
    ∀ x ∈ inbox, ∀ arrived ∈ x.2.arrivedAt, s.clock.lastUpdate ≤ arrived

instance (s : ObuRuntime M) (now : SimTime) (inbox : List (RxFrame × RxStamp)) :
    Decidable (s.CallInStep now inbox) := inferInstanceAs (Decidable (_ ∧ _))

/-- The engine runs a node with a disciplined clock: its calls come in order, each with frames that
arrived no earlier than the call before. -/
def ObuRuntime.InStep (s : ObuRuntime M) : NodeOp M → Prop
  | .step now inbox _ => s.CallInStep now inbox
  | .wake now inbox => s.CallInStep now inbox
  | .setClock clock => clock.lastUpdate = s.clock.lastUpdate
  | _ => True

instance (s : ObuRuntime M) : (op : NodeOp M) → Decidable (s.InStep op)
  | .step now inbox _ => inferInstanceAs (Decidable (s.CallInStep now inbox))
  | .wake now inbox => inferInstanceAs (Decidable (s.CallInStep now inbox))
  | .setClock clock => inferInstanceAs (Decidable (clock.lastUpdate = s.clock.lastUpdate))
  | .setState .. | .setBelief _ | .setStores .. | .setRelevance _ | .setComputeUnlimited
  | .setCpuServers _ | .setAppTaskCost _ => inferInstanceAs (Decidable True)

/-- A node in a state other than off is punctual at the end of a call. -/
lemma Turn.Punctual.receive {u now : SimTime} {s : ObuRuntime M} (h : s.Steady u)
    (hclock : s.clock.Disciplined) {inbox : List (RxFrame × RxStamp)} (hu : u ≤ now)
    (harrived : ∀ x ∈ inbox, ∀ arrived ∈ x.2.arrivedAt, u ≤ arrived)
    (hparses : Turn.parsesBy now s.parseCost { node := s } (arrivals s now inbox) = true) :
    (Turn.receive { node := s } now inbox).Punctual u now := by
  have hstart : Turn.Punctual u u { node := s } :=
    ⟨h, le_refl u, by simp, by simp, by simp⟩
  obtain ⟨u', hu', hframes⟩ := hstart.foldl_receiveFrame s.parseCost (arrivals s now inbox) hu
    hparses (pairwise_arrivals s now inbox) (fun x hx => by
      -- A frame arrives no earlier than the call before, or at the instant of this one.
      refine le_trans ?_ (s.le_parseInstant _ _)
      obtain ⟨⟨frame, stamp⟩, hmem, rfl⟩ := List.mem_map.1 ((List.mem_insertionSort _).1 hx)
      refine le_min ?_ hu
      cases hstamp : stamp.arrivedAt with
      | none => exact hu
      | some arrived =>
        change u ≤ s.clock.believedTime arrived
        rw [hclock.believedTime]
        exact harrived _ hmem arrived hstamp)
  exact hframes.catchUp hu'

lemma Turn.Punctual.of_none {u : SimTime} {t : Turn M} (h : t.node.Steady u)
    (hnone : ∀ r ∈ t.out.rxReports, r.checkedAt = none) : t.Punctual u u := by
  have hfilter : t.out.rxReports.filterMap RxReport.checkedAt = [] :=
    List.filterMap_eq_nil_iff.2 hnone
  refine ⟨h, le_refl u, fun r hr done hdone => ?_, by simp [hfilter], by simp [hfilter]⟩
  rw [hnone r hr] at hdone
  cases hdone

lemma Turn.Punctual.switchedOff {u : SimTime} {s : ObuRuntime M} (h : s.Steady u)
    (believed : SimTime) (inbox : List (RxFrame × RxStamp)) :
    (Turn.switchedOff { node := s } believed inbox).Punctual u u := by
  refine .of_none (h.congr rfl rfl (List.nil_subset _) rfl rfl (le_refl _)) fun r hr => ?_
  rcases List.mem_append.1 hr with hr | hr
  · obtain ⟨_, -, rfl⟩ := List.mem_map.1 hr
    rfl
  · obtain ⟨_, -, rfl⟩ := List.mem_map.1 hr
    rfl

lemma ObuRuntime.CallInStep.tick {s : ObuRuntime M} {now : SimTime}
    {inbox : List (RxFrame × RxStamp)} (h : s.CallInStep now inbox) :
    (s.tick now).clock = { s.clock with lastUpdate := now } ∧ (s.tick now).clock.Disciplined ∧
      (s.tick now).clock.believedTime now = now := by
  obtain ⟨hclock, hfix, -, -⟩ := h
  have htick : (s.tick now).clock = { s.clock with lastUpdate := now } := by
    change s.clock.advance now (M.hasPosition s.belief) = _
    rw [hfix, hclock.advance_eq]
  have hdisciplined : (s.tick now).clock.Disciplined := by
    rw [htick]
    exact hclock
  exact ⟨htick, hdisciplined, hdisciplined.believedTime now⟩

/-- A call in step is punctual, by its own instant. -/
lemma ObuRuntime.Steady.call {u now : SimTime} {s : ObuRuntime M} {op : NodeOp M}
    {inbox : List (RxFrame × RxStamp)} (h : s.Steady u) (hu : u ≤ s.clock.lastUpdate)
    (hop : op.call = some (now, inbox)) (hin : s.CallInStep now inbox)
    (hparses : s.parsesInTime op = true) :
    ∃ u' ≤ now, (s.perform op).node.clock.lastUpdate = now ∧ (s.perform op).Punctual u u' := by
  obtain ⟨htick, hdisciplined, hbelieved⟩ := hin.tick
  obtain ⟨-, -, hnow, harrived⟩ := hin
  have hsteady : (s.tick now).Steady u :=
    h.congr rfl rfl (List.Subset.refl _) rfl rfl (le_refl _)
  unfold ObuRuntime.parsesInTime at hparses
  simp only [hop, hbelieved, Bool.or_eq_true, beq_iff_eq] at hparses
  obtain ⟨u', hu', htake⟩ : ∃ u' ≤ now, (s.take now inbox).Punctual u u' := by
    unfold ObuRuntime.take
    dsimp only
    rw [hbelieved]
    split
    next hoff => exact ⟨u, hu.trans hnow, .switchedOff hsteady _ inbox⟩
    next hon =>
      exact ⟨now, le_refl now, .receive hsteady hdisciplined (hu.trans hnow)
        (fun x hx a ha => hu.trans (harrived x hx a ha)) (hparses.resolve_left hon)⟩
  have hquiet := s.quiet_perform hop
  refine ⟨u', hu', ?_, htake.congr ?_ hquiet.reports⟩
  · have hclock : (s.take now inbox).node.clock = (s.tick now).clock :=
      congrArg (·.2.2.1) (s.settings_take now inbox)
    rw [hquiet.clock, hclock, htick]
  · refine htake.steady.congr hquiet.items hquiet.verifyMeta ?_ ?_ ?_ (hquiet.free _)
    · rw [hquiet.verifying]
      exact List.Subset.refl _
    · unfold ObuRuntime.verifyCost
      rw [hquiet.service, hquiet.config]
    · unfold ObuRuntime.verifyRunsOn
      rw [hquiet.service, hquiet.config]

/-- Whatever the engine sets between two calls keeps the line steady. -/
lemma ObuRuntime.Steady.set {u : SimTime} {s : ObuRuntime M} {op : NodeOp M} (h : s.Steady u)
    (hop : op.call = none) : (s.perform op).node.Steady u := by
  cases op with
  | step now inbox distance => cases hop
  | wake now inbox => cases hop
  | setComputeUnlimited =>
    refine h.congr rfl rfl (List.Subset.refl _) ?_ rfl (le_refl _)
    unfold ObuRuntime.verifyCost ObuRuntime.perform ProfileServiceModel.serviceTime
    cases hcost : s.service.profile.opCost s.config.verifyOp <;>
      cases hunlimited : s.service.unlimitedTier <;>
      simp [ProfileServiceModel.unlimited, OpDescriptor.verify, hcost]
  | setCpuServers servers =>
    refine h.congr rfl rfl (List.Subset.refl _) rfl rfl ?_
    cases s.verifyRunsOn with
    | hsm => exact le_refl _
    | accelerator => exact le_refl _
    | cpu => exact (ServerBank.earliestFree_resized _ _).ge
  | _ => exact h.congr rfl rfl (List.Subset.refl _) rfl rfl (le_refl _)

lemma ObuRuntime.lastUpdate_set {s : ObuRuntime M} {op : NodeOp M} (hop : op.call = none)
    (hin : s.InStep op) : (s.perform op).node.clock.lastUpdate = s.clock.lastUpdate := by
  cases op with
  | step now inbox distance => cases hop
  | wake now inbox => cases hop
  | setClock clock => exact hin
  | _ => rfl

/-! ## Whole runs -/

/-- When the checks of the delivered frames finished, in the order of the deliveries. -/
def deliveries (outs : List (Turn M)) : List SimTime :=
  (outs.flatMap (·.out.rxReports)).filterMap RxReport.checkedAt

/-- What a call hands over has finished its journey by the instant of the call. -/
def Timely (op : NodeOp M) (t : Turn M) : Prop :=
  ∀ r ∈ t.out.rxReports, ∀ done, r.checkedAt = some done → ∀ call ∈ op.call,
    ∃ start, r.verifyStart = some start ∧ r.arrived ≤ r.parsed ∧ r.parsed ≤ start ∧ start ≤ done ∧
      done ≤ call.1

/-- A punctual turn is timely. -/
lemma Turn.Punctual.timely {lo u : SimTime} {t : Turn M} (h : t.Punctual lo u) {op : NodeOp M}
    (hu : ∀ call ∈ op.call, u ≤ call.1) : Timely op t := by
  intro r hr done hdone call hcall
  obtain ⟨harrived, hverify⟩ := h.journeys r hr done hdone
  have hdone' : r.verifyDone = some done := by
    unfold RxReport.checkedAt at hdone
    split at hdone
    · exact hdone
    · cases hdone
  obtain ⟨start, hstart, hparsed, hle⟩ := hverify done hdone'
  have hmem : done ∈ t.out.rxReports.filterMap RxReport.checkedAt :=
    List.mem_filterMap.2 ⟨r, hr, hdone⟩
  exact ⟨start, hstart, harrived, hparsed, hle, (h.window done hmem).2.trans (hu call hcall)⟩

/-- **No message reaches the applications before its check has finished**, over every run of a node
with a disciplined clock, whatever its profile, its compute tier and its application-task cost, in
which every frame is parsed by the instant of the call that hands it over: a delivered frame that
was checked went through arrival, parse, start and end of its check in this order and by the instant
of the call that returns it, and over all calls the deliveries come in the order the checks
finished.

**Proof sketch.** The verifier is advanced to instants that never go back: a frame is parsed no
earlier than the one before it, and, being parsed in time, no later than its call. At each of these
instants everything that has finished is handed over in order, and everything else finishes later,
since the frames wait in the order they were parsed and the servers only get busier. -/
theorem delivered_in_order (node : ℕ) (profile : HardwareProfile) (policy : M.Policy)
    (config : NodeConfig) (at_ : SimTime) {ops : List (NodeOp M)} {outs : List (Turn M)}
    {s : ObuRuntime M}
    (hsteps : (nodeMachine (ObuRuntime.new node profile policy config at_)).StepsIf
      (fun s op => s.InStep op ∧ s.parsesInTime op = true)
      (ObuRuntime.new node profile policy config at_) ops outs s) :
    (∀ x ∈ ops.zip outs, Timely x.1 x.2) ∧ (deliveries outs).Pairwise (· ≤ ·) := by
  have hinv := hsteps.induction (Q := fun ops outs s => ops.length = outs.length ∧
    (∀ x ∈ ops.zip outs, Timely x.1 x.2) ∧ (deliveries outs).Pairwise (· ≤ ·) ∧
    ∃ u ≤ s.clock.lastUpdate, s.Steady u ∧ ∀ done ∈ deliveries outs, done ≤ u)
    ⟨rfl, by simp, by simp [deliveries], 0, Nat.zero_le _, ⟨rfl, by simp [ObuRuntime.new],
      by simp [ObuRuntime.new], by simp [ObuRuntime.new], by simp [ObuRuntime.new],
      by simp [ObuRuntime.new]⟩, by simp [deliveries]⟩ ?_
  · exact ⟨hinv.2.1, hinv.2.2.1⟩
  rintro ops outs s op t s' - ⟨hlen, htimely, horder, u, hu, hsteady, hbound⟩ ⟨hin, hparses⟩ hstep
  cases hstep
  -- The turn is punctual from `u` to an instant no later than its call.
  obtain ⟨u', hu', hpunctual, hcall⟩ : ∃ u' ≤ (s.perform op).node.clock.lastUpdate,
      (s.perform op).Punctual u u' ∧ ∀ call ∈ op.call, u' ≤ call.1 := by
    cases hop : op.call with
    | none =>
      refine ⟨u, (s.lastUpdate_set hop hin).symm ▸ hu, .of_none (hsteady.set hop) ?_, by simp⟩
      rw [(s.perform_of_not_call hop).1]
      simp
    | some call =>
      obtain ⟨now, inbox⟩ := call
      have hin' : s.CallInStep now inbox := by
        cases op <;> cases hop <;> exact hin
      obtain ⟨u', hle, hlast, hp⟩ := hsteady.call hu hop hin' hparses
      refine ⟨u', hlast ▸ hle, hp, fun call hmem => ?_⟩
      cases hmem
      exact hle
  have hdeliveries : deliveries (outs ++ [s.perform op]) =
      deliveries outs ++ (s.perform op).out.rxReports.filterMap RxReport.checkedAt := by
    simp [deliveries]
  refine ⟨by simp [hlen], ?_, ?_, u', hu', hpunctual.steady, ?_⟩
  · intro x hx
    rw [List.zip_append hlen] at hx
    rcases List.mem_append.1 hx with hx | hx
    · exact htimely x hx
    · obtain rfl := List.mem_singleton.1 hx
      exact hpunctual.timely hcall
  · rw [hdeliveries, List.pairwise_append]
    refine ⟨horder, hpunctual.order, fun a ha b hb => ?_⟩
    exact (hbound a ha).trans (hpunctual.window b hb).1
  · intro done hdone
    rw [hdeliveries] at hdone
    rcases List.mem_append.1 hdone with hdone | hdone
    · exact (hbound done hdone).trans hpunctual.lo_le
    · exact (hpunctual.window done hdone).2

/-- Two frames in one wake-up, the second one while the first is being parsed: without a parse cost
both are checked and delivered in order. -/
theorem delivered_in_order_two : ∃ outs : List (Turn bareModels), deliveries outs =
      [1400000, 1800000] ∧ (deliveries outs).Pairwise (· ≤ ·) := by
  let ops : List (NodeOp bareModels) := [.setBelief true,
    .wake 1200000 [(bareFrame, ⟨1, some 1000000⟩), (bareFrame, ⟨2, some 1100000⟩)],
    .wake 1400000 [], .wake 1800000 []]
  obtain ⟨outs, s, hsteps, hp⟩ := Machine.exists_stepsIf
    (m := nodeMachine (ObuRuntime.new (M := bareModels) 0 bareProfile () {} 0))
    (f := fun s op => decide (s.InStep op ∧ s.parsesInTime op = true))
    (G := fun s op => s.InStep op ∧ s.parsesInTime op = true)
    (fun _ _ h => of_decide_eq_true h) (l := ops)
    (s := ObuRuntime.new (M := bareModels) 0 bareProfile () {} 0)
    (p := fun x => decide (deliveries x.1 = [1400000, 1800000])) (by decide +kernel)
  exact ⟨outs, of_decide_eq_true hp,
    (delivered_in_order (M := bareModels) 0 bareProfile () {} 0 hsteps).2⟩

lemma not_timely {ops : List (NodeOp M)} {outs : List (Turn M)}
    (h : ((ops.zip outs).any fun x => x.2.out.rxReports.any fun r => r.checkedAt.any fun done =>
      x.1.call.any fun call => call.1 < done) = true) : ¬ ∀ x ∈ ops.zip outs, Timely x.1 x.2 := by
  intro htimely
  obtain ⟨x, hx, h⟩ := List.any_eq_true.1 h
  obtain ⟨r, hr, h⟩ := List.any_eq_true.1 h
  obtain ⟨done, hdone, h⟩ := (Option.any_eq_true _ _).1 h
  obtain ⟨call, hcall, h⟩ := (Option.any_eq_true _ _).1 h
  obtain ⟨start, -, -, -, -, hle⟩ := htimely x hx r hr done hdone call hcall
  exact absurd hle (not_le.2 (of_decide_eq_true h))

/-- With a parse of a millisecond the same wake-up parses the second frame at 3 milliseconds, takes
the verifier along, and delivers the first frame, whose check ends at 2.4 milliseconds, in a call at
1.2 milliseconds. -/
theorem delivered_early : ∃ (ops : List (NodeOp bareModels)) (outs : List (Turn bareModels))
    (s : ObuRuntime bareModels),
    (nodeMachine (ObuRuntime.new (M := bareModels) 0 bareProfile () {} 0)).StepsIf
      (fun s op => s.InStep op) (ObuRuntime.new (M := bareModels) 0 bareProfile () {} 0) ops outs s ∧
    ¬ ∀ x ∈ ops.zip outs, Timely x.1 x.2 := by
  let ops : List (NodeOp bareModels) := [.setBelief true, .setAppTaskCost ⟨1000000⟩,
    .wake 1200000 [(bareFrame, ⟨1, some 1000000⟩), (bareFrame, ⟨2, some 1100000⟩)]]
  obtain ⟨outs, s, hsteps, hp⟩ := Machine.exists_stepsIf
    (m := nodeMachine (ObuRuntime.new (M := bareModels) 0 bareProfile () {} 0))
    (f := fun s op => decide (s.InStep op)) (G := fun s op => s.InStep op)
    (fun _ _ h => of_decide_eq_true h) (l := ops)
    (s := ObuRuntime.new (M := bareModels) 0 bareProfile () {} 0)
    (p := fun x => (ops.zip x.1).any fun y => y.2.out.rxReports.any fun r => r.checkedAt.any
      fun done => y.1.call.any fun call => call.1 < done) (by decide +kernel)
  exact ⟨ops, outs, s, hsteps, not_timely hp⟩

end V2xw.Node
