import V2xw.Node.Fate
import V2xw.Node.Punctual

/-!
# Switched-off nodes

A node that is switched off reports the checks in progress and everything it is handed, but leaves
its verification queue alone. So it does no work and holds nothing back as long as nothing waits
when it is switched off; a frame that does wait stays unreported, and its check may start, by the
node's own clock, while the node was off.

## Main definitions

* `Turn.Starts` — where the checks of a call have started.
* `Watch`, `watchedMachine` — a node together with the intervals in which it was
  off.
* `Idle` — what a switched-off node must not do.

## Main results

* `Turn.Starts.receive` — a call starts checks between two instants only.
* `idle_when_off` — over whole runs.
* `works_when_off` — a run that switches a node off while a frame waits.
-/

namespace V2xw.Node

open Core
open Record (F64)

variable {M : NodeModels}

/-! ## Where checks start -/

namespace Turn

/-- Every check that has started did so at an instant in `P`, and no frame waits that was queued
before `lo`. -/
structure Starts (P : SimTime → Prop) (lo : SimTime) (t : Turn M) : Prop where
  waiting : ∀ q ∈ t.node.verifyQueue.items, lo ≤ q.enqueuedAt
  running : ∀ r ∈ t.node.verifying.entries, ∀ x ∈ r.check.report.verifyStart, P x
  reports : ∀ r ∈ t.out.rxReports, ∀ x ∈ r.verifyStart, P x
  records : ∀ r ∈ t.emitted, ∀ x ∈ r.tStart, P x

variable {P : SimTime → Prop} {lo hi : SimTime} {t t' : Turn M}

lemma Starts.congr (h : t.Starts P lo)
    (hitems : t'.node.verifyQueue.items ⊆ t.node.verifyQueue.items)
    (hverifying : t'.node.verifying.entries ⊆ t.node.verifying.entries)
    (hreports : t'.out.rxReports ⊆ t.out.rxReports) (hemitted : t'.emitted ⊆ t.emitted) :
    t'.Starts P lo :=
  ⟨fun q hq => h.waiting q (hitems hq), fun r hr => h.running r (hverifying hr),
    fun r hr => h.reports r (hreports hr), fun r hr => h.records r (hemitted hr)⟩

lemma Starts.report (h : t.Starts P lo) {r : RxReport} (hr : ∀ x ∈ r.verifyStart, P x) :
    (t.report r).Starts P lo := by
  refine ⟨h.waiting, h.running, fun r' hr' => ?_, h.records⟩
  rcases List.mem_append.1 hr' with hr' | hr'
  · exact h.reports r' hr'
  · obtain rfl := List.mem_singleton.1 hr'
    exact hr

lemma Starts.emit (h : t.Starts P lo) {r : VerifyDecisionRecord} (hr : ∀ x ∈ r.tStart, P x) :
    (t.emit r).Starts P lo := by
  refine ⟨h.waiting, h.running, h.reports, fun r' hr' => ?_⟩
  rcases List.mem_append.1 hr' with hr' | hr'
  · exact h.records r' hr'
  · obtain rfl := List.mem_singleton.1 hr'
    exact hr

/-- A check starts no earlier than its frame was queued, and no later than the verifier has been
advanced to. -/
lemma Starts.startNext {until_ : SimTime} {cost : Duration}
    (hcost : t.node.verifyCost = some cost) (h : t.Starts P lo)
    (hP : ∀ x, lo ≤ x → x ≤ until_ → P x) (hstep : t.startNext until_ = some t') :
    t'.Starts P lo := by
  obtain ⟨q, queue, hq, rfl⟩ := startNext_eq_some hcost hstep
  obtain ⟨hitems, hqueued, hfree⟩ := startable_eq_some hq
  have hstart : P (max q.enqueuedAt (t.node.bank t.node.verifyRunsOn).earliestFree) := by
    refine hP _ (le_max_of_le_left ?_) (max_le hqueued hfree)
    exact h.waiting q (hitems ▸ List.mem_cons_self)
  refine ⟨fun v hv => h.waiting v (hitems ▸ List.mem_cons_of_mem _ hv), fun r hr => ?_, h.reports,
    fun r hr => ?_⟩
  · rcases (List.mem_orderedInsert _).1 hr with rfl | hr
    · rintro x ⟨⟩
      exact hstart
    · exact h.running r hr
  · rcases List.mem_append.1 hr with hr | hr
    · exact h.records r hr
    · obtain rfl := List.mem_singleton.1 hr
      rintro x ⟨⟩
      exact hstart

lemma Starts.handNext {until_ : SimTime} (h : t.Starts P lo)
    (hstep : t.handNext until_ = some t') : t'.Starts P lo := by
  obtain ⟨r, rest, hentries, -, rfl⟩ := handNext_eq_some hstep
  refine Starts.report ?_ (h.running r (hentries ▸ List.mem_cons_self))
  exact h.congr (List.Subset.refl _) (List.tail_subset _) (List.Subset.refl _)
    (List.Subset.refl _)

/-- Catching up starts checks up to the instant it catches up to. -/
lemma Starts.catchUp {until_ : SimTime} (h : t.Starts P lo)
    (hP : ∀ x, lo ≤ x → x ≤ until_ → P x) : (t.catchUp until_).Starts P lo := by
  have hstarted : (t.advanceVerifications until_).Starts P lo := by
    unfold advanceVerifications
    split
    next => exact h
    next cost hcost =>
      exact ((startLoop until_).run_induction
        (P := fun s => s.node.verifyCost = some cost ∧ s.Starts P lo)
        (fun s s' hstep hs =>
          ⟨(verifyCost_startNext hstep).trans hs.1, hs.2.startNext hs.1 hP hstep⟩)
        ⟨hcost, h⟩).2
  exact (handLoop until_).run_induction (P := fun s => s.Starts P lo)
    (fun _ _ hstep hs => hs.handNext hstep) hstarted

lemma Starts.overflow (h : t.Starts P lo) (refused : Queued RxFrame) (w : Waiting) :
    (t.overflow refused w).Starts P lo := by
  unfold Turn.overflow
  refine Starts.report (Starts.emit ?_ ?_) ?_
  · exact h.congr (List.Subset.refl _) (List.Subset.refl _) (List.Subset.refl _)
      (List.Subset.refl _)
  · rintro x ⟨⟩
  · rintro x ⟨⟩

/-- A frame that is offered to the line was queued when it was parsed. -/
lemma Starts.enqueue (h : t.Starts P lo) (frame : RxFrame) (stamp : RxStamp)
    {arrived parsed : SimTime} (hparsed : lo ≤ parsed) :
    (t.enqueue frame stamp arrived parsed).Starts P lo := by
  have hoffer := offered_offer t.node ⟨frame, parsed⟩
  have hqueued (v : Queued RxFrame) (hv : v ∈ t.node.verifyQueue.items ++ [⟨frame, parsed⟩]) :
      lo ≤ v.enqueuedAt := by
    rcases List.mem_append.1 hv with hv | hv
    · exact h.waiting v hv
    · obtain rfl := List.mem_singleton.1 hv
      exact hparsed
  -- Whatever becomes of the offer, the frames in the line were there or have just been parsed.
  have hline : ∀ q ∈ (offer t.node ⟨frame, parsed⟩).2.items, lo ≤ q.enqueuedAt := by
    intro q hq
    generalize (offer t.node ⟨frame, parsed⟩).2.items = items' at hoffer hq
    generalize (offer t.node ⟨frame, parsed⟩).1 = admitted at hoffer
    cases hoffer with
    | queued => exact hqueued q hq
    | refused => exact h.waiting q hq
    | @evicted old rest hitems =>
      refine hqueued q ?_
      rw [hitems]
      exact List.mem_cons_of_mem _ hq
  unfold Turn.enqueue
  dsimp only
  generalize (offer t.node ⟨frame, parsed⟩).2 = queue at hline
  have hoffered : Starts P lo { t with node := { t.node with verifyQueue := queue } } :=
    ⟨hline, h.running, h.reports, h.records⟩
  cases (offer t.node ⟨frame, parsed⟩).1 with
  | queued => exact ⟨hline, h.running, h.reports, h.records⟩
  | refused refused => exact hoffered.overflow refused _
  | evicted evicted =>
    unfold admitFrame
    dsimp only
    split
    next old rest _ =>
      have hleft : Starts P lo { t with node := { t.node with
          verifyQueue := queue, verifyMeta := rest } } :=
        ⟨hline, h.running, h.reports, h.records⟩
      exact (hleft.overflow evicted old).congr (List.Subset.refl _) (List.Subset.refl _)
        (List.Subset.refl _) (List.Subset.refl _)
    next => exact ⟨hline, h.running, h.reports, h.records⟩

/-- Every decision of the policy is made without starting a check. -/
lemma Starts.police (h : t.Starts P lo) (frame : RxFrame) (stamp : RxStamp)
    {arrived parsed : SimTime} (hparsed : lo ≤ parsed) :
    (t.police frame stamp arrived parsed).Starts P lo := by
  have hasked : (t.consult frame arrived parsed).2.Starts P lo := by
    obtain ⟨stores, hstores⟩ := t.node.learnOrRequest_eq frame
    have hnode (policy : M.Policy) :
        Starts P lo { t with node := { t.node with stores := stores, policy := policy } } :=
      ⟨h.waiting, h.running, h.reports, h.records⟩
    unfold consult
    rw [hstores]
    dsimp only
    split
    next record hrecord =>
      refine (hnode _).emit ?_
      -- A decision that is recorded at once starts no check.
      unfold VerifyDecisionRecord.decided at hrecord
      split at hrecord
      all_goals
        cases hrecord
        try rintro x ⟨⟩
    next => exact hnode _
  unfold Turn.police
  dsimp only
  generalize (t.consult frame arrived parsed).2 = t' at hasked
  cases (t.consult frame arrived parsed).1 with
  | verify priority reason => exact hasked.enqueue frame stamp hparsed
  | deliverUnverified reason =>
    refine Starts.report ?_ (by rintro x ⟨⟩)
    exact ⟨hasked.waiting, hasked.running, hasked.reports, hasked.records⟩
  | drop cause =>
    refine Starts.report ?_ (by rintro x ⟨⟩)
    exact ⟨hasked.waiting, hasked.running, hasked.reports, hasked.records⟩

/-- A frame that is parsed between two instants starts checks between them. -/
lemma Starts.receiveFrame (h : t.Starts P lo) (hP : ∀ x, lo ≤ x → x ≤ hi → P x)
    (cost : Option Duration) (x : RxFrame × RxStamp × SimTime) (harrived : lo ≤ x.2.2)
    (hparsed : (t.node.parse cost x.2.2).1.all (· ≤ hi) = true) :
    (t.receiveFrame cost x).Starts P lo := by
  obtain ⟨frame, stamp, arrived⟩ := x
  have hnext (s : ObuRuntime M) (parsed : SimTime) (hlo : lo ≤ parsed) (hhi : parsed ≤ hi)
      (hs : Starts P lo { t with node := s }) :
      ((Turn.catchUp parsed { t with node := s }).police frame stamp arrived parsed).Starts P lo :=
    (hs.catchUp fun x hx hle => hP x hx (hle.trans hhi)).police frame stamp hlo
  unfold Turn.receiveFrame
  dsimp only at harrived hparsed ⊢
  rcases t.node.parse_cases cost arrived with ⟨rfl, hparse⟩ | ⟨starts, hparse⟩ |
    ⟨c, starts, rfl, hparse⟩
  · rw [hparse] at hparsed ⊢
    exact hnext _ _ harrived (of_decide_eq_true hparsed)
      ⟨h.waiting, h.running, h.reports, h.records⟩
  · rw [hparse]
    refine Starts.report ?_ (by rintro x ⟨⟩)
    exact ⟨h.waiting, h.running, h.reports, h.records⟩
  · rw [hparse] at hparsed ⊢
    have hle : arrived ≤ (t.node.cpu.submit arrived c).1.finish :=
      (ServerBank.arrival_le_start _ _ _).trans (ServerBank.start_le_finish _ _ _)
    exact hnext _ _ (harrived.trans hle) (of_decide_eq_true hparsed)
      ⟨h.waiting, h.running, h.reports, h.records⟩

lemma Starts.foldl_receiveFrame (hP : ∀ x, lo ≤ x → x ≤ hi → P x) (cost : Option Duration)
    (frames : List (RxFrame × RxStamp × SimTime)) : ∀ {t : Turn M}, t.Starts P lo →
      (∀ x ∈ frames, lo ≤ x.2.2) → t.parsesBy hi cost frames = true →
      (frames.foldl (Turn.receiveFrame cost) t).Starts P lo := by
  induction frames with
  | nil => exact fun h _ _ => h
  | cons x frames ih =>
    intro t h harrived hparses
    obtain ⟨hx, hrest⟩ := Bool.and_eq_true_iff.1 hparses
    refine ih (h.receiveFrame hP cost x (harrived x List.mem_cons_self) hx) ?_ hrest
    exact fun y hy => harrived y (List.mem_cons_of_mem _ hy)

/-- **A call** at `hi` whose frames arrived after `lo` and are parsed in time starts checks between
the two instants only. -/
theorem Starts.receive (h : t.Starts P lo) (hP : ∀ x, lo ≤ x → x ≤ hi → P x) (hle : lo ≤ hi)
    {inbox : List (RxFrame × RxStamp)}
    (harrived : ∀ x ∈ inbox, ∀ a ∈ x.2.arrivedAt, lo ≤ t.node.clock.believedTime a)
    (hparses : t.parsesBy hi t.node.parseCost (arrivals t.node hi inbox) = true) :
    (t.receive hi inbox).Starts P lo := by
  refine (Starts.foldl_receiveFrame hP t.node.parseCost (arrivals t.node hi inbox) h
    (fun x hx => ?_) hparses).catchUp hP
  obtain ⟨⟨frame, stamp⟩, hmem, rfl⟩ := List.mem_map.1 ((List.mem_insertionSort _).1 hx)
  refine le_min ?_ hle
  cases hstamp : stamp.arrivedAt with
  | none => exact hle
  | some a => exact harrived _ hmem a hstamp

lemma Starts.switchedOff (h : t.Starts P lo) (believed : SimTime)
    (inbox : List (RxFrame × RxStamp)) : (t.switchedOff believed inbox).Starts P lo := by
  refine ⟨h.waiting, by simp [Turn.switchedOff], fun r hr => ?_, h.records⟩
  rcases List.mem_append.1 hr with hr | hr
  · rcases List.mem_append.1 hr with hr | hr
    · exact h.reports r hr
    · obtain ⟨r', hr', rfl⟩ := List.mem_map.1 hr
      exact h.running r' hr'
  · obtain ⟨_, -, rfl⟩ := List.mem_map.1 hr
    rintro x ⟨⟩

lemma Starts.quiet (h : t.Starts P lo) (hquiet : Quiet t t') : t'.Starts P lo :=
  ⟨by rw [hquiet.items]; exact h.waiting, by rw [hquiet.verifying]; exact h.running,
    by rw [hquiet.reports]; exact h.reports, by rw [hquiet.emitted]; exact h.records⟩

end Turn

/-! ## On and off -/

/-- What is remembered of a run: when the node was switched on and off, by its own clock. -/
structure Watch where
  /-- The last instant an operation took place at. -/
  last : SimTime := 0
  /-- When the node was last switched on. -/
  onSince : SimTime := 0
  /-- When the node was switched off, if it is off. -/
  offSince : Option SimTime := none
  /-- The intervals in which it was off before. -/
  offs : List (SimTime × SimTime) := []
  deriving DecidableEq, Repr

/-- Whether an instant lies inside an interval in which the node was off. -/
def Watch.Off (w : Watch) (x : SimTime) : Prop :=
  (∃ off ∈ w.offs, off.1 < x ∧ x < off.2) ∨ ∃ since ∈ w.offSince, since < x

instance (w : Watch) (x : SimTime) : Decidable (w.Off x) := inferInstanceAs (Decidable (_ ∨ _))

/-- The instant of an operation on the node's own clock. -/
def ObuRuntime.instant (s : ObuRuntime M) : NodeOp M → Option SimTime
  | .step now .. | .wake now _ => some ((s.tick now).clock.believedTime now)
  | .setState now _ => some (s.clock.believedTime now)
  | _ => none

/-- Switches the watch over to a state, at the instant it last saw. -/
def Watch.switch (w : Watch) (state : NodeState) : Watch :=
  match w.offSince with
  | none => if state = .off then { w with offSince := some w.last } else w
  | some since =>
    if state = .off then w
    else { w with offSince := none, onSince := w.last, offs := (since, w.last) :: w.offs }

/-- What the watch makes of an operation. -/
def Watch.note (w : Watch) (s : ObuRuntime M) (op : NodeOp M) : Watch :=
  let w := { w with last := (s.instant op).getD w.last }
  match op with
  | .setState _ state => w.switch state
  | _ => w

/-- A node and the watch over it. -/
structure Watched (M : NodeModels) where
  node : ObuRuntime M
  watch : Watch := {}

/-- A node under watch, as the engine runs it. -/
def watchedMachine (s : ObuRuntime M) : Machine (Watched M) (NodeOp M) (Turn M) Empty where
  init := { node := s }
  step x op := .ok (x.node.perform op, ⟨(x.node.perform op).node, x.watch.note x.node op⟩)

lemma Watched.steps_node {s₀ : ObuRuntime M} {x y : Watched M} {ops : List (NodeOp M)}
    {outs : Outcomes M} (h : (watchedMachine s₀).Steps x ops outs y) :
    (nodeMachine s₀).Steps x.node ops outs y.node := by
  induction h with
  | nil x => exact .nil _
  | cons hop _ ih =>
    cases hop
    exact .cons rfl ih

/-- The verification records of a run. -/
def Outcomes.records (outs : Outcomes M) : List VerifyDecisionRecord := outs.flatMap (·.emitted)

/-- A switched-off node does no work and holds nothing back: after a call that finds it off no frame
waits and every token handed in has been reported, and no check started while the node was off. -/
structure Idle (ops : List (NodeOp M)) (outs : Outcomes M) (x : Watched M) : Prop where
  nothingHeld : x.node.state = .off → (ops.getLast?.bind NodeOp.call).isSome →
    x.node.verifyQueue.items = [] ∧
      ((handedIn ops).map (·.2)).Perm (outs.reports.map (·.token))
  reports : ∀ r ∈ outs.reports, ∀ start ∈ r.verifyStart, ¬ x.watch.Off start
  records : ∀ r ∈ outs.records, ∀ start ∈ r.tStart, ¬ x.watch.Off start

/-- The engine drives a node in the order of the node's own clock, and what it hands to a node that
is on arrived since the node was switched on and is parsed by the instant of the call. -/
def Watched.InOrder (x : Watched M) (op : NodeOp M) : Prop :=
  (∀ now ∈ x.node.instant op, x.watch.last ≤ now) ∧
  (x.node.state ≠ .off → x.node.parsesInTime op = true ∧ ∀ call ∈ op.call, ∀ f ∈ call.2,
    ∀ a ∈ f.2.arrivedAt, x.watch.onSince ≤ (x.node.tick call.1).clock.believedTime a)

instance (x : Watched M) (op : NodeOp M) : Decidable (x.InOrder op) :=
  inferInstanceAs (Decidable (_ ∧ _))

/-- A node that is switched off has no frame waiting. -/
def Watched.SwitchesOffEmpty (x : Watched M) : NodeOp M → Prop
  | .setState _ state => state = .off → x.node.verifyQueue.items = []
  | _ => True

instance (x : Watched M) : (op : NodeOp M) → Decidable (x.SwitchesOffEmpty op)
  | .setState _ state => inferInstanceAs (Decidable (state = .off → _))
  | .step .. | .wake .. | .setBelief _ | .setClock _ | .setStores .. | .setRelevance _
  | .setComputeUnlimited | .setCpuServers _ | .setAppTaskCost _ =>
    inferInstanceAs (Decidable True)

/-! ## Whole runs -/

/-- An instant at which a check may have started: the node was on, and the watch has seen it. -/
def Watch.Allows (w : Watch) (x : SimTime) : Prop :=
  (∀ off ∈ w.offs, x ≤ off.1 ∨ off.2 ≤ x) ∧ x ≤ w.offSince.getD w.last

lemma Watch.Allows.not_off {w : Watch} {x : SimTime} (h : w.Allows x) : ¬ w.Off x := by
  rintro (⟨off, hoff, hafter, hbefore⟩ | ⟨since, hsince, hafter⟩)
  · rcases h.1 off hoff with hle | hle
    · exact absurd hafter (not_lt.2 hle)
    · exact absurd hbefore (not_lt.2 hle)
  · have hle := h.2
    rw [Option.mem_def.1 hsince, Option.getD_some] at hle
    exact absurd hafter (not_lt.2 hle)

/-- The intervals of a watch follow each other, the last one up to when the node was switched on. -/
structure Watch.Ordered (w : Watch) : Prop where
  closed : ∀ off ∈ w.offs, off.2 ≤ w.onSince
  on : w.onSince ≤ w.last
  off : ∀ since ∈ w.offSince, since ≤ w.last

lemma Watch.Ordered.later {w : Watch} (h : w.Ordered) {now : SimTime} (hnow : w.last ≤ now) :
    Watch.Ordered { w with last := now } :=
  ⟨h.closed, h.on.trans hnow, fun since hsince => (h.off since hsince).trans hnow⟩

lemma Watch.Allows.later {w : Watch} {x now : SimTime} (h : w.Allows x) (hnow : w.last ≤ now) :
    Watch.Allows { w with last := now } x := by
  refine ⟨h.1, h.2.trans ?_⟩
  cases w.offSince with
  | none => exact hnow
  | some since => exact le_refl _

/-- Switching over keeps the intervals in order. -/
lemma Watch.Ordered.switch {w : Watch} (h : w.Ordered) (state : NodeState) :
    (w.switch state).Ordered := by
  unfold Watch.switch
  split
  next hon =>
    split
    · exact ⟨h.closed, h.on, by rintro since ⟨⟩; exact le_refl _⟩
    · exact h
  next since hoff =>
    split
    · exact h
    · refine ⟨fun off hmem => ?_, le_refl _, by rintro _ ⟨⟩⟩
      rcases List.mem_cons.1 hmem with rfl | hmem
      · exact le_refl _
      · exact (h.closed off hmem).trans h.on

/-- Switching over turns no instant into one at which the node was off. -/
lemma Watch.Allows.switch {w : Watch} {x : SimTime} (h : w.Allows x) (hw : w.Ordered)
    (state : NodeState) : (w.switch state).Allows x := by
  obtain ⟨hoffs, hlast⟩ := h
  unfold Watch.switch
  split
  next hon =>
    rw [hon, Option.getD_none] at hlast
    split
    · exact ⟨hoffs, hlast⟩
    · exact ⟨hoffs, by rw [hon]; exact hlast⟩
  next since hoff =>
    split
    · exact ⟨hoffs, hlast⟩
    · rw [hoff, Option.getD_some] at hlast
      refine ⟨fun off hmem => ?_, hlast.trans (hw.off since hoff)⟩
      rcases List.mem_cons.1 hmem with rfl | hmem
      · exact .inl hlast
      · exact hoffs off hmem

/-- The watch of a run over a node, and the line and the checks of that node. -/
structure Watched.Inv (x : Watched M) : Prop where
  ordered : x.watch.Ordered
  state : x.node.state = .off ↔ x.watch.offSince.isSome
  empty : x.node.state = .off → x.node.verifyQueue.items = []
  waiting : ∀ q ∈ x.node.verifyQueue.items, x.watch.onSince ≤ q.enqueuedAt
  running : ∀ r ∈ x.node.verifying.entries, ∀ start ∈ r.check.report.verifyStart,
    x.watch.Allows start

lemma Watched.Inv.starts {x : Watched M} (h : x.Inv) {w : Watch} {s : ObuRuntime M}
    (hitems : s.verifyQueue.items = x.node.verifyQueue.items)
    (hverifying : s.verifying = x.node.verifying)
    (hw : ∀ start, x.watch.Allows start → w.Allows start) :
    Turn.Starts w.Allows x.watch.onSince { node := s } := by
  refine ⟨hitems ▸ h.waiting, fun r hr start hstart => ?_, by simp, by simp⟩
  exact hw start (h.running r (hverifying ▸ hr) start hstart)

/-- A call: what it starts lies between the instant the node was switched on and its own. -/
lemma Watched.Inv.call {x : Watched M} (h : x.Inv) {op : NodeOp M} {now : SimTime}
    {inbox : List (RxFrame × RxStamp)} (hop : op.call = some (now, inbox)) (hin : x.InOrder op) :
    let believed := (x.node.tick now).clock.believedTime now
    Watched.Inv ⟨(x.node.perform op).node, { x.watch with last := believed }⟩ ∧
      Turn.Starts (Watch.Allows { x.watch with last := believed }) x.watch.onSince
        (x.node.perform op) := by
  intro believed
  have hnow : x.watch.last ≤ believed := by
    cases op <;> cases hop <;> exact hin.1 _ rfl
  have hstart := h.starts (s := x.node.tick now) (w := { x.watch with last := believed }) rfl rfl
    fun start hs => hs.later hnow
  have hquiet := x.node.quiet_perform hop
  have hsettings := x.node.settings_take now inbox
  have hstate : (x.node.perform op).node.state = x.node.state := by
    rw [hquiet.state]
    exact congrArg (·.2.2.2.2) hsettings
  obtain ⟨hstarts, hitems⟩ : Turn.Starts (Watch.Allows { x.watch with last := believed })
      x.watch.onSince (x.node.take now inbox) ∧
      (x.node.state = .off → (x.node.take now inbox).node.verifyQueue.items = []) := by
    unfold ObuRuntime.take
    dsimp only
    split
    next hoff => exact ⟨hstart.switchedOff _ inbox, fun hoff => h.empty hoff⟩
    next hon =>
      obtain ⟨hparses, harrived⟩ := hin.2 hon
      have honSince : x.watch.offSince = none := by
        rw [← Option.not_isSome_iff_eq_none, ← h.state]
        exact hon
      have hparses' : Turn.parsesBy believed (x.node.tick now).parseCost
          { node := x.node.tick now } (Turn.arrivals (x.node.tick now) believed inbox) = true := by
        unfold ObuRuntime.parsesInTime at hparses
        simp only [hop, Bool.or_eq_true, beq_iff_eq] at hparses
        exact hparses.resolve_left hon
      refine ⟨hstart.receive (fun start hlo hhi => ⟨fun off hoff => ?_, ?_⟩)
        (h.ordered.on.trans hnow) (fun f hf a ha => ?_) hparses', fun hoff => absurd hoff hon⟩
      · exact .inr ((h.ordered.closed off hoff).trans hlo)
      · rw [honSince]
        exact hhi
      · exact harrived (now, inbox) hop f hf a ha
  have hperform := hstarts.quiet hquiet
  refine ⟨⟨h.ordered.later hnow, ?_, ?_, hperform.waiting, hperform.running⟩, hperform⟩
  · rw [hstate]
    exact h.state
  · intro hoff
    rw [hquiet.items]
    exact hitems (hstate ▸ hoff)

/-- Whatever else the engine does to a node. -/
lemma Watched.Inv.set {x : Watched M} (h : x.Inv) {op : NodeOp M} (hop : op.call = none)
    (hin : x.InOrder op) (hempty : x.SwitchesOffEmpty op) :
    Watched.Inv ⟨(x.node.perform op).node, x.watch.note x.node op⟩ ∧
      ∀ start, x.watch.Allows start → (x.watch.note x.node op).Allows start := by
  cases op with
  | step now inbox distance => cases hop
  | wake now inbox => cases hop
  | setState now state =>
    have hnow : x.watch.last ≤ x.node.clock.believedTime now := hin.1 _ rfl
    set w : Watch := { x.watch with last := x.node.clock.believedTime now }
    have hnote : x.watch.note x.node (.setState now state) = w.switch state := rfl
    have hordered : w.Ordered := h.ordered.later hnow
    have hallows (start : SimTime) (hs : x.watch.Allows start) : (w.switch state).Allows start :=
      (hs.later hnow).switch hordered state
    rw [hnote]
    refine ⟨⟨hordered.switch state, ?_, hempty, ?_, fun r hr start hs => ?_⟩, hallows⟩
    · change state = .off ↔ _
      unfold Watch.switch
      split
      next hon =>
        split
        next hoff => simp [hoff]
        next hnot => simp [hnot, hon]
      next since hsince =>
        split
        next hoff => simp [hoff, hsince]
        next hnot => simp [hnot]
    · intro q hq
      -- A line in which something waits belongs to a node that was not off.
      have hon : x.watch.offSince = none := by
        rw [← Option.not_isSome_iff_eq_none, ← h.state]
        intro hoff
        change q ∈ x.node.verifyQueue.items at hq
        rw [h.empty hoff] at hq
        cases hq
      have hsame : (w.switch state).onSince = x.watch.onSince := by
        unfold Watch.switch
        rw [show w.offSince = none from hon]
        dsimp only
        split <;> rfl
      rw [hsame]
      exact h.waiting q hq
    · exact hallows start (h.running r hr start hs)
  | _ => exact ⟨⟨h.ordered, h.state, h.empty, h.waiting, h.running⟩, fun _ hs => hs⟩

lemma ObuRuntime.state_perform (s : ObuRuntime M) {op : NodeOp M} {now : SimTime}
    {inbox : List (RxFrame × RxStamp)} (h : op.call = some (now, inbox)) :
    (s.perform op).node.state = s.state := by
  rw [(s.quiet_perform h).state]
  exact congrArg (·.2.2.2.2) (s.settings_take now inbox)

lemma ObuRuntime.verifying_perform {s : ObuRuntime M} (hoff : s.state = .off) {op : NodeOp M}
    (h : op.call.isSome) : (s.perform op).node.verifying.entries = [] := by
  obtain ⟨⟨now, inbox⟩, hop⟩ := Option.isSome_iff_exists.1 h
  rw [(s.quiet_perform hop).verifying]
  unfold take
  dsimp only
  rw [if_pos (show (s.tick now).state = .off from hoff)]
  rfl

/-- With an empty line and no check running every token has been reported. -/
lemma tokens_reported {s₀ s : ObuRuntime M} {ops : List (NodeOp M)} {outs : Outcomes M}
    (hsteps : (nodeMachine s₀).Steps s₀ ops outs s)
    (hfresh : Turn.Accounts 0 { node := s₀ }) (hitems : s.verifyQueue.items = [])
    (hverifying : s.verifying.entries = []) :
    ((handedIn ops).map (·.2)).Perm (outs.reports.map (·.token)) := by
  obtain ⟨past, held, hreports, -, hhanded, fates, checked, hledger⟩ := exists_past hsteps hfresh
  obtain rfl : fates = [] := List.map_eq_nil_iff.1 hledger.reports.symm
  obtain rfl : checked = [] := by
    have hrunning : checked.map (·.2) = s.verifying.entries := hledger.running
    rw [hverifying] at hrunning
    exact List.map_eq_nil_iff.1 hrunning
  have hline : s.line = [] := by
    unfold ObuRuntime.line
    rw [hitems, List.zip_nil_left]
  have hconserved : held = 0 := by simpa [hline] using hledger.conserved
  rw [hconserved, add_zero, Multiset.coe_eq_coe] at hhanded
  have htokens := hhanded.map (·.2)
  rw [List.map_map] at htokens
  rw [hreports, List.map_map]
  exact htokens

/-- **A switched-off node does no work and holds nothing back**, over every run in which the node
has no frame waiting whenever it is switched off, and in which the engine drives it in order: after
a call that finds the node off every token handed in has been reported, and no report and no record
of the run tells of a check that started while the node was off.

**Proof sketch.** A check starts no earlier than its frame was queued, and no later than the instant
of its call. A frame is queued while the node is on, and the line is empty when it is switched off,
so the frames of a call were queued since it was switched on again. Every frame is therefore checked
within one interval in which the node is on. -/
theorem idle_when_off (node : ℕ) (profile : HardwareProfile) (policy : M.Policy)
    (config : NodeConfig) (at_ : SimTime) {ops : List (NodeOp M)} {outs : Outcomes M}
    {x : Watched M}
    (hsteps : (watchedMachine (ObuRuntime.new node profile policy config at_)).StepsIf
      (fun x op => x.InOrder op ∧ x.SwitchesOffEmpty op)
      ⟨ObuRuntime.new node profile policy config at_, {}⟩ ops outs x) :
    Idle ops outs x := by
  have hinv := hsteps.induction (Q := fun ops outs x => x.Inv ∧
    (∀ r ∈ Outcomes.reports outs, ∀ start ∈ r.verifyStart, x.watch.Allows start) ∧
    (∀ r ∈ Outcomes.records outs, ∀ start ∈ r.tStart, x.watch.Allows start) ∧
    (x.node.state = .off → (ops.getLast?.bind NodeOp.call).isSome →
      x.node.verifying.entries = []))
    ⟨⟨⟨by simp, le_refl _, by rintro _ ⟨⟩⟩, by simp [ObuRuntime.new], by simp [ObuRuntime.new],
      by simp [ObuRuntime.new], by simp [ObuRuntime.new]⟩, by simp [Outcomes.reports],
      by simp [Outcomes.records], by simp⟩ ?_
  · obtain ⟨hx, hreports, hrecords, hverifying⟩ := hinv
    have hfresh : Turn.Accounts 0 { node := ObuRuntime.new node profile policy config at_ } :=
      ⟨[], [], rfl, rfl, rfl, by simp, rfl, rfl⟩
    refine ⟨fun hoff hcall => ⟨hx.empty hoff, ?_⟩, fun r hr start hs =>
      (hreports r hr start hs).not_off, fun r hr start hs => (hrecords r hr start hs).not_off⟩
    have hnode : (nodeMachine (ObuRuntime.new node profile policy config at_)).Steps
        (ObuRuntime.new node profile policy config at_) ops outs x.node :=
      Watched.steps_node hsteps.steps
    exact tokens_reported hnode hfresh (hx.empty hoff) (hverifying hoff hcall)
  rintro ops outs x op t x' - ⟨hx, hreports, hrecords, -⟩ ⟨hin, hempty⟩ hstep
  cases hstep
  -- The reports and records of the step, and what the watch makes of the older ones.
  obtain ⟨hx', hallows, hturn⟩ : Watched.Inv ⟨(x.node.perform op).node, x.watch.note x.node op⟩ ∧
      (∀ start, x.watch.Allows start → (x.watch.note x.node op).Allows start) ∧
      (∀ r ∈ (x.node.perform op).out.rxReports, ∀ start ∈ r.verifyStart,
        (x.watch.note x.node op).Allows start) ∧
      (∀ r ∈ (x.node.perform op).emitted, ∀ start ∈ r.tStart,
        (x.watch.note x.node op).Allows start) := by
    cases hop : op.call with
    | none =>
      obtain ⟨hset, hallows⟩ := hx.set hop hin hempty
      obtain ⟨hout, hemitted⟩ := x.node.perform_of_not_call hop
      refine ⟨hset, hallows, ?_, ?_⟩
      · simp [hout]
      · simp [hemitted]
    | some call =>
      obtain ⟨now, inbox⟩ := call
      obtain ⟨hcall, hstarts⟩ := hx.call hop hin
      have hnow : x.watch.last ≤ (x.node.tick now).clock.believedTime now := by
        cases op <;> cases hop <;> exact hin.1 _ rfl
      have hnote : x.watch.note x.node op =
          { x.watch with last := (x.node.tick now).clock.believedTime now } := by
        cases op <;> cases hop <;> rfl
      rw [hnote]
      exact ⟨hcall, fun start hs => hs.later hnow, hstarts.reports, hstarts.records⟩
  refine ⟨hx', fun r hr => ?_, fun r hr => ?_, fun hoff hcall => ?_⟩
  · rw [Outcomes.reports, List.flatMap_append, List.flatMap_singleton] at hr
    rcases List.mem_append.1 hr with hr | hr
    · exact fun start hs => hallows start (hreports r hr start hs)
    · exact hturn.1 r hr
  · rw [Outcomes.records, List.flatMap_append, List.flatMap_singleton] at hr
    rcases List.mem_append.1 hr with hr | hr
    · exact fun start hs => hallows start (hrecords r hr start hs)
    · exact hturn.2 r hr
  · rw [List.getLast?_append_cons, List.getLast?_singleton, Option.bind_some] at hcall
    obtain ⟨⟨now, inbox⟩, hop⟩ := Option.isSome_iff_exists.1 hcall
    exact ObuRuntime.verifying_perform ((x.node.state_perform hop).symm.trans hoff) hcall

/-- A node that is switched off while a check is running, and switched on again: the frame of that
check is reported, and the next check starts after the node was switched on. -/
theorem idle_when_off_once : ∃ (ops : List (NodeOp bareModels)) (outs : Outcomes bareModels)
    (x : Watched bareModels), Idle ops outs x ∧ x.watch.offs = [(1100000, 2000000)] ∧
    outs.reports.map (fun r => (r.disposition, r.verifyStart)) =
      [(.nodeOff, some 1000000), (.delivered .verified, some 2500000)] := by
  let ops : List (NodeOp bareModels) := [.setBelief true,
    .wake 1000000 [(bareFrame, ⟨1, some 1000000⟩)], .setState 1100000 .off, .wake 1200000 [],
    .setState 2000000 .active, .wake 3000000 [(bareFrame, ⟨2, some 2500000⟩)]]
  obtain ⟨outs, x, hsteps, hp⟩ := Machine.exists_stepsIf
    (m := watchedMachine (ObuRuntime.new (M := bareModels) 0 bareProfile () {} 0))
    (f := fun x op => decide (x.InOrder op ∧ x.SwitchesOffEmpty op))
    (G := fun x op => x.InOrder op ∧ x.SwitchesOffEmpty op)
    (fun _ _ h => of_decide_eq_true h) (l := ops)
    (s := ⟨ObuRuntime.new (M := bareModels) 0 bareProfile () {} 0, {}⟩)
    (p := fun y => decide (y.2.watch.offs = [(1100000, 2000000)] ∧
      (Outcomes.reports y.1).map (fun r => (r.disposition, r.verifyStart)) =
        [(.nodeOff, some 1000000), (.delivered .verified, some 2500000)])) (by decide +kernel)
  exact ⟨ops, outs, x, idle_when_off (M := bareModels) 0 bareProfile () {} 0 hsteps,
    of_decide_eq_true hp⟩

/-- Two frames that arrive together, and the node is switched off while the second one waits for the
check of the first one: a wake-up that finds the node off leaves the second frame unreported, and
once the node is on again its check starts at an instant at which the node was off. -/
theorem works_when_off :
    (∃ (ops : List (NodeOp bareModels)) (outs : Outcomes bareModels) (x : Watched bareModels),
      (watchedMachine (ObuRuntime.new (M := bareModels) 0 bareProfile () {} 0)).StepsIf
        (fun x op => x.InOrder op) ⟨ObuRuntime.new (M := bareModels) 0 bareProfile () {} 0, {}⟩
        ops outs x ∧
      x.node.state = .off ∧ (ops.getLast?.bind NodeOp.call).isSome ∧
      x.node.verifyQueue.items ≠ [] ∧ ¬ Idle ops outs x) ∧
    ∃ (ops : List (NodeOp bareModels)) (outs : Outcomes bareModels) (x : Watched bareModels),
      (watchedMachine (ObuRuntime.new (M := bareModels) 0 bareProfile () {} 0)).StepsIf
        (fun x op => x.InOrder op) ⟨ObuRuntime.new (M := bareModels) 0 bareProfile () {} 0, {}⟩
        ops outs x ∧
      (∃ r ∈ outs.reports, ∃ start ∈ r.verifyStart, x.watch.Off start) ∧ ¬ Idle ops outs x := by
  let before : List (NodeOp bareModels) := [.setBelief true,
    .wake 1000000 [(bareFrame, ⟨1, some 1000000⟩), (bareFrame, ⟨2, some 1000000⟩)],
    .setState 1100000 .off, .wake 1200000 []]
  let after : List (NodeOp bareModels) := before ++ [.setState 2000000 .active, .wake 3000000 []]
  constructor
  · obtain ⟨outs, x, hsteps, hp⟩ := Machine.exists_stepsIf
      (m := watchedMachine (ObuRuntime.new (M := bareModels) 0 bareProfile () {} 0))
      (f := fun x op => decide (x.InOrder op)) (G := fun x op => x.InOrder op)
      (fun _ _ h => of_decide_eq_true h) (l := before)
      (s := ⟨ObuRuntime.new (M := bareModels) 0 bareProfile () {} 0, {}⟩)
      (p := fun y => decide (y.2.node.state = .off ∧ y.2.node.verifyQueue.items ≠ []))
      (by decide +kernel)
    obtain ⟨hoff, hne⟩ := of_decide_eq_true hp
    exact ⟨before, outs, x, hsteps, hoff, rfl, hne, fun h => hne (h.nothingHeld hoff rfl).1⟩
  · obtain ⟨outs, x, hsteps, hp⟩ := Machine.exists_stepsIf
      (m := watchedMachine (ObuRuntime.new (M := bareModels) 0 bareProfile () {} 0))
      (f := fun x op => decide (x.InOrder op)) (G := fun x op => x.InOrder op)
      (fun _ _ h => of_decide_eq_true h) (l := after)
      (s := ⟨ObuRuntime.new (M := bareModels) 0 bareProfile () {} 0, {}⟩)
      (p := fun y => decide (∃ r ∈ Outcomes.reports y.1, ∃ start ∈ r.verifyStart,
        y.2.watch.Off start)) (by decide +kernel)
    obtain ⟨r, hr, start, hstart, hoff⟩ := of_decide_eq_true hp
    exact ⟨after, outs, x, hsteps, ⟨r, hr, start, hstart, hoff⟩,
      fun h => h.reports r hr start hstart hoff⟩

end V2xw.Node
