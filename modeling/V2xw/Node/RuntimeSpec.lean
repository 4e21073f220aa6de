import V2xw.Node.Runtime

/-!
# What the functions of the reception do

One lemma for each function of the reception that says everything it can do to the node, so that no
later proof looks inside.

## Main results

* `Turn.consult_eq` — asking the policy changes the policy and the stores.
* `ObuRuntime.parse_cases` — a frame is parsed, or the receive queue is full.
* `Turn.startNext_eq_some`, `Turn.handNext_eq_some` — the passes of the two
  loops.
* `Turn.quiet_afterReceive` — what follows the reception in a periodic step leaves the
  line, the checks and the reports alone.
-/

namespace V2xw.Node

open Core
open Record (F64)

variable {M : NodeModels}

lemma ObuRuntime.learnOrRequest_eq (s : ObuRuntime M) (frame : RxFrame) :
    ∃ stores, s.learnOrRequest frame = { s with stores := stores } := by
  unfold learnOrRequest
  split
  · exact ⟨_, rfl⟩
  · split
    · exact ⟨_, rfl⟩
    · split <;> exact ⟨_, rfl⟩

/-- A frame is parsed at once when parsing has no cost; with a cost it finds the receive queue full,
or is parsed on the CPU. -/
lemma ObuRuntime.parse_cases (s : ObuRuntime M) (cost : Option Duration) (arrived : SimTime) :
    (cost = none ∧
      s.parse cost arrived = (some arrived, { s with window := s.window.messageIn })) ∨
    (∃ starts, s.parse cost arrived =
      (none, { s with
        window := s.window.messageIn
        parseStarts := starts
        drops := s.drops.record .rxOverflow })) ∨
    (∃ c starts, cost = some c ∧ s.parse cost arrived =
      (some (s.cpu.submit arrived c).1.finish, { s with
        window := s.window.messageIn
        cpu := (s.cpu.submit arrived c).2
        parseStarts := starts })) := by
  unfold parse
  cases cost with
  | none => exact .inl ⟨rfl, rfl⟩
  | some c =>
    dsimp only
    split
    · exact .inr (.inl ⟨_, rfl⟩)
    · exact .inr (.inr ⟨c, _, rfl, rfl⟩)

lemma ObuRuntime.bank_setBank (s : ObuRuntime M) (where_ r : RunsOn) (b : ServerBank) :
    (s.setBank where_ b).bank r = if where_ = r then b else s.bank r := by
  cases r <;> rfl

lemma ObuRuntime.earliestFree_le_submit (s : ObuRuntime M) (where_ r : RunsOn)
    (arrival : SimTime) (cost : Duration) :
    (s.bank r).earliestFree ≤ ((s.submit where_ arrival cost).2.bank r).earliestFree := by
  unfold submit
  rw [bank_setBank]
  split
  next h =>
    subst h
    exact ServerBank.earliestFree_le_submit _ arrival cost
  next => exact le_refl _

namespace Turn

lemma consult_eq (t : Turn M) (frame : RxFrame) (arrived parsed : SimTime) :
    ∃ stores policy emitted, (t.consult frame arrived parsed).2 =
      { t with node := { t.node with stores := stores, policy := policy }, emitted := emitted } := by
  obtain ⟨stores, hstores⟩ := t.node.learnOrRequest_eq frame
  unfold consult
  rw [hstores]
  dsimp only
  split <;> exact ⟨_, _, _, rfl⟩

lemma startNext_eq_some {until_ : SimTime} {t t' : Turn M} {cost : Duration}
    (hcost : t.node.verifyCost = some cost) (h : t.startNext until_ = some t') :
    ∃ q queue, startable until_ t.node = some (q, queue) ∧
      t' = startCheck { t with node := t.node.behind queue }
        q (t.node.verifyMeta.head?.getD ⟨0, q.enqueuedAt, q.enqueuedAt, 0⟩) cost := by
  obtain ⟨⟨q, queue⟩, hq, rfl⟩ := Option.map_eq_some_iff.1 h
  refine ⟨q, queue, hq, ?_⟩
  have hop : t.node.service.serviceTime (.verify t.node.config.verifyOp q.item.bytes) =
      some cost := hcost
  simp only [hop]

/-- Where nothing can be started, the front of the line starts later. -/
lemma startable_eq_none {until_ : SimTime} {s : ObuRuntime M} (h : startable until_ s = none)
    {q : Queued RxFrame} {rest : List (Queued RxFrame)} (hitems : s.verifyQueue.items = q :: rest) :
    until_ < max q.enqueuedAt (s.bank s.verifyRunsOn).earliestFree := by
  cases hpop : s.verifyQueue.pop with
  | none => simp [NodeQueue.pop_eq_none.1 hpop] at hitems
  | some x =>
    have hq : x.1 = q := by
      have hx := NodeQueue.pop_eq_some (a := x.1) (r := x.2) hpop
      rw [hitems, List.cons.injEq] at hx
      exact hx.1.symm
    unfold startable at h
    rw [hpop, Option.filter_eq_none_iff] at h
    have hnot := h x rfl
    rw [decide_eq_true_eq, not_le, hq] at hnot
    exact hnot

lemma handNext_eq_none {until_ : SimTime} {t : Turn M} (h : t.handNext until_ = none)
    {r : Running} {rest : List Running} (hentries : t.node.verifying.entries = r :: rest) :
    until_ < r.finish := by
  unfold handNext at h
  rw [hentries] at h
  by_contra hle
  simp only [gt_iff_lt, hle, if_false, reduceCtorEq] at h

lemma handNext_eq_some {until_ : SimTime} {t t' : Turn M} (h : t.handNext until_ = some t') :
    ∃ r rest, t.node.verifying.entries = r :: rest ∧ r.finish ≤ until_ ∧
      t' = (deliver { t with node := { t.node with verifying := t.node.verifying.tail } }
        r.check.message).report r.check.report := by
  unfold handNext at h
  split at h
  next => cases h
  next r rest hr =>
    split_ifs at h with hle
    cases h
    exact ⟨r, rest, hr, not_lt.1 hle, rfl⟩

lemma verifyCost_startNext {until_ : SimTime} {t t' : Turn M} (h : t.startNext until_ = some t') :
    t'.node.verifyCost = t.node.verifyCost := by
  obtain ⟨⟨q, queue⟩, -, rfl⟩ := Option.map_eq_some_iff.1 h
  dsimp only
  split <;> rfl

lemma out_startNext {until_ : SimTime} {t t' : Turn M} (h : t.startNext until_ = some t') :
    t'.out = t.out := by
  obtain ⟨⟨q, queue⟩, -, rfl⟩ := Option.map_eq_some_iff.1 h
  dsimp only
  split <;> rfl

/-! ## The banks -/

lemma earliestFree_startNext {until_ : SimTime} {t t' : Turn M}
    (h : t.startNext until_ = some t') (r : RunsOn) :
    (t.node.bank r).earliestFree ≤ (t'.node.bank r).earliestFree := by
  obtain ⟨⟨q, queue⟩, -, rfl⟩ := Option.map_eq_some_iff.1 h
  dsimp only
  split
  · exact le_refl _
  · exact (t.node.behind queue).earliestFree_le_submit _ r _ _

lemma bank_handNext {until_ : SimTime} {t t' : Turn M} (h : t.handNext until_ = some t')
    (r : RunsOn) : t'.node.bank r = t.node.bank r := by
  obtain ⟨_, _, -, -, rfl⟩ := handNext_eq_some h
  rfl

lemma earliestFree_catchUp (until_ : SimTime) (t : Turn M) (r : RunsOn) :
    (t.node.bank r).earliestFree ≤ ((t.catchUp until_).node.bank r).earliestFree := by
  have hhand := (handLoop until_).run_eq (f := fun t : Turn M => t.node.bank r)
    (fun _ _ hstep => bank_handNext hstep r) (t.advanceVerifications until_)
  change _ ≤ (((handLoop until_).run (t.advanceVerifications until_)).node.bank r).earliestFree
  rw [hhand]
  unfold advanceVerifications
  split
  · exact le_refl _
  · exact (startLoop until_).run_induction
      (P := fun t' : Turn M => (t.node.bank r).earliestFree ≤ (t'.node.bank r).earliestFree)
      (fun _ _ hstep hs => hs.trans (earliestFree_startNext hstep r)) (le_refl _)

lemma bank_admitFrame (t : Turn M) (waiting : Waiting) (a : Admission (Queued RxFrame))
    (r : RunsOn) :
    (t.admitFrame waiting a).node.bank r = t.node.bank r := by
  cases a with
  | queued => rfl
  | refused q => rfl
  | evicted q =>
    unfold admitFrame
    dsimp only
    split <;> rfl

lemma bank_police (t : Turn M) (frame : RxFrame) (stamp : RxStamp) (arrived parsed : SimTime)
    (r : RunsOn) : (t.police frame stamp arrived parsed).node.bank r = t.node.bank r := by
  obtain ⟨stores, policy, emitted, hconsult⟩ := t.consult_eq frame arrived parsed
  unfold police
  dsimp only
  rw [hconsult]
  cases (t.consult frame arrived parsed).1 with
  | verify priority reason => exact bank_admitFrame _ _ _ r
  | deliverUnverified reason => rfl
  | drop cause => rfl

/-- Receiving a frame only delays the banks. -/
lemma earliestFree_receiveFrame (cost : Option Duration) (t : Turn M)
    (x : RxFrame × RxStamp × SimTime) (r : RunsOn) :
    (t.node.bank r).earliestFree ≤ ((t.receiveFrame cost x).node.bank r).earliestFree := by
  unfold receiveFrame
  dsimp only
  rcases t.node.parse_cases cost x.2.2 with ⟨-, hparse⟩ | ⟨starts, hparse⟩ |
    ⟨c, starts, -, hparse⟩
  all_goals
    rw [hparse]
    dsimp only
  · rw [bank_police]
    refine le_trans ?_ (earliestFree_catchUp _ _ r)
    cases r <;> exact le_refl _
  · cases r <;> exact le_refl _
  · rw [bank_police]
    refine le_trans ?_ (earliestFree_catchUp _ _ r)
    cases r with
    | hsm => exact le_refl _
    | accelerator => exact le_refl _
    | cpu => exact ServerBank.earliestFree_le_submit _ _ _

/-! ## What reception leaves alone -/

end Turn

/-- The parts of a node that reception reads and does not change. -/
def ObuRuntime.settings (s : ObuRuntime M) :
    NodeConfig × ProfileServiceModel × ClockModel × M.Belief × NodeState :=
  (s.config, s.service, s.clock, s.belief, s.state)

namespace Turn

lemma settings_startNext {until_ : SimTime} {t t' : Turn M} (h : t.startNext until_ = some t') :
    t'.node.settings = t.node.settings := by
  obtain ⟨⟨q, queue⟩, -, rfl⟩ := Option.map_eq_some_iff.1 h
  dsimp only
  split <;> rfl

lemma settings_handNext {until_ : SimTime} {t t' : Turn M} (h : t.handNext until_ = some t') :
    t'.node.settings = t.node.settings := by
  obtain ⟨_, _, -, -, rfl⟩ := handNext_eq_some h
  rfl

lemma settings_catchUp (until_ : SimTime) (t : Turn M) :
    (t.catchUp until_).node.settings = t.node.settings := by
  have hhand := (handLoop until_).run_eq (f := fun t : Turn M => t.node.settings)
    (fun _ _ hstep => settings_handNext hstep) (t.advanceVerifications until_)
  refine hhand.trans ?_
  unfold advanceVerifications
  split
  · rfl
  · exact (startLoop until_).run_eq (f := fun t : Turn M => t.node.settings)
      (fun _ _ hstep => settings_startNext hstep) t

lemma settings_admitFrame (t : Turn M) (waiting : Waiting) (a : Admission (Queued RxFrame)) :
    (t.admitFrame waiting a).node.settings = t.node.settings := by
  cases a with
  | queued => rfl
  | refused q => rfl
  | evicted q =>
    unfold admitFrame
    dsimp only
    split <;> rfl

lemma settings_police (t : Turn M) (frame : RxFrame) (stamp : RxStamp)
    (arrived parsed : SimTime) :
    (t.police frame stamp arrived parsed).node.settings = t.node.settings := by
  obtain ⟨stores, policy, emitted, hconsult⟩ := t.consult_eq frame arrived parsed
  unfold police
  dsimp only
  rw [hconsult]
  cases (t.consult frame arrived parsed).1 with
  | verify priority reason => exact settings_admitFrame _ _ _
  | deliverUnverified reason => rfl
  | drop cause => rfl

lemma settings_receiveFrame (cost : Option Duration) (t : Turn M)
    (x : RxFrame × RxStamp × SimTime) :
    (t.receiveFrame cost x).node.settings = t.node.settings := by
  unfold receiveFrame
  dsimp only
  rcases t.node.parse_cases cost x.2.2 with ⟨-, hparse⟩ | ⟨starts, hparse⟩ |
    ⟨c, starts, -, hparse⟩
  all_goals
    rw [hparse]
    dsimp only
  · rw [settings_police, settings_catchUp]
    rfl
  · rfl
  · rw [settings_police, settings_catchUp]
    rfl

lemma settings_foldl (cost : Option Duration) (frames : List (RxFrame × RxStamp × SimTime)) :
    ∀ t : Turn M, (frames.foldl (receiveFrame cost) t).node.settings = t.node.settings := by
  induction frames with
  | nil => exact fun _ => rfl
  | cons x frames ih => exact fun t => (ih _).trans (settings_receiveFrame cost t x)

lemma settings_receive (t : Turn M) (believed : SimTime) (inbox : List (RxFrame × RxStamp)) :
    (t.receive believed inbox).node.settings = t.node.settings :=
  (settings_catchUp _ _).trans (settings_foldl _ _ t)

end Turn

lemma ObuRuntime.settings_take (s : ObuRuntime M) (now : SimTime)
    (inbox : List (RxFrame × RxStamp)) :
    (s.take now inbox).node.settings = (s.tick now).settings := by
  unfold take
  dsimp only
  split
  · rfl
  · exact Turn.settings_receive _ _ inbox

namespace Turn

/-! ## The rest of a periodic step -/

/-- What the periodic step's own work leaves alone: the line, the running checks, the reports and
everything that decides when a check starts, except that the banks may be busier. -/
structure Quiet (t t' : Turn M) : Prop where
  items : t'.node.verifyQueue.items = t.node.verifyQueue.items
  verifyMeta : t'.node.verifyMeta = t.node.verifyMeta
  verifying : t'.node.verifying = t.node.verifying
  reports : t'.out.rxReports = t.out.rxReports
  delivered : t'.out.delivered = t.out.delivered
  emitted : t'.emitted = t.emitted
  service : t'.node.service = t.node.service
  config : t'.node.config = t.node.config
  clock : t'.node.clock = t.node.clock
  belief : t'.node.belief = t.node.belief
  state : t'.node.state = t.node.state
  free : ∀ r, (t.node.bank r).earliestFree ≤ (t'.node.bank r).earliestFree

lemma Quiet.refl (t : Turn M) : Quiet t t :=
  ⟨rfl, rfl, rfl, rfl, rfl, rfl, rfl, rfl, rfl, rfl, rfl, fun _ => le_refl _⟩

lemma Quiet.trans {t u v : Turn M} (h : Quiet t u) (h' : Quiet u v) : Quiet t v where
  items := h'.items.trans h.items
  verifyMeta := h'.verifyMeta.trans h.verifyMeta
  verifying := h'.verifying.trans h.verifying
  reports := h'.reports.trans h.reports
  delivered := h'.delivered.trans h.delivered
  emitted := h'.emitted.trans h.emitted
  service := h'.service.trans h.service
  config := h'.config.trans h.config
  clock := h'.clock.trans h.clock
  belief := h'.belief.trans h.belief
  state := h'.state.trans h.state
  free r := (h.free r).trans (h'.free r)

/-- Sending a message is quiet. -/
lemma quiet_sendOne (believed : SimTime) (t : Turn M) (g : Generated) :
    Quiet t (t.sendOne believed g) := by
  unfold sendOne
  cases g with
  | unbuilt => exact ⟨rfl, rfl, rfl, rfl, rfl, rfl, rfl, rfl, rfl, rfl, rfl, fun _ => le_refl _⟩
  | signed msgType bytes signer fullCertificate generationTime payloadBytes =>
    dsimp only
    split
    · exact ⟨rfl, rfl, rfl, rfl, rfl, rfl, rfl, rfl, rfl, rfl, rfl, fun _ => le_refl _⟩
    · split
      all_goals
        refine ⟨rfl, rfl, rfl, rfl, rfl, rfl, rfl, rfl, rfl, rfl, rfl, fun r => ?_⟩
        exact t.node.earliestFree_le_submit _ r _ _

lemma quiet_generate (believed : SimTime) (t : Turn M) : Quiet t (t.generate believed) := by
  have hfold (messages : List Generated) : ∀ u : Turn M, Quiet t u →
      Quiet t (messages.foldl (sendOne believed) u) := by
    induction messages with
    | nil => exact fun u hu => hu
    | cons g messages ih => exact fun u hu => ih _ (hu.trans (quiet_sendOne believed u g))
  refine hfold _ _ ?_
  exact ⟨rfl, rfl, rfl, rfl, rfl, rfl, rfl, rfl, rfl, rfl, rfl, fun _ => le_refl _⟩

lemma quiet_closeWindow (now : SimTime) (t : Turn M) : Quiet t (t.closeWindow now) := by
  refine ⟨rfl, rfl, rfl, rfl, rfl, rfl, rfl, rfl, rfl, rfl, rfl, fun r => ?_⟩
  cases r <;> exact le_refl _

/-- What follows the reception in a periodic step is quiet. -/
lemma quiet_afterReceive (now believed : SimTime) (distance : F64) (t : Turn M) :
    Quiet t (t.afterReceive now believed distance) := by
  have hmaintain : Quiet t (t.maintain believed distance) :=
    ⟨rfl, rfl, rfl, rfl, rfl, rfl, rfl, rfl, rfl, rfl, rfl, fun _ => le_refl _⟩
  have htransmit (u : Turn M) : Quiet u (u.transmit believed) := by
    unfold transmit
    split
    · exact quiet_generate believed u
    · exact .refl u
  have hclose (u : Turn M) : Quiet u (u.closeDue now) := by
    unfold closeDue
    split
    · exact quiet_closeWindow now u
    · exact .refl u
  exact (hmaintain.trans (htransmit _)).trans (hclose _)

end Turn

/-- The inbox of a call and its instant. -/
def NodeOp.call : NodeOp M → Option (SimTime × List (RxFrame × RxStamp))
  | .step now inbox _ => some (now, inbox)
  | .wake now inbox => some (now, inbox)
  | _ => none

/-- A call takes its inbox, and what a periodic step does after that is quiet. -/
lemma ObuRuntime.quiet_perform (s : ObuRuntime M) {o : NodeOp M} {now : SimTime}
    {inbox : List (RxFrame × RxStamp)} (h : o.call = some (now, inbox)) :
    Turn.Quiet (s.take now inbox) (s.perform o) := by
  cases o with
  | step now' inbox' distance =>
    cases h
    unfold perform stepTimed
    dsimp only
    split
    · exact .refl _
    · exact Turn.quiet_afterReceive _ _ distance _
  | wake now' inbox' =>
    cases h
    exact .refl _
  | _ => cases h

lemma ObuRuntime.perform_of_not_call (s : ObuRuntime M) {op : NodeOp M} (h : op.call = none) :
    (s.perform op).out = {} ∧ (s.perform op).emitted = [] := by
  cases op with
  | step now inbox distance => cases h
  | wake now inbox => cases h
  | _ => exact ⟨rfl, rfl⟩

end V2xw.Node
