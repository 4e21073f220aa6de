import Mathlib.Algebra.Order.Group.Multiset
import Mathlib.Tactic.Abel
import V2xw.Node.RuntimeSpec

/-!
# Every frame has one fate

A frame handed to a node is reported once, or waits in the verification queue, or is being checked,
and the report it gets carries its own token. The proof is a ledger of tickets, a ticket being a
frame with the token it came with: every function of the reception moves tickets between the
reports, the line and the running checks, and none appears or disappears on the way.

## Main definitions

* `Ticket`, `Fate` — a frame with its token, and a frame with its report.
* `Turn.Ledger` — which ticket is where inside a call.

## Main results

* `Turn.Accounts.receive`, `Turn.Accounts.switchedOff` — a call accounts for
  its inbox.
* `received_once` — every ticket handed in is in one place, over whole runs.
-/

namespace V2xw.Node

open Core
open Record (F64)

variable {M : NodeModels}

/-- A frame with the token it came with. -/
abbrev Ticket := RxFrame × ℕ

/-- A frame with its report. -/
abbrev Fate := RxFrame × RxReport

/-- The ticket a report settles. -/
def Fate.ticket (x : Fate) : Ticket := (x.1, x.2.token)

/-- The message the applications receive with a report: the frame's own, for a delivery. -/
def Fate.message (x : Fate) : Option VerifiedMessage :=
  match x.2.disposition with
  | .delivered v => some (x.1.toMessage x.2.arrived v)
  | _ => none

/-- The fate of a frame whose check is running. -/
def fateOf (x : RxFrame × Running) : Fate := (x.1, x.2.check.report)

/-- The frames of the verification queue, each with the entry beside it. -/
def ObuRuntime.line (s : ObuRuntime M) : List (Queued RxFrame × Waiting) :=
  s.verifyQueue.items.zip s.verifyMeta

/-- The ticket of a waiting frame. -/
def waitingTicket (x : Queued RxFrame × Waiting) : Ticket := (x.1.item, x.2.token)

/-! ## The ledger -/

namespace Turn

/-- Which ticket is where: with a report, in the line, or with a running check. -/
structure Ledger (handed : Multiset Ticket) (fates : List Fate) (checked : List (RxFrame × Running))
    (t : Turn M) : Prop where
  /-- The reports are those of the settled frames. -/
  reports : t.out.rxReports = fates.map (·.2)
  /-- The applications got the messages of the delivered frames, in the order of the reports. -/
  delivered : t.out.delivered = fates.filterMap Fate.message
  /-- The running checks are those of the checked frames. -/
  running : checked.map (·.2) = t.node.verifying.entries
  /-- A running check holds the message its report announces. -/
  messages : ∀ x ∈ checked, (fateOf x).message = some x.2.check.message
  /-- The queue and the deque beside it are equally long. -/
  lockstep : t.node.verifyMeta.length = t.node.verifyQueue.items.length
  /-- No ticket is lost and none is duplicated. -/
  conserved : handed = (fates.map Fate.ticket : Multiset Ticket) + t.node.line.map waitingTicket +
    checked.map fun x => (fateOf x).ticket

/-- Every ticket handed in is somewhere. -/
def Accounts (handed : Multiset Ticket) (t : Turn M) : Prop :=
  ∃ fates checked, t.Ledger handed fates checked

/-- The ledger looks at the line, the running checks and the outcome only. -/
lemma Ledger.congr {handed : Multiset Ticket} {fates : List Fate}
    {checked : List (RxFrame × Running)} {t t' : Turn M} (h : t.Ledger handed fates checked)
    (hqueue : t'.node.verifyQueue.items = t.node.verifyQueue.items)
    (hmeta : t'.node.verifyMeta = t.node.verifyMeta)
    (hverifying : t'.node.verifying = t.node.verifying)
    (hreports : t'.out.rxReports = t.out.rxReports)
    (hdelivered : t'.out.delivered = t.out.delivered) : t'.Ledger handed fates checked where
  reports := by rw [hreports, h.reports]
  delivered := by rw [hdelivered, h.delivered]
  running := by rw [hverifying, h.running]
  messages := h.messages
  lockstep := by rw [hqueue, hmeta, h.lockstep]
  conserved := by
    unfold ObuRuntime.line
    rw [hqueue, hmeta]
    exact h.conserved

lemma Accounts.congr {handed : Multiset Ticket} {t t' : Turn M} (h : t.Accounts handed)
    (hqueue : t'.node.verifyQueue.items = t.node.verifyQueue.items)
    (hmeta : t'.node.verifyMeta = t.node.verifyMeta)
    (hverifying : t'.node.verifying = t.node.verifying)
    (hreports : t'.out.rxReports = t.out.rxReports)
    (hdelivered : t'.out.delivered = t.out.delivered) : t'.Accounts handed := by
  obtain ⟨fates, checked, hledger⟩ := h
  exact ⟨fates, checked, hledger.congr hqueue hmeta hverifying hreports hdelivered⟩

/-! ## Single moves -/

lemma settle {handed settled waiting running : Multiset Ticket}
    (h : handed = settled + waiting + running) (x : Ticket) :
    {x} + handed = settled + {x} + waiting + running := by
  rw [h]
  abel

lemma Accounts.report {handed : Multiset Ticket} {t : Turn M} (h : t.Accounts handed)
    (frame : RxFrame) {r : RxReport} (hr : Fate.message (frame, r) = none) :
    (t.report r).Accounts ({(frame, r.token)} + handed) := by
  obtain ⟨fates, checked, hledger⟩ := h
  refine ⟨fates ++ [(frame, r)], checked, ?_, ?_, hledger.running, hledger.messages,
    hledger.lockstep, ?_⟩
  · simp [Turn.report, hledger.reports]
  · simp [Turn.report, hledger.delivered, hr]
  · rw [List.map_append, ← Multiset.coe_add]
    exact settle hledger.conserved _

lemma Accounts.deliver_report {handed : Multiset Ticket} {t : Turn M} (h : t.Accounts handed)
    (frame : RxFrame) {r : RxReport} {m : VerifiedMessage}
    (hr : Fate.message (frame, r) = some m) :
    ((t.deliver m).report r).Accounts ({(frame, r.token)} + handed) := by
  obtain ⟨fates, checked, hledger⟩ := h
  refine ⟨fates ++ [(frame, r)], checked, ?_, ?_, hledger.running, hledger.messages,
    hledger.lockstep, ?_⟩
  · simp [Turn.report, Turn.deliver, hledger.reports]
  · simp [Turn.report, Turn.deliver, hledger.delivered, hr]
  · rw [List.map_append, ← Multiset.coe_add]
    exact settle hledger.conserved _

/-- The frame at the front of the line leaves it, to be settled. -/
lemma Accounts.leave {handed : Multiset Ticket} {t : Turn M} (h : t.Accounts handed)
    {q : Queued RxFrame} {n : NodeQueue (Queued RxFrame)}
    (hitems : t.node.verifyQueue.items = q :: n.items) :
    ∃ w ws rest, t.node.verifyMeta = w :: ws ∧ handed = {(q.item, w.token)} + rest ∧
      Accounts rest
        { t with node := { t.node with verifyQueue := n, verifyMeta := ws } } := by
  obtain ⟨fates, checked, hledger⟩ := h
  obtain ⟨w, ws, hmeta⟩ : ∃ w ws, t.node.verifyMeta = w :: ws := by
    cases hmeta : t.node.verifyMeta with
    | nil => simpa [hitems, hmeta] using hledger.lockstep
    | cons w ws => exact ⟨w, ws, rfl⟩
  have hline : t.node.line = (q, w) :: n.items.zip ws := by
    rw [ObuRuntime.line, hitems, hmeta, List.zip_cons_cons]
  refine ⟨w, ws, _, hmeta, ?_,
    ⟨fates, checked, hledger.reports, hledger.delivered, hledger.running, hledger.messages, ?_,
      rfl⟩⟩
  · rw [hledger.conserved, hline, List.map_cons, ← Multiset.cons_coe, ← Multiset.singleton_add]
    change _ + ({(q.item, w.token)} + _) + _ = _
    change _ = {(q.item, w.token)} +
      (_ + (↑((n.items.zip ws).map waitingTicket) : Multiset Ticket) + _)
    abel
  · have hlen := hledger.lockstep
    rw [hmeta, hitems] at hlen
    exact Nat.succ_injective hlen

/-- A check that is filed among the running ones brings its ticket along. -/
lemma Accounts.file {handed : Multiset Ticket} {t t' : Turn M} (h : t.Accounts handed)
    (frame : RxFrame) (r : Running)
    (hr : (fateOf (frame, r)).message = some r.check.message)
    (hqueue : t'.node.verifyQueue.items = t.node.verifyQueue.items)
    (hmeta : t'.node.verifyMeta = t.node.verifyMeta)
    (hverifying : t'.node.verifying = t.node.verifying.insert r)
    (hout : t'.out = t.out) : t'.Accounts ({(frame, r.check.report.token)} + handed) := by
  obtain ⟨fates, checked, hledger⟩ := h
  have hline : t'.node.line = t.node.line := by rw [ObuRuntime.line, hqueue, hmeta]; rfl
  -- The frame joins the checked ones at the place of its check among the running ones.
  refine ⟨fates, checked.orderedInsert (fun a b => Running.le a.2 b.2) (frame, r), ?_, ?_, ?_, ?_,
    ?_, ?_⟩
  · rw [hout, hledger.reports]
  · rw [hout, hledger.delivered]
  · have hmap := List.map_orderedInsert (fun a b : RxFrame × Running => Running.le a.2 b.2)
      Running.le (·.2) checked (frame, r) (fun _ _ => Iff.rfl) fun _ _ => Iff.rfl
    rw [hmap, hledger.running, hverifying]
    rfl
  · intro x hx
    rcases (List.mem_orderedInsert _).1 hx with rfl | hx
    · exact hr
    · exact hledger.messages x hx
  · rw [hqueue, hmeta, hledger.lockstep]
  · have hperm := List.perm_orderedInsert (fun a b : RxFrame × Running => Running.le a.2 b.2)
      (frame, r) checked
    rw [hledger.conserved, hline, Multiset.coe_eq_coe.2 (hperm.map fun x => (fateOf x).ticket),
      List.map_cons, ← Multiset.cons_coe, ← Multiset.singleton_add]
    change {(frame, r.check.report.token)} + _ = _ + ({(frame, r.check.report.token)} + _)
    abel

lemma Accounts.startNext {handed : Multiset Ticket} {t t' : Turn M} {until_ : SimTime}
    {cost : Duration} (hcost : t.node.verifyCost = some cost) (h : t.Accounts handed)
    (hstep : t.startNext until_ = some t') : t'.Accounts handed := by
  obtain ⟨q, queue, hq, rfl⟩ := startNext_eq_some hcost hstep
  obtain ⟨hitems, -, -⟩ := startable_eq_some hq
  obtain ⟨w, ws, rest, hmeta, rfl, hrest⟩ := h.leave hitems
  rw [hmeta, List.head?_cons, Option.getD_some]
  refine hrest.file q.item (runningOf (t.node.behind queue) q w cost) rfl rfl ?_ rfl rfl
  change t.node.verifyMeta.tail = ws
  rw [hmeta, List.tail_cons]

/-- A check that is handed over takes its ticket to its report. -/
lemma Accounts.handNext {handed : Multiset Ticket} {t t' : Turn M} {until_ : SimTime}
    (h : t.Accounts handed) (hstep : t.handNext until_ = some t') : t'.Accounts handed := by
  obtain ⟨r, rest, hverifying, -, rfl⟩ := handNext_eq_some hstep
  obtain ⟨fates, checked, hledger⟩ := h
  obtain ⟨⟨f, r'⟩, left, rfl, rfl, hleft⟩ :=
    List.map_eq_cons_iff.1 (hledger.running.trans hverifying)
  have hmessage : (fateOf (f, r')).message = some r'.check.message :=
    hledger.messages _ List.mem_cons_self
  have htail : left.map (·.2) = t.node.verifying.entries.tail := by
    rw [hverifying, hleft, List.tail_cons]
  -- Without the check the rest of the ledger accounts for every other ticket.
  have hrest : Accounts ((fates.map Fate.ticket : Multiset Ticket) +
      t.node.line.map waitingTicket + left.map fun x => (fateOf x).ticket)
      { t with node := { t.node with verifying := t.node.verifying.tail } } :=
    ⟨fates, left, hledger.reports, hledger.delivered, htail,
      fun x hx => hledger.messages x (List.mem_cons_of_mem _ hx), hledger.lockstep, rfl⟩
  have hsettled := hrest.deliver_report f hmessage
  rw [hledger.conserved, List.map_cons, ← Multiset.cons_coe, ← Multiset.singleton_add]
  refine cast (congrArg (Accounts · _) ?_) hsettled
  change {(fateOf (f, r')).ticket} + _ = _
  abel

/-! ## The verifier -/

lemma Accounts.advanceVerifications {handed : Multiset Ticket} {t : Turn M}
    (h : t.Accounts handed) (until_ : SimTime) :
    (t.advanceVerifications until_).Accounts handed := by
  unfold Turn.advanceVerifications
  split
  next => exact h
  next cost hcost =>
    refine ((startLoop until_).run_induction
      (P := fun t => t.node.verifyCost = some cost ∧ t.Accounts handed) ?_ ⟨hcost, h⟩).2
    rintro s t hstep ⟨hs, hacc⟩
    exact ⟨(verifyCost_startNext hstep).trans hs, hacc.startNext hs hstep⟩

lemma Accounts.completeVerifications {handed : Multiset Ticket} {t : Turn M}
    (h : t.Accounts handed) (until_ : SimTime) :
    (t.completeVerifications until_).Accounts handed :=
  (handLoop until_).run_induction (P := Accounts handed) (fun _ _ hstep hs => hs.handNext hstep) h

lemma Accounts.catchUp {handed : Multiset Ticket} {t : Turn M} (h : t.Accounts handed)
    (until_ : SimTime) : (t.catchUp until_).Accounts handed :=
  (h.advanceVerifications until_).completeVerifications until_

/-! ## One frame -/

/-- A frame that joins the line brings its ticket along. -/
lemma Accounts.join {handed : Multiset Ticket} {t t' : Turn M} (h : t.Accounts handed)
    (q : Queued RxFrame) (w : Waiting)
    (hqueue : t'.node.verifyQueue.items = t.node.verifyQueue.items ++ [q])
    (hmeta : t'.node.verifyMeta = t.node.verifyMeta ++ [w])
    (hverifying : t'.node.verifying = t.node.verifying) (hout : t'.out = t.out) :
    t'.Accounts ({(q.item, w.token)} + handed) := by
  obtain ⟨fates, checked, hledger⟩ := h
  refine ⟨fates, checked, ?_, ?_, ?_, hledger.messages, ?_, ?_⟩
  · rw [hout, hledger.reports]
  · rw [hout, hledger.delivered]
  · rw [hledger.running, hverifying]
  · simp [hqueue, hmeta, hledger.lockstep]
  · have hline : t'.node.line = t.node.line ++ [(q, w)] := by
      rw [ObuRuntime.line, hqueue, hmeta, List.zip_append hledger.lockstep.symm]
      rfl
    rw [hledger.conserved, hline, List.map_append, ← Multiset.coe_add]
    change _ = _ + (_ + {(q.item, w.token)}) + _
    abel

lemma Accounts.overflow {handed : Multiset Ticket} {t : Turn M} (h : t.Accounts handed)
    (q : Queued RxFrame) (w : Waiting) :
    (t.overflow q w).Accounts ({(q.item, w.token)} + handed) := by
  have hdrop : Accounts handed (Turn.emit
      { t with node := { t.node with drops := t.node.drops.record .verifyOverflow } }
      (.overflowed t.node.node w.parsed (policyId (M.code t.node.policy))
        (msgTypeName q.item.msgType))) :=
    h.congr rfl rfl rfl rfl rfl
  exact hdrop.report q.item (r := ⟨w.token, .dropped .verifyOverflow, w.arrived, w.parsed, none,
    none⟩) rfl

/-- Every admission outcome accounts for the frame offered. -/
lemma Accounts.enqueue {handed : Multiset Ticket} {t : Turn M} (h : t.Accounts handed)
    (frame : RxFrame) (stamp : RxStamp) (arrived parsed : SimTime) :
    (t.enqueue frame stamp arrived parsed).Accounts ({(frame, stamp.token)} + handed) := by
  have hoffer := offered_offer t.node ⟨frame, parsed⟩
  unfold Turn.enqueue
  dsimp only
  generalize hitems' : (offer t.node ⟨frame, parsed⟩).2.items = items' at hoffer
  generalize (offer t.node ⟨frame, parsed⟩).1 = admitted at hoffer
  cases hoffer with
  | queued => exact h.join ⟨frame, parsed⟩ ⟨stamp.token, arrived, parsed, _⟩ hitems' rfl rfl rfl
  | refused =>
    refine Accounts.overflow ?_ ⟨frame, parsed⟩ ⟨stamp.token, arrived, parsed, _⟩
    exact h.congr hitems' rfl rfl rfl rfl
  | @evicted old rest hitems =>
    -- The oldest frame leaves the line to be reported, and the new one joins it behind the rest.
    obtain ⟨w, ws, left, hmeta, rfl, hleft⟩ :=
      h.leave (n := { t.node.verifyQueue with items := rest }) hitems
    have hover := hleft.overflow old w
    unfold admitFrame
    dsimp only
    rw [hmeta]
    exact hover.join ⟨frame, parsed⟩ ⟨stamp.token, arrived, parsed, _⟩ hitems' rfl rfl rfl

/-- Every decision of the policy accounts for the frame. -/
lemma Accounts.police {handed : Multiset Ticket} {t : Turn M} (h : t.Accounts handed)
    (frame : RxFrame) (stamp : RxStamp) (arrived parsed : SimTime) :
    (t.police frame stamp arrived parsed).Accounts ({(frame, stamp.token)} + handed) := by
  obtain ⟨stores, policy, emitted, hconsult⟩ := t.consult_eq frame arrived parsed
  have hasked : (t.consult frame arrived parsed).2.Accounts handed := by
    rw [hconsult]
    exact h.congr rfl rfl rfl rfl rfl
  unfold Turn.police
  dsimp only
  generalize (t.consult frame arrived parsed).2 = t' at hasked
  cases (t.consult frame arrived parsed).1 with
  | verify priority reason => exact hasked.enqueue frame stamp arrived parsed
  | deliverUnverified reason =>
    refine Accounts.deliver_report ?_ frame
      (r := ⟨stamp.token, .delivered .unverified, arrived, parsed, none, none⟩) rfl
    exact hasked.congr rfl rfl rfl rfl rfl
  | drop cause =>
    refine Accounts.report ?_ frame
      (r := ⟨stamp.token, .dropped cause, arrived, parsed, none, none⟩) rfl
    exact hasked.congr rfl rfl rfl rfl rfl

/-- A frame is accounted for once it is received. -/
lemma Accounts.receiveFrame {handed : Multiset Ticket} {t : Turn M} (h : t.Accounts handed)
    (cost : Option Duration) (x : RxFrame × RxStamp × SimTime) :
    (t.receiveFrame cost x).Accounts ({(x.1, x.2.1.token)} + handed) := by
  obtain ⟨frame, stamp, arrived⟩ := x
  unfold Turn.receiveFrame
  dsimp only
  rcases t.node.parse_cases cost arrived with ⟨-, hparse⟩ | ⟨starts, hparse⟩ |
    ⟨c, starts, -, hparse⟩
  · rw [hparse]
    refine (Accounts.catchUp ?_ arrived).police frame stamp arrived arrived
    exact h.congr rfl rfl rfl rfl rfl
  · rw [hparse]
    refine Accounts.report ?_ frame
      (r := ⟨stamp.token, .dropped .rxOverflow, arrived, arrived, none, none⟩) rfl
    exact h.congr rfl rfl rfl rfl rfl
  · rw [hparse]
    refine (Accounts.catchUp ?_ _).police frame stamp arrived _
    exact h.congr rfl rfl rfl rfl rfl

/-! ## One call -/

/-- The tickets of an inbox. -/
def tickets (inbox : List (RxFrame × RxStamp)) : List Ticket :=
  inbox.map fun x => (x.1, x.2.token)

lemma Accounts.foldl_receiveFrame (cost : Option Duration)
    (frames : List (RxFrame × RxStamp × SimTime)) :
    ∀ {handed : Multiset Ticket} {t : Turn M}, t.Accounts handed →
      (frames.foldl (Turn.receiveFrame cost) t).Accounts
        ((frames.map fun x => (x.1, x.2.1.token) : Multiset Ticket) + handed) := by
  induction frames with
  | nil => exact fun h => by simpa using h
  | cons x frames ih =>
    intro handed t h
    rw [List.map_cons, ← Multiset.cons_coe, ← Multiset.singleton_add, add_comm {_}, add_assoc]
    exact ih (h.receiveFrame cost x)

lemma tickets_arrivals (s : ObuRuntime M) (believed : SimTime)
    (inbox : List (RxFrame × RxStamp)) :
    ((arrivals s believed inbox).map fun x => ((x.1, x.2.1.token) : Ticket)).Perm
      (tickets inbox) := by
  refine ((List.perm_insertionSort _ _).map _).trans ?_
  rw [List.map_map]
  exact .refl _

/-- **Reception accounts for its inbox.** -/
theorem Accounts.receive {handed : Multiset Ticket} {t : Turn M} (h : t.Accounts handed)
    (believed : SimTime) (inbox : List (RxFrame × RxStamp)) :
    (t.receive believed inbox).Accounts ((tickets inbox : Multiset Ticket) + handed) := by
  have hframes := foldl_receiveFrame t.node.parseCost (arrivals t.node believed inbox) h
  rw [Multiset.coe_eq_coe.2 (tickets_arrivals t.node believed inbox)] at hframes
  exact hframes.catchUp believed

/-- **Switching off accounts for the inbox**: the running checks and the frames handed in are all
reported. -/
theorem Accounts.switchedOff {handed : Multiset Ticket} {t : Turn M} (h : t.Accounts handed)
    (believed : SimTime) (inbox : List (RxFrame × RxStamp)) :
    (t.switchedOff believed inbox).Accounts ((tickets inbox : Multiset Ticket) + handed) := by
  obtain ⟨fates, checked, hledger⟩ := h
  let stopped : List Fate := checked.map fun x =>
    (x.1, { x.2.check.report with disposition := .nodeOff })
  let missed : List Fate := inbox.map fun handed =>
    let at_ := (handed.2.arrivedAt.map t.node.clock.believedTime).getD believed
    (handed.1, ⟨handed.2.token, .nodeOff, at_, at_, none, none⟩)
  refine ⟨fates ++ stopped ++ missed, [], ?_, ?_, rfl, by simp, hledger.lockstep, ?_⟩
  · simp only [Turn.switchedOff, stopped, missed, hledger.reports, ← hledger.running,
      List.map_append, List.map_map]
    rfl
  · have hstopped : stopped.filterMap Fate.message = [] := by
      simp [stopped, Fate.message, List.filterMap_eq_nil_iff]
    have hmissed : missed.filterMap Fate.message = [] := by
      simp [missed, Fate.message, List.filterMap_eq_nil_iff]
    rw [List.filterMap_append, List.filterMap_append, hstopped, hmissed, List.append_nil,
      List.append_nil, ← hledger.delivered]
    rfl
  · have hstopped : stopped.map Fate.ticket = checked.map fun x => (fateOf x).ticket := by
      rw [List.map_map]
      rfl
    have hmissed : missed.map Fate.ticket = tickets inbox := by
      rw [List.map_map]
      rfl
    rw [hledger.conserved, List.map_append, List.map_append, hstopped, hmissed,
      ← Multiset.coe_add, ← Multiset.coe_add]
    change _ = _ + (↑(t.node.line.map waitingTicket) : Multiset Ticket) + 0
    abel

lemma Accounts.afterReceive {handed : Multiset Ticket} {t : Turn M} (h : t.Accounts handed)
    (now believed : SimTime) (distance : F64) :
    (t.afterReceive now believed distance).Accounts handed := by
  have hquiet := quiet_afterReceive now believed distance t
  exact h.congr hquiet.items hquiet.verifyMeta hquiet.verifying hquiet.reports hquiet.delivered

lemma Accounts.take {handed : Multiset Ticket} {s : ObuRuntime M}
    (h : Accounts handed { node := s }) (now : SimTime) (inbox : List (RxFrame × RxStamp)) :
    (s.take now inbox).Accounts ((tickets inbox : Multiset Ticket) + handed) := by
  have htick : Accounts handed { node := s.tick now } := h.congr rfl rfl rfl rfl rfl
  unfold ObuRuntime.take
  dsimp only
  split
  · exact htick.switchedOff _ inbox
  · exact htick.receive _ inbox

end Turn

/-! ## Whole runs -/

/-- The tickets an operation hands in. -/
def NodeOp.tickets : NodeOp M → List Ticket
  | .step _ inbox _ => Turn.tickets inbox
  | .wake _ inbox => Turn.tickets inbox
  | _ => []

/-- An operation accounts for the tickets it hands in. -/
lemma Turn.Accounts.perform {handed : Multiset Ticket} {s : ObuRuntime M}
    (h : Turn.Accounts handed { node := s }) (op : NodeOp M) :
    (s.perform op).Accounts ((op.tickets : Multiset Ticket) + handed) := by
  cases op with
  | step now inbox distance =>
    unfold ObuRuntime.perform ObuRuntime.stepTimed
    dsimp only
    split
    · exact h.take now inbox
    · exact (h.take now inbox).afterReceive now _ distance
  | wake now inbox => exact h.take now inbox
  | _ =>
    change Turn.Accounts ((([] : List Ticket) : Multiset Ticket) + handed) _
    rw [Multiset.coe_nil, zero_add]
    exact h.congr rfl rfl rfl rfl rfl

/-- What the calls of a run returned. -/
abbrev Outcomes (M : NodeModels) := List (Turn M)

/-- Every report over all outcomes so far. -/
def Outcomes.reports (outs : Outcomes M) : List RxReport := outs.flatMap (·.out.rxReports)

/-- Every message the applications have received so far. -/
def Outcomes.delivered (outs : Outcomes M) : List VerifiedMessage := outs.flatMap (·.out.delivered)

/-- The tickets handed in so far. -/
def handedIn (ops : List (NodeOp M)) : List Ticket := ops.flatMap NodeOp.tickets

lemma Turn.Ledger.carry {handed : Multiset Ticket} {fates : List Fate}
    {checked : List (RxFrame × Running)} {t : Turn M} (h : t.Ledger handed fates checked) :
    Turn.Accounts ((t.node.line.map waitingTicket : Multiset Ticket) +
      checked.map fun x => (fateOf x).ticket) { node := t.node } :=
  ⟨[], checked, rfl, rfl, h.running, h.messages, h.lockstep, by
    rw [List.map_nil, Multiset.coe_nil, zero_add]⟩

/-- The ledger over a whole run. -/
lemma exists_past {s₀ s : ObuRuntime M} {ops : List (NodeOp M)} {outs : Outcomes M}
    (hsteps : (nodeMachine s₀).Steps s₀ ops outs s) (hfresh : Turn.Accounts 0 { node := s₀ }) :
    ∃ (past : List Fate) (held : Multiset Ticket), outs.reports = past.map (·.2) ∧
      outs.delivered = past.filterMap Fate.message ∧
      (handedIn ops : Multiset Ticket) = (past.map Fate.ticket : Multiset Ticket) + held ∧
      Turn.Accounts held { node := s } := by
  refine hsteps.stepsIf.induction (Q := fun ops outs s => ∃ past held,
    Outcomes.reports outs = past.map (·.2) ∧
    Outcomes.delivered outs = past.filterMap Fate.message ∧
    (handedIn ops : Multiset Ticket) = (past.map Fate.ticket : Multiset Ticket) + held ∧
    Turn.Accounts held { node := s }) ⟨[], 0, rfl, rfl, rfl, hfresh⟩ ?_
  rintro ops outs s op out s' - ⟨past, held, hreports, hdelivered, hhanded, hacc⟩ - hstep
  cases hstep
  obtain ⟨fates, checked, hledger⟩ := hacc.perform op
  refine ⟨past ++ fates, _, ?_, ?_, ?_, hledger.carry⟩
  · rw [List.map_append, ← hreports, ← hledger.reports]
    simp [Outcomes.reports]
  · rw [List.filterMap_append, ← hdelivered, ← hledger.delivered]
    simp [Outcomes.delivered]
  · have hconserved := hledger.conserved
    rw [add_assoc] at hconserved
    rw [List.map_append, ← Multiset.coe_add, add_assoc, ← hconserved]
    have happend : handedIn (ops ++ [op]) = handedIn ops ++ op.tickets := by simp [handedIn]
    rw [happend, ← Multiset.coe_add, hhanded]
    abel

/-- **Every received frame has exactly one fate.** Over every run of a node, however its calls, its
inboxes and the engine's settings are interleaved: the deque beside the verification queue is as
long as the queue, and every ticket handed in is, as often as it was handed in, with a report of its
frame, at a place of the line where its frame waits, or with a running check of its frame; a
delivered message is the one of the reported frame. So, once the tokens are distinct, each has one
report or one place, and never two.

**Proof sketch.** Every function of the reception keeps a ledger of the tickets. A frame enters it
when it is received, moves with its token from the line to the running checks when the front of the
queue and the front of the deque are popped together, and is settled by the report pushed with its
message. -/
theorem received_once (node : ℕ) (profile : HardwareProfile) (policy : M.Policy)
    (config : NodeConfig) (at_ : SimTime) {ops : List (NodeOp M)} {outs : Outcomes M}
    {s : ObuRuntime M}
    (hsteps : (nodeMachine (ObuRuntime.new node profile policy config at_)).Steps
      (ObuRuntime.new node profile policy config at_) ops outs s) :
    s.verifyMeta.length = s.verifyQueue.items.length ∧
    (∃ (fates : List Fate) (checked : List (RxFrame × Running)),
      outs.reports = fates.map (·.2) ∧
      outs.delivered = fates.filterMap Fate.message ∧
      checked.map (·.2) = s.verifying.entries ∧
      (∀ x ∈ checked, (fateOf x).message = some x.2.check.message) ∧
      (handedIn ops).Perm (fates.map Fate.ticket ++ s.line.map waitingTicket ++
        checked.map fun x => (fateOf x).ticket)) ∧
    (((handedIn ops).map (·.2)).Nodup →
      (outs.reports.map (·.token) ++ s.verifyMeta.map (·.token) ++
        s.verifying.entries.map (·.check.report.token)).Nodup) := by
  have hfresh : Turn.Accounts 0 { node := ObuRuntime.new node profile policy config at_ } :=
    ⟨[], [], rfl, rfl, rfl, by simp, rfl, rfl⟩
  obtain ⟨past, held, hreports, hdelivered, hhanded, fates, checked, hledger⟩ :=
    exists_past hsteps hfresh
  obtain rfl : fates = [] := List.map_eq_nil_iff.1 hledger.reports.symm
  have hperm : (handedIn ops).Perm (past.map Fate.ticket ++ s.line.map waitingTicket ++
      checked.map fun x => (fateOf x).ticket) := by
    rw [hledger.conserved, List.map_nil, Multiset.coe_nil, zero_add, Multiset.coe_add,
      Multiset.coe_add, Multiset.coe_eq_coe] at hhanded
    rw [List.append_assoc]
    exact hhanded
  refine ⟨hledger.lockstep, ⟨past, checked, hreports, hdelivered, hledger.running,
    hledger.messages, hperm⟩, fun hnodup => ?_⟩
  have htokens := (hperm.map (·.2)).nodup_iff.1 hnodup
  have hline : s.line.map (fun x => x.2.token) = s.verifyMeta.map (·.token) := by
    have hsnd : (s.verifyQueue.items.zip s.verifyMeta).map Prod.snd = s.verifyMeta :=
      List.map_snd_zip hledger.lockstep.le
    rw [← hsnd, List.map_map]
    rfl
  have hrunning : s.verifying.entries = checked.map (·.2) := hledger.running.symm
  rw [hreports, ← hline, hrunning, List.map_map, List.map_map]
  rw [List.map_append, List.map_append, List.map_map, List.map_map, List.map_map] at htokens
  exact htokens

/-- Three frames that arrive together at a verification queue of one, and a later wake-up: the
first one is being checked and the second one waits when the third one comes. -/
def overflowRun : List (Turn bareModels) × ObuRuntime bareModels :=
  (ObuRuntime.new 0 bareProfile () { verifyCapacity := 1 } 0).performAll
    [.wake 5 [(bareFrame, ⟨1, some 4⟩), (bareFrame, ⟨2, some 4⟩), (bareFrame, ⟨3, some 4⟩)],
      .wake 1000000 []]

/-- The first frame is checked, the second one waits and the third one finds the queue full. -/
theorem received_once_overflow :
    overflowRun.2.verifyMeta.length = overflowRun.2.verifyQueue.items.length ∧
    (Outcomes.reports overflowRun.1).map (fun r => (r.token, r.disposition)) =
      [(3, .dropped .verifyOverflow), (1, .delivered .verified), (2, .delivered .verified)] :=
  ⟨(received_once (M := bareModels) 0 bareProfile () { verifyCapacity := 1 } 0
    (steps_performAll _ _ _)).1,
    by decide +kernel⟩

end V2xw.Node
