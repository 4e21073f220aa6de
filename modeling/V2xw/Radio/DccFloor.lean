import V2xw.Lib.Mealy
import V2xw.Radio.Dcc

/-!
# The floor under every congestion control

The calls on a congestion control for any nodes, with the frames it lets pass. The frames of each
node conform to the floor as long as the control leaves room for the idle time and its duty cycle
counts every frame.

## Main definitions

* `Control` — a congestion control, as its calls act on one node.
* `Control.step` — one call.
* `AdaptiveNode.Room`, `ReactiveNode.Room`, `J2945Node.Room` — a
  frame meets none of the slips of a gate.

## Main results

* `Control.invariant` — what every call on a node keeps.
* `floor_kept` — the floor holds under every control.
-/

namespace V2xw.Radio

open Core (SimTime Duration)

/-! ## Calls -/

/-- A congestion control, as its calls act on the state of one node. -/
structure Control (σ : Type) where
  /-- The state before the first call. -/
  init : σ
  onCbr : SimTime → ℚ → σ → σ
  /-- Only the rate and power control has this call. -/
  onDensity : ℕ → σ → σ
  gate : SimTime → TxRequest → σ → GateDecision × σ
  /-- The load the idle time is computed from. -/
  load : σ → ℚ

/-- What is called. -/
inductive CallKind
  | onCbr (cbr : ℚ)
  | onDensity (neighbours : ℕ)
  | gate (req : TxRequest)
  deriving DecidableEq, Repr

/-- A call for a node. -/
structure Call where
  now : SimTime
  node : ℕ
  kind : CallKind
  deriving DecidableEq, Repr

/-- A node, and the frames it was let send. -/
structure Watched (σ : Type) where
  state : σ
  log : List Grant

namespace Control

variable {σ : Type}

/-- A node before its first call. -/
def fresh (C : Control σ) : Watched σ := ⟨C.init, []⟩

/-- One call on a node. -/
def next (C : Control σ) (now : SimTime) (kind : CallKind) (w : Watched σ) :
    Option GateDecision × Watched σ :=
  match kind with
  | .onCbr cbr => (none, { w with state := C.onCbr now cbr w.state })
  | .onDensity neighbours => (none, { w with state := C.onDensity neighbours w.state })
  | .gate req =>
    let decided := C.gate now req w.state
    let grant : Grant :=
      ⟨now, req.airTime, En302571Floor.conformant.tOff req.airTime (C.load w.state)⟩
    (some decided.1, ⟨decided.2, if decided.1.isNow then w.log ++ [grant] else w.log⟩)

/-- One call, on the node it is for. -/
def step (C : Control σ) (s : ℕ → Watched σ) (c : Call) : Option GateDecision × (ℕ → Watched σ) :=
  let called := C.next c.now c.kind (s c.node)
  (called.1, Function.update s c.node called.2)

/-- A condition on the frames that ask to be sent, on the state of their node. -/
def Asks (R : SimTime → TxRequest → Watched σ → Prop) (s : ℕ → Watched σ) (c : Call) : Prop :=
  match c.kind with
  | .gate req => R c.now req (s c.node)
  | _ => True

instance (R : SimTime → TxRequest → Watched σ → Prop) [∀ now req w, Decidable (R now req w)]
    (s : ℕ → Watched σ) (c : Call) : Decidable (Asks R s c) := by
  unfold Asks
  split <;> infer_instance

/-- **What every call on a node keeps** holds of every node after every sequence of calls. -/
theorem invariant {C : Control σ} {R : SimTime → TxRequest → Watched σ → Prop}
    {P : Watched σ → Prop} (hinit : P C.fresh)
    (hcbr : ∀ now cbr w, P w → P (C.next now (.onCbr cbr) w).2)
    (hdensity : ∀ now n w, P w → P (C.next now (.onDensity n) w).2)
    (hgate : ∀ now req w, R now req w → P w → P (C.next now (.gate req) w).2) {calls : List Call}
    (h : Mealy.Always C.step (Asks R) (fun _ => C.fresh) calls) (node : ℕ) :
    P (Mealy.run C.step (fun _ => C.fresh) calls node) := by
  refine Mealy.Always.invariant (P := fun s => ∀ node, P (s node)) (fun s c hc hs n => ?_) calls _ h
    (fun _ => hinit) node
  unfold step
  dsimp only
  by_cases hn : n = c.node
  · subst hn
    rw [Function.update_self]
    unfold Asks at hc
    cases hk : c.kind with
    | onCbr cbr => exact hcbr _ _ _ (hs c.node)
    | onDensity neighbours => exact hdensity _ _ _ (hs c.node)
    | gate req =>
      rw [hk] at hc
      exact hgate _ _ _ hc (hs c.node)
  · rw [Function.update_of_ne hn]
    exact hs n

end Control

/-- The idle time, and the frame before it, end before the gate opens after an interval. -/
def LeavesIdle (now : SimTime) (air tOff interval : Duration) : Prop :=
  now + air.ns + tOff.ns ≤ interval.after now

instance (now : SimTime) (air tOff interval : Duration) :
    Decidable (LeavesIdle now air tOff interval) := by
  unfold LeavesIdle
  infer_instance

lemma LeavesIdle.longer {now : SimTime} {air tOff interval : Duration}
    (h : LeavesIdle now air tOff interval) (d : Duration) :
    now + air.ns + tOff.ns ≤ (Duration.longer d interval).after now := by
  refine h.trans (min_le_min_right _ ?_)
  rw [Duration.longer_ns]
  exact Nat.add_le_add_left (le_max_right _ _) _

/-! ## The adaptive approach -/

namespace AdaptiveNode

/-- The adaptive approach, as a control. -/
def control : Control AdaptiveNode where
  init := default
  onCbr := onCbr
  onDensity := fun _ s => s
  gate := gate En302571Floor.conformant
  load := cbrItsS

/-- A frame the gate lets pass is not sent at the very start, where the duty cycle forgets it, and
the interval of the gatekeeper leaves room for the idle time. -/
def Room (now : SimTime) (req : TxRequest) (w : Watched AdaptiveNode) : Prop :=
  En302571Floor.conformant.admits req.airTime = true → w.state.gateOpenAt ≤ now →
    w.state.duty.projected now req.airTime ≤ 3 / 100 →
      0 < now ∧ LeavesIdle now req.airTime
        (En302571Floor.conformant.tOff req.airTime w.state.cbrItsS)
        (gateInterval req.airTime w.state.delta)

instance (now : SimTime) (req : TxRequest) (w : Watched AdaptiveNode) :
    Decidable (Room now req w) := by
  unfold Room
  infer_instance

/-- What holds of a node: the floor, and the duty cycle counts every frame of the last second. -/
structure Inv (w : Watched AdaptiveNode) : Prop where
  kept : Kept w.state.gateOpenAt w.log
  /-- No frame was sent at the very start. -/
  started : ∀ g ∈ w.log, 0 < g.time
  sends : ∀ now, (∀ g ∈ w.log, g.time ≤ now) →
    (w.state.duty.sends.filter fun e => DutyCycleWindow.inside now e.1) =
      (airTimes w.log).filter fun e => DutyCycleWindow.inside now e.1

@[simp]
lemma onCbr_gate (now : SimTime) (cbr : ℚ) (s : AdaptiveNode) :
    (s.onCbr now cbr).gateOpenAt = s.gateOpenAt ∧ (s.onCbr now cbr).duty = s.duty := by
  unfold onCbr
  dsimp only
  split_ifs <;> exact ⟨rfl, rfl⟩

lemma Inv.onCbr {w : Watched AdaptiveNode} (h : Inv w) (now : SimTime) (cbr : ℚ) :
    Inv { w with state := w.state.onCbr now cbr } := by
  obtain ⟨hopen, hduty⟩ := onCbr_gate now cbr w.state
  refine ⟨?_, h.started, ?_⟩
  · rw [hopen]
    exact h.kept
  · rw [hduty]
    exact h.sends

/-- What a gate decides: a frame is refused, and the gate and the duty cycle stay; or it is let
pass, and both follow. -/
lemma gate_cases (floor : En302571Floor) (now : SimTime) (req : TxRequest) (s : AdaptiveNode) :
    ((s.gate floor now req).1.isNow = false ∧ (s.gate floor now req).2.gateOpenAt = s.gateOpenAt ∧
      (s.gate floor now req).2.duty = s.duty) ∨
    (floor.admits req.airTime = true ∧ s.gateOpenAt ≤ now ∧
      ¬ (floor.enforced = true ∧ floor.dutyCycleMax < s.duty.projected now req.airTime) ∧
      (s.gate floor now req).1.isNow = true ∧
      (s.gate floor now req).2.gateOpenAt =
        (Duration.longer (floor.tOff req.airTime s.cbrItsS)
          (gateInterval req.airTime s.delta)).after now ∧
      (s.gate floor now req).2.duty = s.duty.note now req.airTime) := by
  unfold gate
  dsimp only
  split_ifs with hair hclosed hduty
  · exact .inl ⟨rfl, rfl, rfl⟩
  · exact .inl ⟨rfl, rfl, rfl⟩
  · exact .inl ⟨rfl, rfl, rfl⟩
  · exact .inr ⟨Bool.eq_true_of_not_eq_false hair, not_lt.1 hclosed, hduty, rfl, rfl, rfl⟩

lemma inside_eq {now t : SimTime} (ht : 0 < t) :
    DutyCycleWindow.inside now t = decide (now < t + nsPerS) := by
  have hsub : ∀ n W u : ℕ, 0 < u → (n - W < u ↔ n < u + W) := by omega
  exact decide_eq_decide.2 (hsub now nsPerS t ht)

lemma Inv.projected {w : Watched AdaptiveNode} (h : Inv w) {now : SimTime}
    (hopen : w.state.gateOpenAt ≤ now) (air : Duration) :
    w.state.duty.projected now air = dutyCycle w.log now air := by
  have hpast : ∀ g ∈ w.log, g.time ≤ now := fun g hg =>
    (Nat.le_add_right _ _).trans ((Nat.le_add_right _ _).trans ((h.kept.closed g hg).trans hopen))
  have hused : w.state.duty.usedNs now = Budget.recent nsPerS now (airTimes w.log) := by
    unfold DutyCycleWindow.usedNs Budget.recent Budget.weight
    rw [h.sends now hpast, List.filter_congr fun e he => ?_]
    obtain ⟨g, hg, rfl⟩ := List.mem_map.1 he
    exact inside_eq (h.started g hg)
  rw [DutyCycleWindow.projected, hused, dutyCycle]

/-- A frame counted in the duty cycle is seen in every later window. -/
lemma filter_note {d : DutyCycleWindow} {log : List Grant} {now t : SimTime} {air tOff : Duration}
    (h : (d.sends.filter fun e => DutyCycleWindow.inside t e.1) =
      (airTimes log).filter fun e => DutyCycleWindow.inside t e.1) (hnow : now ≤ t) :
    ((d.note now air).sends.filter fun e => DutyCycleWindow.inside t e.1) =
      (airTimes (log ++ [⟨now, air, tOff⟩])).filter fun e => DutyCycleWindow.inside t e.1 := by
  have hsub : ∀ u, (DutyCycleWindow.inside t u && DutyCycleWindow.inside now u) =
      DutyCycleWindow.inside t u := by
    intro u
    unfold DutyCycleWindow.inside
    rw [Bool.and_eq_left_iff_imp, decide_eq_true_eq, decide_eq_true_eq]
    exact lt_of_le_of_lt (Nat.sub_le_sub_right hnow _)
  have hlog : airTimes (log ++ [⟨now, air, tOff⟩]) = airTimes log ++ [(now, air.ns)] := by
    rw [airTimes, airTimes, List.map_append, List.map_cons, List.map_nil]
  rw [DutyCycleWindow.note, DutyCycleWindow.prune, hlog, List.filter_filter,
    List.filter_congr fun e _ => hsub e.1, List.filter_append, h, List.filter_append]

/-- A frame keeps what holds. -/
lemma Inv.gate {w : Watched AdaptiveNode} (h : Inv w) {now : SimTime} {req : TxRequest}
    (hroom : Room now req w) : Inv (control.next now (.gate req) w).2 := by
  rcases gate_cases En302571Floor.conformant now req w.state with
    ⟨hno, hopen, hduty⟩ | ⟨hair, hle, hcap, hnow, hopen, hduty⟩
  · have hnext : (control.next now (.gate req) w).2 =
        ⟨(w.state.gate En302571Floor.conformant now req).2, w.log⟩ := by
      simp only [Control.next, control, hno, Bool.false_eq_true, if_false]
    rw [hnext]
    refine ⟨?_, h.started, ?_⟩
    · rw [hopen]
      exact h.kept
    · rw [hduty]
      exact h.sends
  · have hnext : (control.next now (.gate req) w).2 =
        ⟨(w.state.gate En302571Floor.conformant now req).2,
          w.log ++ [⟨now, req.airTime,
            En302571Floor.conformant.tOff req.airTime w.state.cbrItsS⟩]⟩ := by
      simp only [Control.next, control, hnow, if_true]
    have hcap : w.state.duty.projected now req.airTime ≤ 3 / 100 :=
      not_lt.1 fun hlt => hcap ⟨rfl, hlt⟩
    obtain ⟨hpos, hidle⟩ := hroom hair hle hcap
    rw [h.projected hle] at hcap
    rw [hnext]
    refine ⟨?_, fun g hg => ?_, fun t ht => ?_⟩
    · rw [hopen]
      exact h.kept.grant (En302571Floor.conformant_admits hair) hle hcap (hidle.longer _)
    · rcases List.mem_append.1 hg with hg | hg
      · exact h.started g hg
      · rw [List.mem_singleton.1 hg]
        exact hpos
    · rw [hduty]
      exact filter_note (h.sends t fun g hg => ht g (List.mem_append_left _ hg))
        (ht _ (List.mem_append_right _ (List.mem_singleton_self _)))

lemma conforms {calls : List Call}
    (h : Mealy.Always control.step (Control.Asks Room) (fun _ => control.fresh) calls) (node : ℕ) :
    Conforms (Mealy.run control.step (fun _ => control.fresh) calls node).log := by
  refine (Control.invariant (C := control) (P := Inv) ⟨Kept.nil _, nofun, fun _ _ => rfl⟩
    (fun now cbr w hw => hw.onCbr now cbr) (fun _ _ w hw => hw) (fun now req w hroom hw => ?_) h
    node).kept.conforms
  exact hw.gate hroom

end AdaptiveNode

/-! ## The other two -/

namespace Control

variable {σ : Type}

/-- A frame finds the gate open, with an interval of the control that leaves room for the idle time,
and within the duty cycle, which these controls do not look at. -/
def Room (C : Control σ) (openAt : σ → SimTime) (interval : σ → Duration) (now : SimTime)
    (req : TxRequest) (w : Watched σ) : Prop :=
  En302571Floor.conformant.admits req.airTime = true → openAt w.state ≤ now →
    LeavesIdle now req.airTime (En302571Floor.conformant.tOff req.airTime (C.load w.state))
      (interval w.state) ∧
    dutyCycle w.log now req.airTime ≤ 3 / 100

instance (C : Control σ) (openAt : σ → SimTime) (interval : σ → Duration) (now : SimTime)
    (req : TxRequest) (w : Watched σ) : Decidable (Room C openAt interval now req w) := by
  unfold Room
  infer_instance

/-- A control whose gate is closed for an interval after each frame, or for the idle time if that is
longer, and that measurements do not open. -/
structure Spaces (C : Control σ) (openAt : σ → SimTime) (interval : σ → Duration) : Prop where
  onCbr : ∀ now cbr s, openAt (C.onCbr now cbr s) = openAt s
  onDensity : ∀ n s, openAt (C.onDensity n s) = openAt s
  /-- A frame is refused, or let pass. -/
  gate : ∀ now req s,
    ((C.gate now req s).1.isNow = false ∧ openAt (C.gate now req s).2 = openAt s) ∨
    (En302571Floor.conformant.admits req.airTime = true ∧ openAt s ≤ now ∧
      (C.gate now req s).1.isNow = true ∧
      openAt (C.gate now req s).2 =
        (Duration.longer (En302571Floor.conformant.tOff req.airTime (C.load s))
          (interval s)).after now)

/-- Under such a control the floor holds. -/
lemma Spaces.conforms {C : Control σ} {openAt : σ → SimTime} {interval : σ → Duration}
    (hC : C.Spaces openAt interval) {calls : List Call}
    (h : Mealy.Always C.step (Asks (C.Room openAt interval)) (fun _ => C.fresh) calls) (node : ℕ) :
    Conforms (Mealy.run C.step (fun _ => C.fresh) calls node).log := by
  refine (C.invariant (P := fun w => Kept (openAt w.state) w.log) (Kept.nil _)
    (fun now cbr w hw => ?_) (fun now n w hw => ?_) (fun now req w hroom hw => ?_) h node).conforms
  · simp only [next, hC.onCbr]
    exact hw
  · simp only [next, hC.onDensity]
    exact hw
  · rcases hC.gate now req w.state with ⟨hno, hopen⟩ | ⟨hair, hle, hnow, hopen⟩
    · simp only [next, hno, hopen, Bool.false_eq_true, if_false]
      exact hw
    · obtain ⟨hidle, hduty⟩ := hroom hair hle
      simp only [next, hnow, hopen, if_true]
      exact hw.grant (En302571Floor.conformant_admits hair) hle hduty (hidle.longer _)

end Control

namespace ReactiveNode

/-- The reactive approach, as a control. -/
def control (table : ReactiveTable) (hold : Duration) : Control ReactiveNode where
  init := default
  onCbr := onCbr table hold
  onDensity := fun _ s => s
  gate := gate table En302571Floor.conformant
  load := cbr

/-- A frame is within the duty cycle, and the idle time of the table leaves room for that of the
floor. -/
def Room (table : ReactiveTable) (hold : Duration) : SimTime → TxRequest →
    Watched ReactiveNode → Prop :=
  (control table hold).Room gateOpenAt fun s => (table.limits s.state).2

instance (table : ReactiveTable) (hold : Duration) (now : SimTime) (req : TxRequest)
    (w : Watched ReactiveNode) : Decidable (Room table hold now req w) := by
  unfold Room
  infer_instance

lemma spaces (table : ReactiveTable) (hold : Duration) :
    (control table hold).Spaces gateOpenAt fun s => (table.limits s.state).2 := by
  refine ⟨fun now cbr s => ?_, fun _ _ => rfl, fun now req s => ?_⟩
  · simp only [control, onCbr]
    split_ifs <;> rfl
  · simp only [control, gate]
    split_ifs with hair hclosed
    · exact .inl ⟨rfl, rfl⟩
    · exact .inl ⟨rfl, rfl⟩
    · exact .inr ⟨Bool.eq_true_of_not_eq_false hair, not_lt.1 hclosed, rfl, rfl⟩

end ReactiveNode

namespace J2945Node

/-- The rate and power control, as a control. -/
def control : Control J2945Node where
  init := default
  onCbr := fun _ cbr => onCbr cbr
  onDensity := onDensity
  gate := gate En302571Floor.conformant
  load := cbp

/-- A frame is within the duty cycle, and the time between transmissions leaves room for the idle
time. -/
def Room : SimTime → TxRequest → Watched J2945Node → Prop := control.Room gateOpenAt itt

instance (now : SimTime) (req : TxRequest) (w : Watched J2945Node) :
    Decidable (Room now req w) := by
  unfold Room
  infer_instance

lemma spaces : control.Spaces gateOpenAt itt := by
  refine ⟨fun _ _ _ => rfl, fun _ _ => rfl, fun now req s => ?_⟩
  simp only [control, gate]
  split_ifs with hair hclosed
  · exact .inl ⟨rfl, rfl⟩
  · exact .inl ⟨rfl, rfl⟩
  · exact .inr ⟨Bool.eq_true_of_not_eq_false hair, not_lt.1 hclosed, rfl, rfl⟩

end J2945Node

/-- **The floor under every control.** In every sequence of calls whose frames meet none of the
slips of the gates, the frames of each node conform to the floor, under each of the three
controls. -/
theorem floor_kept (calls : List Call) :
    (Mealy.Always AdaptiveNode.control.step (Control.Asks AdaptiveNode.Room)
        (fun _ => AdaptiveNode.control.fresh) calls →
      ∀ node, Conforms (Mealy.run AdaptiveNode.control.step
        (fun _ => AdaptiveNode.control.fresh) calls node).log) ∧
    (∀ table hold, Mealy.Always (ReactiveNode.control table hold).step
        (Control.Asks (ReactiveNode.Room table hold))
        (fun _ => (ReactiveNode.control table hold).fresh) calls →
      ∀ node, Conforms (Mealy.run (ReactiveNode.control table hold).step
        (fun _ => (ReactiveNode.control table hold).fresh) calls node).log) ∧
    (Mealy.Always J2945Node.control.step (Control.Asks J2945Node.Room)
        (fun _ => J2945Node.control.fresh) calls →
      ∀ node, Conforms (Mealy.run J2945Node.control.step
        (fun _ => J2945Node.control.fresh) calls node).log) :=
  ⟨AdaptiveNode.conforms, fun table hold => (ReactiveNode.spaces table hold).conforms,
    J2945Node.spaces.conforms⟩

/-- Two frames of 4 ms under a light load. -/
theorem floor_kept_two :
    let calls : List Call := [⟨1000000, 7, .onCbr (1 / 5)⟩, ⟨2000000, 7, .onDensity 3⟩,
      ⟨5000000, 7, .gate ⟨.r6Qpsk12, 20, ⟨4000000⟩⟩⟩,
      ⟨205000000, 7, .gate ⟨.r6Qpsk12, 20, ⟨4000000⟩⟩⟩]
    Conforms (Mealy.run AdaptiveNode.control.step
        (fun _ => AdaptiveNode.control.fresh) calls 7).log ∧
      Conforms (Mealy.run (ReactiveNode.control .a1TonUpTo1Ms ⟨0⟩).step
        (fun _ => (ReactiveNode.control .a1TonUpTo1Ms ⟨0⟩).fresh) calls 7).log ∧
      Conforms (Mealy.run J2945Node.control.step
        (fun _ => J2945Node.control.fresh) calls 7).log :=
  ⟨(floor_kept _).1 (by decide +kernel) 7,
    (floor_kept _).2.1 .a1TonUpTo1Ms ⟨0⟩ (by decide +kernel) 7,
    (floor_kept _).2.2 (by decide +kernel) 7⟩

/-- Two short frames under the adaptive approach, 25 ms from start to start; and a frame of 4 ms
every 100 ms under the others. -/
theorem floor_broken :
    let short : List Call := [⟨1000000000, 7, .gate ⟨.r6Qpsk12, 20, ⟨500000⟩⟩⟩,
      ⟨1025000000, 7, .gate ⟨.r6Qpsk12, 20, ⟨500000⟩⟩⟩]
    let long : List Call := (List.range 10).map fun i =>
      ⟨1000000000 + 100000000 * i, 7, .gate ⟨.r6Qpsk12, 20, ⟨4000000⟩⟩⟩
    ¬ Conforms (Mealy.run AdaptiveNode.control.step
        (fun _ => AdaptiveNode.control.fresh) short 7).log ∧
      ¬ Conforms (Mealy.run (ReactiveNode.control .a1TonUpTo1Ms ⟨0⟩).step
        (fun _ => (ReactiveNode.control .a1TonUpTo1Ms ⟨0⟩).fresh) long 7).log ∧
      ¬ Conforms (Mealy.run J2945Node.control.step
        (fun _ => J2945Node.control.fresh) long 7).log := by
  refine ⟨fun h => absurd h.idle (by decide +kernel), fun h => ?_, fun h => ?_⟩
  · exact absurd (h.duty 1000000000) (by decide +kernel)
  · exact absurd (h.duty 1000000000) (by decide +kernel)

end V2xw.Radio
