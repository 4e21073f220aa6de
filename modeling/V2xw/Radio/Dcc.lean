import V2xw.Radio.Floor
import V2xw.Radio.Types

/-!
# Congestion controls

The three congestion controls of `crates/v2xw-radio/src/dcc.rs`: the adaptive and the reactive
approach of TS 102 687, and the rate and power control of J2945/1. Each keeps its own state for
every node, and lets a frame pass, delays it or drops it. Floating-point numbers are rationals.

## Main definitions

* `TxRequest`, `GateDecision` — what a gate is asked and answers.
* `AdaptiveNode.onCbr`, `AdaptiveNode.gate` — the adaptive approach.
* `ReactiveNode.onCbr`, `ReactiveNode.gate` — the reactive approach.
* `J2945Node.onCbr`, `J2945Node.onDensity`, `J2945Node.gate` —
  the rate and power control.
-/

namespace V2xw.Radio

open Core (SimTime Duration)

/-- A number within bounds. -/
def clamp (x lo hi : ℚ) : ℚ := max lo (min x hi)

/-- A frame that asks to be sent. -/
structure TxRequest where
  mcs : Mcs
  powerDbm : ℚ
  airTime : Duration
  deriving DecidableEq, Repr

/-- What congestion control decided. -/
inductive GateDecision
  | now (powerDbm : ℚ) (mcs : Mcs)
  | delayUntil (t : SimTime)
  | drop
  deriving DecidableEq, Repr

/-- Whether a frame is let pass. -/
def GateDecision.isNow : GateDecision → Bool
  | now _ _ => true
  | _ => false

/-! ## The adaptive approach -/

/-- The parameters of the adaptive approach. -/
structure AdaptiveParams where
  alpha : ℚ
  beta : ℚ
  cbrTarget : ℚ
  deltaMax : ℚ
  deltaMin : ℚ
  gMaxPlus : ℚ
  gMaxMinus : ℚ

/-- The table of the standard. -/
def AdaptiveParams.ts102687 : AdaptiveParams where
  alpha := 16 / 1000
  beta := 12 / 10000
  cbrTarget := 68 / 100
  deltaMax := 3 / 100
  deltaMin := 6 / 10000
  gMaxPlus := 5 / 10000
  gMaxMinus := -25 / 100000

/-- The state of a node under the adaptive approach. -/
structure AdaptiveNode where
  cbrItsS : ℚ
  cbrNow : ℚ
  cbrPrev : ℚ
  /-- The fraction of time the node may transmit. -/
  delta : ℚ
  lastUpdate : Option SimTime
  gateOpenAt : SimTime
  /-- The idle time the last decision imposed. -/
  lastTOff : Duration
  duty : DutyCycleWindow
  deriving DecidableEq, Repr

namespace AdaptiveNode

/-- A node before its first call. -/
def default : AdaptiveNode :=
  ⟨0, 0, 0, AdaptiveParams.ts102687.deltaMax, none, 0, ⟨0⟩, ⟨[]⟩⟩

/-- The control loop runs every 200 ms. -/
def updatePeriod : Duration := Duration.fromMillis 200

/-- One update of the control loop. -/
def updateDelta (params : AdaptiveParams) (delta cbrSmoothed : ℚ) : ℚ :=
  let raw := params.beta * (params.cbrTarget - cbrSmoothed)
  let offset := if 0 < raw then min raw params.gMaxPlus else max raw params.gMaxMinus
  clamp ((1 - params.alpha) * delta + offset) params.deltaMin params.deltaMax

/-- The smoothing step. -/
def smooth (previous cbrNow cbrPrev : ℚ) : ℚ := 1 / 2 * previous + 1 / 2 * (cbrNow + cbrPrev) / 2

/-- The interval of the gatekeeper. -/
def gateInterval (tOn : Duration) (delta : ℚ) : Duration :=
  if delta ≤ 0 then Duration.fromMillis 1000
  else Duration.fromSecs (clamp (Duration.asSecs tOn / delta) (25 / 1000) 1)

/-- A measurement of the load. -/
def onCbr (now : SimTime) (cbr : ℚ) (s : AdaptiveNode) : AdaptiveNode :=
  let s := { s with cbrPrev := s.cbrNow, cbrNow := clamp cbr 0 1 }
  let due :=
    match s.lastUpdate with
    | none => true
    | some last => decide (updatePeriod.ns ≤ now - last)
  if due then
    let cbrItsS := smooth s.cbrItsS s.cbrNow s.cbrPrev
    { s with
      cbrItsS
      delta := updateDelta AdaptiveParams.ts102687 s.delta cbrItsS
      lastUpdate := some now }
  else s

/-- Decides on a frame. -/
def gate (floor : En302571Floor) (now : SimTime) (req : TxRequest) (s : AdaptiveNode) :
    GateDecision × AdaptiveNode :=
  if floor.admits req.airTime = false then (.drop, s)
  else if now < s.gateOpenAt then (.delayUntil s.gateOpenAt, s)
  else if floor.enforced = true ∧ floor.dutyCycleMax < s.duty.projected now req.airTime then
    -- the duty cycle is a rate limit: the frame waits
    let wait := floor.tOff req.airTime s.cbrItsS
    (.delayUntil (wait.after now), { s with lastTOff := wait })
  else
    let wait := Duration.longer (floor.tOff req.airTime s.cbrItsS) (gateInterval req.airTime s.delta)
    (.now req.powerDbm req.mcs, { s with
      duty := s.duty.note now req.airTime
      gateOpenAt := wait.after now
      lastTOff := wait })

end AdaptiveNode

/-! ## The reactive approach -/

/-- The states of the reactive approach. -/
inductive ReactiveState
  | relaxed
  | active1
  | active2
  | active3
  | restrictive
  deriving DecidableEq, Repr

/-- The two tables of the reactive approach. -/
inductive ReactiveTable
  | a1TonUpTo1Ms
  /-- For air times up to 500 µs. -/
  | a2TonUpTo500Us
  deriving DecidableEq, Repr

namespace ReactiveTable

/-- The state for a load. -/
def stateFor (table : ReactiveTable) (cbr : ℚ) : ReactiveState :=
  let percent := cbr * 100
  let restrictiveFrom : ℚ :=
    match table with
    | a1TonUpTo1Ms => 60
    | a2TonUpTo500Us => 65
  if percent < 30 then .relaxed
  else if percent < 40 then .active1
  else if percent < 50 then .active2
  else if percent ≤ restrictiveFrom then .active3
  else .restrictive

/-- The packet rate and the idle time of a state. -/
def limits : ReactiveTable → ReactiveState → ℚ × Duration
  | a1TonUpTo1Ms, .relaxed => (10, Duration.fromMillis 100)
  | a1TonUpTo1Ms, .active1 => (5, Duration.fromMillis 200)
  | a1TonUpTo1Ms, .active2 => (5 / 2, Duration.fromMillis 400)
  | a1TonUpTo1Ms, .active3 => (2, Duration.fromMillis 500)
  | a1TonUpTo1Ms, .restrictive => (1, Duration.fromMillis 1000)
  | a2TonUpTo500Us, .relaxed => (20, Duration.fromMillis 50)
  | a2TonUpTo500Us, .active1 => (10, Duration.fromMillis 100)
  | a2TonUpTo500Us, .active2 => (5, Duration.fromMillis 200)
  | a2TonUpTo500Us, .active3 => (4, Duration.fromMillis 250)
  | a2TonUpTo500Us, .restrictive => (1, Duration.fromMillis 1000)

end ReactiveTable

/-- The state of a node under the reactive approach. -/
structure ReactiveNode where
  state : ReactiveState
  cbr : ℚ
  enteredAt : SimTime
  gateOpenAt : SimTime
  hasMeasurement : Bool
  deriving DecidableEq, Repr

namespace ReactiveNode

/-- A node before its first call. -/
def default : ReactiveNode := ⟨.relaxed, 0, 0, 0, false⟩

/-- A measurement of the load. A state is held for `hold`. -/
def onCbr (table : ReactiveTable) (hold : Duration) (now : SimTime) (cbr : ℚ) (s : ReactiveNode) :
    ReactiveNode :=
  let s := { s with cbr := clamp cbr 0 1, hasMeasurement := true }
  let target := table.stateFor s.cbr
  if target ≠ s.state ∧ hold.ns ≤ now - s.enteredAt then { s with state := target, enteredAt := now }
  else s

/-- Decides on a frame. -/
def gate (table : ReactiveTable) (floor : En302571Floor) (now : SimTime) (req : TxRequest)
    (s : ReactiveNode) : GateDecision × ReactiveNode :=
  if floor.admits req.airTime = false then (.drop, s)
  else if now < s.gateOpenAt then (.delayUntil s.gateOpenAt, s)
  else
    let wait := Duration.longer (floor.tOff req.airTime s.cbr) (table.limits s.state).2
    (.now req.powerDbm req.mcs, { s with gateOpenAt := wait.after now })

end ReactiveNode

/-! ## The rate and power control -/

/-- The parameters of the rate and power control. -/
structure J2945Params where
  lambda : ℚ
  bDensity : ℚ
  maxItt : Duration
  minItt : Duration
  rpMaxDbm : ℚ
  rpMinDbm : ℚ
  minCu : ℚ
  maxCu : ℚ
  supraGain : ℚ
  rpInitialDbm : ℚ

/-- The published table. -/
def J2945Params.rostami : J2945Params where
  lambda := 1 / 2
  bDensity := 25
  maxItt := Duration.fromMillis 600
  minItt := Duration.fromMillis 100
  rpMaxDbm := 20
  rpMinDbm := 10
  minCu := 50 / 100
  maxCu := 80 / 100
  supraGain := 1 / 2
  rpInitialDbm := 15

/-- The state of a node under the rate and power control. -/
structure J2945Node where
  smoothedDensity : ℚ
  rpDbm : ℚ
  cbp : ℚ
  /-- The time between transmissions. -/
  itt : Duration
  gateOpenAt : SimTime
  hasMeasurement : Bool
  deriving DecidableEq, Repr

namespace J2945Node

/-- A node before its first call. -/
def default : J2945Node :=
  ⟨0, J2945Params.rostami.rpInitialDbm, 0, J2945Params.rostami.minItt, 0, false⟩

/-- The time between transmissions for a density. -/
def maxIttFor (params : J2945Params) (smoothedDensity : ℚ) : Duration :=
  let minMs := Duration.asSecs params.minItt * 1000
  let maxMs := Duration.asSecs params.maxItt * 1000
  if smoothedDensity ≤ params.bDensity then params.minItt
  else
    let topDensity := maxMs / minMs * params.bDensity
    if topDensity ≤ smoothedDensity then params.maxItt
    else
      let fraction := (smoothedDensity - params.bDensity) / (topDensity - params.bDensity)
      Duration.fromSecs ((minMs + fraction * (maxMs - minMs)) / 1000)

/-- The transmit power for a load. -/
def powerTargetDbm (params : J2945Params) (cbp : ℚ) : ℚ :=
  if cbp ≤ params.minCu then params.rpMaxDbm
  else if params.maxCu ≤ cbp then params.rpMinDbm
  else
    let fraction := (cbp - params.minCu) / (params.maxCu - params.minCu)
    params.rpMaxDbm - fraction * (params.rpMaxDbm - params.rpMinDbm)

/-- One step of the transmit power. -/
def supraStep (params : J2945Params) (rpPreviousDbm cbp : ℚ) : ℚ :=
  let target := powerTargetDbm params cbp
  rpPreviousDbm + params.supraGain * (target - rpPreviousDbm)

/-- The smoothed neighbour count. -/
def smoothDensity (params : J2945Params) (previous count : ℚ) : ℚ :=
  params.lambda * count + (1 - params.lambda) * previous

/-- A count of the neighbours. -/
def onDensity (neighbours : ℕ) (s : J2945Node) : J2945Node :=
  let smoothedDensity := smoothDensity J2945Params.rostami s.smoothedDensity neighbours
  { s with smoothedDensity, itt := maxIttFor J2945Params.rostami smoothedDensity }

/-- A measurement of the load. -/
def onCbr (cbr : ℚ) (s : J2945Node) : J2945Node :=
  let cbp := clamp cbr 0 1
  { s with cbp, hasMeasurement := true, rpDbm := supraStep J2945Params.rostami s.rpDbm cbp }

/-- Decides on a frame. -/
def gate (floor : En302571Floor) (now : SimTime) (req : TxRequest) (s : J2945Node) :
    GateDecision × J2945Node :=
  if floor.admits req.airTime = false then (.drop, s)
  else if now < s.gateOpenAt then (.delayUntil s.gateOpenAt, s)
  else
    let wait := Duration.longer (floor.tOff req.airTime s.cbp) s.itt
    (.now (min s.rpDbm req.powerDbm) req.mcs, { s with gateOpenAt := wait.after now })

end J2945Node

end V2xw.Radio
