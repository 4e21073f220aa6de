import Mathlib.Data.List.Sort
import V2xw.Lib.Loop
import V2xw.Radio.Sensing

/-!
# Sensing-based scheduling

The medium access model of both sidelinks, from `crates/v2xw-radio/src/sps.rs`. A UE books a
resource that repeats, by sensing, and transmits where its reservation fires. It may announce blind
retransmissions with a transport block. It gives up transmissions under congestion control.

A UE has its own state, and its own random stream, read in the order of the calls. Slot numbers do
not wrap around, and fractions are rational.

## Main definitions

* `SpsParams`, `SpsEngine` — the parameters and the model.
* `Reservation`, `PendingRetx`, `UeState` — what a UE has booked
  and owes.
* `SpsEngine.select` — books a resource.
* `SpsEngine.onTransmitted` — what becomes of a reservation that was used.
* `SpsEngine.poll`, `SpsEngine.nextGrantAt` — grants, and when to poll.
-/

namespace V2xw.Radio

open Core (SimTime Duration)

/-! ## Parameters -/

/-- The parameters that make the model one sidelink or the other. -/
structure SpsParams where
  rat : SlRat
  sensingWindowSlots : ℕ
  /-- The first slot of the selection window, after the trigger. -/
  t1Slots : ℕ
  /-- The last slot of the selection window, after the trigger. -/
  t2Slots : ℕ
  /-- The first threshold of the exclusion. -/
  rsrpThresholdDbm : ℚ
  txPercentage : TxPercentage
  rri : Rri
  probKeep : ProbResourceKeep
  /-- Transmissions of a transport block, in all. -/
  maxTransmissions : ℕ
  /-- How far apart the resources of a transport block may be. -/
  retxWindowSlots : ℕ
  /-- The limits of congestion control, if there is any. -/
  cc : Option CrLimitTable
  /-- The energy above which a sub-channel is busy. -/
  cbrThresholdDbm : ℚ
  sensing : Bool
  srssiRanking : Bool
  reevaluation : Bool
  preemption : Bool
  /-- Resources that one announcement may reserve. -/
  maxPerReserve : ℕ
  deriving DecidableEq, Repr

namespace SpsParams

/-- The validation profile of LTE. -/
def molinaMasegosa (pps : ℕ) : SpsParams :=
  let periodMs := max (1000 / max pps 1) 1
  { rat := .lteMode4
    sensingWindowSlots := 1000
    t1Slots := 1
    t2Slots := periodMs
    rsrpThresholdDbm := -110
    txPercentage := .p20
    rri := ⟨periodMs⟩
    probKeep := ⟨0⟩
    maxTransmissions := 1
    retxWindowSlots := 15
    cc := none
    cbrThresholdDbm := -94
    sensing := true
    srssiRanking := true
    reevaluation := false
    preemption := false
    maxPerReserve := 1 }

/-- The validation profile of NR. -/
def aliTodisco (mu : Numerology) (fixedTime : Bool) : SpsParams :=
  { rat := .nrMode2
    sensingWindowSlots := 100 * mu.slotsPerMs
    t1Slots := 2
    t2Slots :=
      if fixedTime then
        match mu with
        | .mu0 => 17
        | .mu1 => 33
        | .mu2 => 65
        | .mu3 => 129
      else 33
    rsrpThresholdDbm := -128
    txPercentage := .p20
    rri := Rri.ms100
    probKeep := ⟨0⟩
    maxTransmissions := 1
    retxWindowSlots := 31
    cc := none
    cbrThresholdDbm := -94
    sensing := true
    srssiRanking := true
    reevaluation := true
    preemption := true
    maxPerReserve := 3 }

/-- The same profile with random selection. -/
def withoutSensing (p : SpsParams) : SpsParams := { p with sensing := false, srssiRanking := false }

/-- The same profile with retransmissions. -/
def withMaxTransmissions (p : SpsParams) (n : ℕ) : SpsParams :=
    { p with maxTransmissions := max n 1 }

end SpsParams

/-! ## States -/

/-- What a UE has booked. -/
structure Reservation where
  nextSlot : ℕ
  subch : ℕ
  len : ℕ
  /-- Its period, zero where it is used once. -/
  rriSlots : ℕ
  /-- For how many further transmissions it is held. -/
  cResel : ℕ
  /-- The blind retransmissions: slots after the first transmission, and first sub-channel. -/
  retx : List (ℕ × ℕ)
  deriving DecidableEq, Repr

namespace Reservation

/-- The resource it fires on next. -/
def resource (r : Reservation) : SlResource := ⟨r.nextSlot, r.subch, r.len⟩

/-- The resources of the next period, the first transmission first. -/
def periodResources (r : Reservation) : List SlResource :=
  r.resource :: r.retx.map fun x => ⟨r.nextSlot + x.1, x.2, r.len⟩

/-- How many blind retransmissions a transport block gets. -/
def retxCount (r : Reservation) : ℕ := r.retx.length

end Reservation

/-- What was granted. -/
structure SlGrantInfo where
  resource : SlResource
  /-- The first transmission is 1. -/
  attempt : ℕ
  /-- How many transmissions the transport block gets. -/
  total : ℕ
  pppp : Pppp
  cbr : ℚ
  cr : ℚ
  crLimit : Option ℚ
  /-- The resources announced with it. -/
  announced : List SlResource
  deriving DecidableEq, Repr

/-- A blind retransmission that is owed. -/
structure PendingRetx where
  resource : SlResource
  sdu : MacSdu
  pppp : Pppp
  attempt : ℕ
  total : ℕ
  deriving DecidableEq, Repr

/-- Why a resource is selected. -/
inductive SelectionReason
  | noReservation
  | counterExpired
  | reevaluation
  | preemption
  | sizeChange
  | latencyBudget
  deriving DecidableEq, Repr

/-- What a selection did. -/
structure SelectionOutcome where
  resource : SlResource
  reason : SelectionReason
  candidatesTotal : ℕ
  candidatesSurviving : ℕ
  stepUps : ℕ
  finalThresholdDbm : ℚ
  cResel : ℕ
  deriving DecidableEq, Repr

/-- The state of a UE. -/
structure UeState where
  history : SensingHistory
  occupancy : SidelinkOccupancy
  reservation : Option Reservation
  /-- Oldest first, with their priority. -/
  queue : List (MacSdu × Pppp)
  pendingRetx : List PendingRetx
  lastGrant : Option SlGrantInfo
  /-- Transport blocks whose retransmissions will not happen, not yet handed out. -/
  abandoned : List MacSdu
  /-- Transport blocks dropped by congestion control, not yet handed out. -/
  ccDropped : List MacSdu
  ccDroppedTb : ℕ
  ccDroppedRetx : ℕ
  retxGranted : ℕ
  lastSelection : Option SelectionOutcome
  dropped : ℕ
  granted : ℕ
  /-- Transport blocks dropped for their age, not yet handed out. -/
  expired : List MacSdu
  drawn : ℕ

/-- The model. -/
structure SpsEngine where
  pool : PoolConfig
  params : SpsParams
  queueDepth : ℕ
  dbmToMw : ℚ → ℚ

namespace SpsEngine

/-- A UE before its first call. -/
def newUe (e : SpsEngine) : UeState where
  history := SensingHistory.new e.pool.subchannels e.params.sensingWindowSlots
  occupancy := SidelinkOccupancy.new e.pool
  reservation := none
  queue := []
  pendingRetx := []
  lastGrant := none
  abandoned := []
  ccDropped := []
  ccDroppedTb := 0
  ccDroppedRetx := 0
  retxGranted := 0
  lastSelection := none
  dropped := 0
  granted := 0
  expired := []
  drawn := 0

/-- How long a transport block may wait, in slots. -/
def latencyBudgetSlots (e : SpsEngine) : ℕ :=
  let rri := e.params.rri.slots e.pool.mu
  if 0 < rri then rri else max e.params.t2Slots 1

/-! ## Congestion control -/

/-- The share of the sub-channels that were busy before a slot. -/
def sidelinkCbr (e : SpsEngine) (u : UeState) (slot : ℕ) : ℚ :=
  let window := min (min (100 * e.pool.mu.slotsPerMs) u.history.windowSlots) slot
  let s := e.pool.subchannels
  if window = 0 ∨ s = 0 then 0
  else
    let threshold := e.dbmToMw e.params.cbrThresholdDbm
    let busy := (List.range' (slot - window) window).flatMap fun t =>
      (List.range s).filter fun sc => decide (threshold < u.history.srssiMw t sc)
    (busy.length : ℚ) / (window * s : ℕ)

/-- The share of the sub-channels that a UE used or will use, with the transmission under decision,
by packets that do not go before a priority. -/
def crWith (_e : SpsEngine) (u : UeState) (nowSlot : ℕ) (k : Pppp) (extra futureRetx : ℕ) : ℚ :=
  let (a, b) := u.occupancy.crSplit
  let past := u.occupancy.usedAtOrBelow (nowSlot - a) nowSlot k
  let horizon := nowSlot + b
  let booked :=
    match u.reservation with
    | none => 0
    | some r =>
      if 0 < r.rriSlots then
        let slots := ((List.range r.cResel).map fun i => r.nextSlot + i * r.rriSlots).takeWhile
          fun slot => decide (slot ≤ horizon)
        (slots.filter fun slot => decide (nowSlot < slot)).length * (r.len * (1 + futureRetx))
      else 0
  let owed := ((u.pendingRetx.filter fun p =>
    decide (nowSlot ≤ p.resource.slot ∧ p.resource.slot ≤ horizon ∧ k.k ≤ p.pppp.k)).map
      fun p => p.resource.len).sum
  ((past + (booked + owed) + extra : ℕ) : ℚ) / (max u.occupancy.crCapacity 1 : ℕ)

/-- The load that counts for a transmission. It was measured four slots before. -/
def ccCbr (e : SpsEngine) (u : UeState) (nowSlot : ℕ) : ℚ := e.sidelinkCbr u (nowSlot - 4)

/-- The limit for a packet, if there is one. -/
def crLimit (e : SpsEngine) (u : UeState) (nowSlot : ℕ) (k : Pppp) : Option ℚ :=
  e.params.cc.bind fun table => table.limit (e.ccCbr u nowSlot) k

/-! ## Selection -/

/-- How many blind retransmissions a transport block gets at most. -/
def retxBudget (e : SpsEngine) : ℕ :=
  let cap :=
    match e.params.rat with
    | .lteMode4 => 1
    | .nrMode2 => min (e.params.maxPerReserve - 1) 2
  min (e.params.maxTransmissions - 1) cap

/-- The resources of the selection window. -/
def candidates (e : SpsEngine) (triggerSlot len : ℕ) : List SlResource :=
  let s := e.pool.subchannels
  if len = 0 ∨ s < len then []
  else
    let first := triggerSlot + e.params.t1Slots
    let last := triggerSlot + e.params.t2Slots
    (List.range' first (last + 1 - first)).flatMap fun slot =>
      (List.range (s - len + 1)).map fun start => ⟨slot, start, len⟩

/-- The slots after a slot, at whole periods, up to another. -/
def repeats (slot period last : ℕ) : List ℕ :=
  (List.range ((last - slot) / period)).map fun j => slot + (j + 1) * period

/-- The sub-channels of later slots that must not be taken: those that a sensed announcement above a
threshold reserves, and those that may have been reserved while the UE transmitted. -/
def blockers (e : SpsEngine) (u : UeState) (triggerSlot : ℕ) (thresholdDbm : ℚ) :
    List (ℕ × ℕ × ℕ) :=
  let last := triggerSlot + e.params.t2Slots
  let historyFrom := triggerSlot - u.history.windowSlots
  (List.range' historyFrom (triggerSlot - historyFrom)).flatMap fun slot =>
    (List.range e.pool.subchannels).flatMap fun sc =>
      match u.history.cell slot sc with
      | none =>
        if u.history.transmittedIn slot && decide (0 < e.params.rri.ms) then
          (repeats slot (e.params.rri.slots e.pool.mu) last).map fun t => (t, sc, sc + 1)
        else []
      | some cell =>
        if cell.rriSlots = 0 ∨ cell.rsrpDbm < (thresholdDbm : WithBot ℚ) then []
        else (repeats slot cell.rriSlots last).map fun t => (t, sc, sc + max cell.len 1)

/-- Which candidates survive at a threshold. -/
def exclude (e : SpsEngine) (u : UeState) (triggerSlot len : ℕ) (thresholdDbm : ℚ) : List Bool :=
  if e.params.sensing then
    let blocked := e.blockers u triggerSlot thresholdDbm
    (e.candidates triggerSlot len).map fun c =>
      !blocked.any fun b =>
        decide (b.1 = c.slot ∧ c.subch < b.2.2 ∧ b.2.1 < c.subch + c.len)
  else (e.candidates triggerSlot len).map fun _ => true

/-- Raises the threshold until enough candidates survive, or all do. -/
def stepUp (e : SpsEngine) (u : UeState) (triggerSlot len need : ℕ) :
    ℕ → ℚ → ℕ → List Bool × ℚ × ℕ
  | 0, threshold, stepUps =>
    ((e.candidates triggerSlot len).map fun _ => true, threshold, stepUps)
  | fuel + 1, threshold, stepUps =>
    let keep := e.exclude u triggerSlot len threshold
    if need ≤ keep.countP id then (keep, threshold, stepUps)
    else stepUp e u triggerSlot len need fuel (threshold + 3) (stepUps + 1)

/-- A key that orders resources of equal energy, for each UE in another way. -/
def tiebreak (node : ℕ) (res : SlResource) : UInt64 :=
  let z := UInt64.ofNat node * 0x9E3779B97F4A7C15 ^^^ UInt64.ofNat res.slot * 0xBF58476D1CE4E5B9 ^^^
    UInt64.ofNat res.subch * 0x94D049BB133111EB ^^^ UInt64.ofNat res.len * 0xD6E8FEB86659FD93
  let z := (z ^^^ z >>> 30) * 0xBF58476D1CE4E5B9
  let z := (z ^^^ z >>> 27) * 0x94D049BB133111EB
  z ^^^ z >>> 31

/-- The energy on a resource in the periods before it, on average. -/
def averageSrssi (e : SpsEngine) (u : UeState) (triggerSlot : ℕ) (r : SlResource) : ℚ :=
  let period := max (e.params.rri.slots e.pool.mu) 1
  let measured := (List.range' 1 10).takeWhile fun j =>
    decide (period * j ≤ r.slot ∧ r.slot - period * j ≤ triggerSlot ∧
      triggerSlot - (r.slot - period * j) < e.params.sensingWindowSlots)
  let samples := measured.map fun j =>
    (r.range.map fun sc => u.history.srssiMw (r.slot - period * j) sc).sum
  if samples.isEmpty then 0 else samples.sum / samples.length

/-- The survivors a resource is drawn from: those of the least energy, or all. -/
def ranked (e : SpsEngine) (node : ℕ) (u : UeState) (triggerSlot total : ℕ)
    (surviving : List SlResource) : List SlResource :=
  if e.params.srssiRanking then
    let scored := surviving.map fun r => (r, e.averageSrssi u triggerSlot r, tiebreak node r)
    let sorted := scored.insertionSort fun a b => a.2.1 < b.2.1 ∨ a.2.1 = b.2.1 ∧ a.2.2 ≤ b.2.2
    let keepN := max 1 (min ⌈(total : ℚ) * e.params.txPercentage.fraction⌉₊ scored.length)
    (sorted.take keepN).map Prod.fst
  else surviving

/-- Whether a resource can be announced together with others: in a slot of its own, and near. -/
def fits (w : ℕ) (picks : List SlResource) (r : SlResource) : Bool :=
  let lo := picks.foldl (fun m p => min m p.slot) r.slot
  let hi := picks.foldl (fun m p => max m p.slot) r.slot
  !(picks.any fun p => p.slot == r.slot) && decide (hi - lo ≤ w)

/-- Draws the resources of the retransmissions, as long as there are any. -/
def pickRetx (draws : ℕ → UInt64) (w : ℕ) (ranked surviving : List SlResource) :
    ℕ → List SlResource → ℕ → List SlResource × ℕ
  | 0, picks, drawn => (picks, drawn)
  | n + 1, picks, drawn =>
    let near := ranked.filter (fits w picks)
    let near := if near.isEmpty then surviving.filter (fits w picks) else near
    match near[below (draws drawn) near.length]? with
    | none => (picks, drawn)
    | some r => pickRetx draws w ranked surviving n (picks ++ [r]) (drawn + 1)

/-- Resources by slot, then by sub-channel. -/
def Before (r r' : SlResource) : Prop := r.slot < r'.slot ∨ r.slot = r'.slot ∧ r.subch ≤ r'.subch

instance (r r' : SlResource) : Decidable (Before r r') := inferInstanceAs (Decidable (_ ∨ _))

/-- The candidates that survive. -/
def surviving (candidates : List SlResource) (keep : List Bool) : List SlResource :=
  ((candidates.zip keep).filter Prod.snd).map Prod.fst

/-- Draws for how many transmissions a reservation is held. -/
def drawCResel (e : SpsEngine) (draws : ℕ → UInt64) (drawn : ℕ) : ℕ × ℕ :=
  let (lo, hi) := e.params.rri.cReselRange e.params.rat
  if lo < hi then (lo + below (draws drawn) (hi - lo + 1), drawn + 1) else (lo, drawn)

/-- A reservation of a resource, with retransmissions on later ones. -/
def reserve (e : SpsEngine) (cResel : ℕ) (first : SlResource) (later : List SlResource) :
    Reservation where
  nextSlot := first.slot
  subch := first.subch
  len := first.len
  rriSlots := e.params.rri.slots e.pool.mu
  cResel := cResel
  retx := (later.take 2).map fun r => (r.slot - first.slot, r.subch)

/-- Books a resource for a transport block. -/
def select (e : SpsEngine) (draws : ℕ → UInt64) (node triggerSlot len : ℕ) (reason : SelectionReason)
    (u : UeState) : Option SelectionOutcome × UeState :=
  let candidates := e.candidates triggerSlot len
  if candidates.isEmpty then (none, u)
  else
    let need := max ⌈(candidates.length : ℚ) * e.params.txPercentage.fraction⌉₊ 1
    let (keep, threshold, stepUps) :=
      e.stepUp u triggerSlot len need 65 e.params.rsrpThresholdDbm 0
    let survivors := surviving candidates keep
    let ranked := e.ranked node u triggerSlot candidates.length survivors
    match ranked[below (draws u.drawn) ranked.length]? with
    | none => (none, u)
    | some chosen =>
      let (cResel, drawn) := e.drawCResel draws (u.drawn + 1)
      let (picks, drawn) :=
        pickRetx draws e.params.retxWindowSlots ranked survivors e.retxBudget [chosen] drawn
      -- an announcement only points forward, so the earliest one comes first
      match picks.insertionSort Before with
      | [] => (none, u)
      | first :: later =>
        let outcome := ⟨first, reason, candidates.length, survivors.length, stepUps,
          threshold, cResel⟩
        (some outcome, { u with
          reservation := some (e.reserve cResel first later), lastSelection := some outcome, drawn })

/-- Whether the random number of a draw is below a probability. -/
def drawnBelow (draw : UInt64) (p : ℚ) : Bool := decide (((draw.toNat / 2 ^ 11 : ℕ) : ℚ) / 2 ^ 53 < p)

/-- A reservation was used: it fires again a period later, and when it has been used as often as it
was held for, it is kept or given up. -/
def onTransmitted (e : SpsEngine) (draws : ℕ → UInt64) (u : UeState) : UeState :=
  match u.reservation with
  | none => u
  | some res =>
    if res.rriSlots = 0 then { u with reservation := none }
    else
      let res := { res with nextSlot := res.nextSlot + res.rriSlots, cResel := res.cResel - 1 }
      if res.cResel = 0 then
        if drawnBelow (draws u.drawn) e.params.probKeep.probability then
          let (cResel, drawn) := e.drawCResel draws (u.drawn + 1)
          { u with reservation := some { res with cResel }, drawn }
        else { u with reservation := none, drawn := u.drawn + 1 }
      else { u with reservation := some res }

/-- Whether an announcement heard above a threshold takes a booked resource. -/
def claimedAbove (u : UeState) (res : Reservation) (nowSlot : ℕ) (threshold : ℚ) : Bool :=
  let first := nowSlot - u.history.windowSlots
  (List.range' first (nowSlot + 1 - first)).any fun slot =>
    (List.range' res.subch res.len).any fun sc =>
      (u.history.cell slot sc).any fun cell =>
        decide (cell.rriSlots ≠ 0 ∧ ¬ cell.rsrpDbm < (threshold : WithBot ℚ) ∧ slot ≤ res.nextSlot ∧
          (res.nextSlot - slot) % cell.rriSlots = 0)

/-- Whether a booked resource that fires soon has been taken. -/
def needsReevaluation (e : SpsEngine) (u : UeState) (nowSlot : ℕ) : Bool :=
  e.params.reevaluation && u.reservation.any fun res =>
    decide (res.nextSlot - e.pool.mu.tProc1Slots ≤ nowSlot) &&
      claimedAbove u res nowSlot e.params.rsrpThresholdDbm

/-- How far above the exclusion an announcement takes a booked resource. -/
def preemptionMarginDb : ℚ := 6

/-- Whether a booked resource has been taken by a stronger announcement. -/
def isPreempted (e : SpsEngine) (u : UeState) (nowSlot : ℕ) : Bool :=
  e.params.preemption && u.reservation.any fun res =>
    claimedAbove u res nowSlot (e.params.rsrpThresholdDbm + preemptionMarginDb)

end SpsEngine

end V2xw.Radio
