import V2xw.Lib.Mealy
import V2xw.Radio.Sps

/-!
# The calls on sensing-based scheduling

`enqueue`, `poll`, `next_poll_at` and the notes of `crates/v2xw-radio/src/sps.rs`, and the engine as
a machine with one UE for each node.

## Main definitions

* `Reservation.rolled` — a reservation, rolled forward to a slot.
* `SpsEngine.retransmit`, `SpsEngine.reselect`,
  `SpsEngine.transmit` — the parts of a poll.
* `SpsEngine.poll`, `SpsEngine.nextGrantAt` — grants, and when to poll.
* `SpsEngine.ueStep`, `SpsEngine.step` — a call on a UE, and on the engine.
-/

namespace V2xw.Radio

open Core (SimTime Duration)

/-! ## Rolling forward -/

/-- A slot, moved by whole periods until it is not in the past. -/
def rollLoop (rriSlots nowSlot : ℕ) (h : 0 < rriSlots) : Loop ℕ where
  step slot := if slot < nowSlot then some (slot + rriSlots) else none
  measure slot := nowSlot - slot
  measure_lt := by
    intro s t hst
    split at hst
    · obtain rfl : s + rriSlots = t := by simpa using hst
      omega
    · cases hst

/-- A reservation whose slot has passed fires next where it comes round. -/
def Reservation.rolled (r : Reservation) (nowSlot : ℕ) : Reservation :=
  if h : 0 < r.rriSlots then { r with nextSlot := (rollLoop r.rriSlots nowSlot h).run r.nextSlot }
  else r

namespace SpsEngine

variable (e : SpsEngine) (draws : ℕ → UInt64) (node : ℕ)

/-! ## Parts of a poll -/

/-- Retransmissions whose slot has passed cannot be sent any more. -/
def abandonMissed (nowSlot : ℕ) (u : UeState) : UeState :=
  let missed := u.pendingRetx.filter fun p => decide (p.resource.slot < nowSlot)
  let gone := missed.foldl (fun (gone : List MacSdu) p =>
    if gone.any fun g => g.frame.sduRef == p.sdu.frame.sduRef then gone else gone ++ [p.sdu]) []
  { u with
    pendingRetx := u.pendingRetx.filter fun p => !decide (p.resource.slot < nowSlot)
    abandoned := u.abandoned ++ gone }

/-- Uses a resource for a packet. -/
def use (o : SidelinkOccupancy) (res : SlResource) (slot : ℕ) (k : Pppp) : SidelinkOccupancy :=
  res.range.foldl (fun o sc => o.noteUsedBy slot sc k) o

/-- Sends a retransmission that is due, or drops it with the later ones of its transport block. -/
def retransmit (now : SimTime) (u : UeState) : Option TxGrant × UeState :=
  let nowSlot := e.pool.slotOf now
  match u.pendingRetx.find? fun p => p.resource.slot == nowSlot with
  | none => (none, u)
  | some p =>
    let u := { u with
      pendingRetx := u.pendingRetx.eraseP fun p => p.resource.slot == nowSlot }
    let limit := e.crLimit u nowSlot p.pppp
    let futureRetx := (u.reservation.map Reservation.retxCount).getD 0
    let cr := e.crWith u nowSlot p.pppp p.resource.len futureRetx
    let cbr := e.ccCbr u nowSlot
    if limit.any fun l => decide (l < cr) then
      let rest := u.pendingRetx.filter fun q => q.sdu.frame.sduRef != p.sdu.frame.sduRef
      (none, { u with
        ccDroppedRetx := u.ccDroppedRetx + 1 + (u.pendingRetx.length - rest.length)
        pendingRetx := rest
        abandoned := u.abandoned ++ [p.sdu] })
    else
      let announced := (u.pendingRetx.filter fun q =>
        q.sdu.frame.sduRef == p.sdu.frame.sduRef).map PendingRetx.resource ++ [p.resource]
      (some ⟨p.sdu, .vo, now, 0, 0, p.attempt⟩, { u with
        occupancy := use u.occupancy p.resource nowSlot p.pppp
        retxGranted := u.retxGranted + 1
        granted := u.granted + 1
        lastGrant := some ⟨p.resource, p.attempt, p.total, p.pppp, cbr, cr, limit, announced⟩ })

/-- Drops the transport blocks that have waited for too long, from the oldest on. -/
def dropExpired (nowSlot : ℕ) (u : UeState) : UeState :=
  let old := u.queue.takeWhile fun q =>
    decide (e.pool.slotOf q.1.enqueuedAt + e.latencyBudgetSlots < nowSlot)
  { u with
    queue := u.queue.drop old.length
    dropped := u.dropped + old.length
    expired := u.expired ++ old.map Prod.fst }

/-- Rolls the reservation forward. -/
def rollForward (nowSlot : ℕ) (u : UeState) : UeState :=
  { u with reservation := u.reservation.map fun r => r.rolled nowSlot }

/-- Why the reservation does not serve a transport block, if it does not. -/
def selectionReason (nowSlot len : ℕ) (sdu : MacSdu) (u : UeState) : Option SelectionReason :=
  match u.reservation with
  | none => some .noReservation
  | some r =>
    if r.len < len then some .sizeChange
    else if e.pool.slotOf sdu.enqueuedAt + e.latencyBudgetSlots < r.nextSlot then
      some .latencyBudget
    else if e.isPreempted u nowSlot then some .preemption
    else if e.needsReevaluation u nowSlot then some .reevaluation
    else none

/-- Books another resource where the reservation does not serve a transport block. -/
def reselect (nowSlot len : ℕ) (sdu : MacSdu) (u : UeState) : UeState :=
  match e.selectionReason nowSlot len sdu u with
  | none => u
  | some reason => (e.select draws node nowSlot len reason { u with reservation := none }).2

/-- How many retransmissions are left when as many are given up as the limit demands. -/
def giveUp (limit : ℚ) (cr : ℕ → ℚ) : ℕ → ℕ
  | 0 => 0
  | keep + 1 => if limit < cr (keep + 1) then giveUp limit cr keep else keep + 1

/-- The share of the sub-channels with a first transmission and some of its retransmissions. -/
def crFor (nowSlot : ℕ) (pppp : Pppp) (res : Reservation) (u : UeState) (keep : ℕ) : ℚ :=
  e.crWith u nowSlot pppp (res.len * (1 + keep)) keep

/-- How many retransmissions a first transmission keeps. -/
def retxKeep (nowSlot : ℕ) (pppp : Pppp) (res : Reservation) (u : UeState) : ℕ :=
  match e.crLimit u nowSlot pppp with
  | none => res.retxCount
  | some l => giveUp l (e.crFor nowSlot pppp res u) res.retxCount

/-- Transmits the first transport block on the reservation, or drops it. -/
def transmit (now : SimTime) (sdu : MacSdu) (pppp : Pppp) (res : Reservation) (u : UeState) :
    Option TxGrant × UeState :=
  let nowSlot := e.pool.slotOf now
  let limit := e.crLimit u nowSlot pppp
  let cbr := e.ccCbr u nowSlot
  let retxKeep := e.retxKeep nowSlot pppp res u
  let cr := e.crFor nowSlot pppp res u retxKeep
  let u := { u with ccDroppedRetx := u.ccDroppedRetx + (res.retxCount - retxKeep) }
  if limit.any fun l => decide (l < cr) then
    (none, e.onTransmitted draws { u with
      queue := u.queue.tail
      ccDroppedTb := u.ccDroppedTb + 1
      dropped := u.dropped + 1
      ccDropped := u.ccDropped ++ [sdu] })
  else
    let total := 1 + retxKeep
    let period := res.periodResources
    let owed := ((period.tail.take retxKeep).zipIdx 2).map fun x =>
      (⟨x.1, sdu, pppp, x.2, total⟩ : PendingRetx)
    (some ⟨sdu, .vo, now, 0, 0, 1⟩, e.onTransmitted draws { u with
      granted := u.granted + 1
      queue := u.queue.tail
      occupancy := use u.occupancy res.resource nowSlot pppp
      pendingRetx := (u.pendingRetx ++ owed).insertionSort fun p q =>
        p.resource.slot ≤ q.resource.slot
      lastGrant := some ⟨res.resource, 1, total, pppp, cbr, cr, limit, period.take total⟩ })

/-! ## Calls -/

/-- Queues a transport block. -/
def enqueue (sdu : MacSdu) (ac : AccessCategory) (u : UeState) : Except DropCause Unit × UeState :=
  match e.pool.subchannelsFor sdu.frame.bytes with
  | none => (.error (.tooLarge sdu.frame.bytes (e.pool.payloadBits e.pool.subchannels / 8)), u)
  | some _ =>
    if e.queueDepth ≤ u.queue.length then
      (.error (.queueFull "sidelink" e.queueDepth), { u with dropped := u.dropped + 1 })
    else (.ok (), { u with queue := u.queue ++ [(sdu, Pppp.ofAccessCategory ac)] })

/-- Grants a retransmission that is due, or the first transport block if the reservation fires. -/
def poll (now : SimTime) (u : UeState) : Option TxGrant × UeState :=
  let nowSlot := e.pool.slotOf now
  match e.retransmit now (abandonMissed nowSlot u) with
  | (some grant, u) => (some grant, u)
  | (none, u) =>
    let u := e.dropExpired nowSlot u
    match u.queue with
    | [] => (none, u)
    | (sdu, pppp) :: _ =>
      match e.pool.subchannelsFor sdu.frame.bytes with
      | none => (none, u)
      | some len =>
        let u := e.reselect draws node nowSlot len sdu (rollForward nowSlot u)
        match u.reservation with
        | none => (none, u)
        | some res =>
          if res.nextSlot = nowSlot then e.transmit draws now sdu pppp res u else (none, u)

/-- The next instant the UE has something to do. -/
def nextGrantAt (u : UeState) : Option SimTime :=
  let retx := (u.pendingRetx.map fun p => p.resource.slot).min?
  let initial := if u.queue.isEmpty then none else u.reservation.map Reservation.nextSlot
  ((retx.toList ++ initial.toList).min?).map e.pool.slotStart

/-- A resource was used. -/
def noteTransmitted (res : SlResource) (u : UeState) : UeState :=
  { u with
    history := u.history.noteTransmitted res.slot
    occupancy := res.range.foldl (fun o sc => o.noteUsed res.slot sc) u.occupancy }

end SpsEngine

/-- A call, for a node. -/
inductive SpsCall
  | enqueue (sdu : MacSdu) (ac : AccessCategory)
  | onCca
  | onTxDone (start : SimTime)
  | noteSensed (res : SlResource) (rsrpDbm : ℚ) (rriSlots : ℕ)
  | noteEnergy (slot subch : ℕ) (powerDbm : ℚ)
  | noteJammer (fromSlot toSlot : ℕ) (powerDbm : ℚ)
  | noteTransmitted (res : SlResource)
  | prune (nowSlot : ℕ)
  | poll
  | takeExpired
  | takeAbandoned
  | takeCcDropped
  deriving DecidableEq, Repr

/-- When a call is made, and for which node. -/
structure SpsTimed where
  now : SimTime
  node : ℕ
  call : SpsCall
  deriving DecidableEq, Repr

/-- What a call answers. A grant comes with what the engine reads about it. -/
inductive SpsAnswer
  | none
  | queued (result : Except DropCause Unit)
  | polled (grant : Option (TxGrant × SlGrantInfo))
  | taken (sdus : List MacSdu)
  deriving DecidableEq

namespace SpsEngine

variable (e : SpsEngine)

/-- One call on a UE. -/
def ueStep (draws : ℕ → UInt64) (node : ℕ) (u : UeState) (c : SpsTimed) : SpsAnswer × UeState :=
  match c.call with
  | .enqueue sdu ac =>
    let (result, u) := e.enqueue sdu ac u
    (.queued result, u)
  | .onCca => (.none, u)
  | .onTxDone start => (.none, noteTransmitted ⟨e.pool.slotOf start, 0, 1⟩ u)
  | .noteSensed res rsrpDbm rriSlots =>
    (.none, { u with history := u.history.noteSensed res rsrpDbm rriSlots })
  | .noteEnergy slot subch powerDbm =>
    (.none, { u with history := u.history.noteEnergy slot subch (e.dbmToMw powerDbm) })
  | .noteJammer fromSlot toSlot powerDbm =>
    (.none, { u with
      history := u.history.noteJam fromSlot toSlot (e.dbmToMw powerDbm * e.pool.subchannelShare) })
  | .noteTransmitted res => (.none, noteTransmitted res u)
  | .prune nowSlot => (.none, { u with occupancy := u.occupancy.prune nowSlot })
  | .poll =>
    let (grant, u) := e.poll draws node c.now u
    (.polled (grant.bind fun g => u.lastGrant.map fun info => (g, info)), u)
  | .takeExpired => (.taken u.expired, { u with expired := [] })
  | .takeAbandoned => (.taken u.abandoned, { u with abandoned := [] })
  | .takeCcDropped => (.taken u.ccDropped, { u with ccDropped := [] })

/-- One call on the engine. The draws of each node are a stream. -/
def step (draws : ℕ → ℕ → UInt64) : (ℕ → UeState) → SpsTimed → SpsAnswer × (ℕ → UeState) :=
  Mealy.family SpsTimed.node fun node => e.ueStep (draws node) node

/-- No node has called yet. -/
def init : ℕ → UeState := fun _ => e.newUe

end SpsEngine

end V2xw.Radio
