import Mathlib.Data.Prod.Lex
import V2xw.Core.Time
import V2xw.Lib.MinQueue
import V2xw.Lib.OrdMap

/-!
# Fragment reassembly

The reassembly buffer of `crates/v2xw-net/src/frag.rs`, keyed by sender and SDU, with its timeout,
its memory of completed SDUs and its two capacity rules; and the two fragmenters that put one
behind their `reassemble` and `expire`, `frag/generic.rs` and `frag/cert_cycle.rs`.

## Main definitions

* `IndexSet` — the 256-bit set of arrived indices.
* `ReassemblyBuffer` — the buffer, with `purge`, `remember`, `accept`, `expire` and
  `takeExpired`.
* `GenericSduFragmenter`, `CertCyclePartialHybrid` — the receiving side of the
  two fragmenters.

## Implementation notes

The counters of the source are `u16`, `u32` and `usize`; they are naturals here, with the one
saturating addition (of the payload bytes) written out. Records a fragmenter emits on its context
are part of what its calls return.
-/

namespace V2xw.Net

open V2xw.Core

/-- A node. -/
abbrev NodeId := ℕ

/-- A service data unit. -/
abbrev SduId := ℕ

/-- A reassembly is keyed by the sender and the SDU, in this order. -/
abbrev Key := NodeId ×ₗ SduId

/-- The largest fragment index a buffer tracks, plus one. -/
def reassemblyMaxFragments : ℕ := 256

/-- What kind of piece a fragment is. -/
inductive FragmentKind
  | whole | segment | piece | certFragment
  deriving DecidableEq, Repr

/-- One fragment of one SDU. -/
structure FragmentDesc where
  /-- The SDU this fragment belongs to. -/
  sdu : SduId
  index : ℕ
  /-- How many fragments the SDU was split into. -/
  count : ℕ
  /-- The fragmentation overhead, bytes. -/
  headerBytes : ℕ
  /-- The SDU bytes this fragment carries. -/
  payloadBytes : ℕ
  kind : FragmentKind
  deriving DecidableEq, Repr

/-- The descriptor is an unsplit SDU. -/
def FragmentDesc.isWhole (f : FragmentDesc) : Bool := f.count == 1

/-- Why a fragment or a set was discarded. -/
inductive DropCause
  | unexpectedFragment (index count : ℕ)
  | fragmentCountMismatch (had saw : ℕ)
  | tooManyFragments (needed max : ℕ)
  | reassemblyBufferFull (opened max : ℕ)
  deriving DecidableEq, Repr

/-- What a reassembly step concluded. The field the source calls `have` is `got` here. -/
inductive ReassemblyOutcome
  | pending (sdu : SduId) (got want : ℕ)
  | complete (sdu : SduId) (bytes segments : ℕ)
  | failed (sdu : SduId) (cause : DropCause)
  | duplicate (sdu : SduId) (segments : ℕ)
  | expired (sdu : SduId) (got want bytes : ℕ)
  deriving DecidableEq, Repr

namespace ReassemblyOutcome

/-- The stable label an outcome is recorded under. -/
def label : ReassemblyOutcome → String
  | pending .. => "pending"
  | complete .. => "complete"
  | failed .. => "failed"
  | duplicate .. => "duplicate"
  | expired .. => "expired"

/-- The SDU's content will never be delivered. -/
def isLoss : ReassemblyOutcome → Bool
  | failed .. => true
  | expired .. => true
  | _ => false

end ReassemblyOutcome

/-- The record of one outcome at one node. -/
structure FragRecord where
  /-- The receiving node's clock. -/
  tNs : SimTime
  node : NodeId
  sdu : SduId
  /-- How many fragments the SDU was split into. -/
  fragments : ℕ
  /-- How many distinct fragments had arrived. -/
  got : ℕ
  /-- Payload bytes delivered or discarded. -/
  bytes : ℕ
  outcome : String
  deriving DecidableEq, Repr

/-- The record for one outcome. -/
def FragRecord.new (tNs : SimTime) (node : NodeId) (o : ReassemblyOutcome) : FragRecord :=
  match o with
  | .pending sdu got want => ⟨tNs, node, sdu, want, got, 0, o.label⟩
  | .complete sdu bytes segments => ⟨tNs, node, sdu, segments, segments, bytes, o.label⟩
  | .duplicate sdu segments => ⟨tNs, node, sdu, segments, segments, 0, o.label⟩
  | .failed sdu _ => ⟨tNs, node, sdu, 0, 0, 0, o.label⟩
  | .expired sdu got want bytes => ⟨tNs, node, sdu, want, got, bytes, o.label⟩

/-- A fragmentation event or a loss is recorded, an ordinary delivery is not. -/
def shouldRecord (frag : FragmentDesc) (o : ReassemblyOutcome) : Bool :=
  !frag.isWhole || o.isLoss

/-! ## The set of arrived indices -/

/-- Which fragment indices of one SDU have arrived: four 64-bit words. -/
structure IndexSet where
  /-- The words, lowest indices first. -/
  words : Vector (BitVec 64) 4
  deriving DecidableEq

namespace IndexSet

/-- No index has arrived. -/
def empty : IndexSet := ⟨Vector.replicate 4 0⟩

/-- Marks an index; the flag is `true` if it was not set. -/
def mark (s : IndexSet) (index : ℕ) : Bool × IndexSet :=
  let word := index / 64
  let mask := 1#64 <<< (index % 64)
  let was := s.words[word]! &&& mask != 0
  (!was, ⟨s.words.set! word (s.words[word]! ||| mask)⟩)

end IndexSet

/-! ## The buffer -/

/-- One SDU this receiver has delivered, remembered for a timeout. -/
structure Completed where
  /-- How many fragments it was delivered from. -/
  segments : ℕ
  /-- When the memory of it is dropped. -/
  deadline : SimTime
  deriving DecidableEq, Repr

/-- One partly received SDU. -/
structure Entry where
  /-- How many fragments the first arrival declared. -/
  want : ℕ
  /-- How many distinct fragments have arrived. -/
  got : ℕ
  /-- Which indices have arrived. -/
  seen : IndexSet
  bytes : ℕ
  deadline : SimTime
  deriving DecidableEq

/-- The reassembly buffer of one receiver. -/
structure ReassemblyBuffer where
  entries : OrdMap Key Entry
  /-- The SDUs completed within the last timeout. -/
  completed : OrdMap Key Completed
  /-- Outcomes of sets retired and not yet drained. -/
  expired : List ReassemblyOutcome
  /-- How many SDUs may be open, and how many completions are remembered. -/
  maxOpen : ℕ
  timeout : Duration

namespace ReassemblyBuffer

/-- An empty buffer. -/
def new (maxOpen : ℕ) (timeout : Duration) : ReassemblyBuffer where
  entries := ∅
  completed := ∅
  expired := []
  maxOpen := maxOpen
  timeout := timeout

/-- How many SDUs are partly received. -/
def opened (b : ReassemblyBuffer) : ℕ := b.entries.size

/-- How many completed keys are still remembered. -/
def remembered (b : ReassemblyBuffer) : ℕ := b.completed.size

/-- The outcome of abandoning a set. -/
def expiredOutcome (key : Key) (e : Entry) : ReassemblyOutcome :=
  .expired (ofLex key).2 e.got e.want e.bytes

/-- The sets whose deadline has passed, in key order. -/
def stale (b : ReassemblyBuffer) (now : SimTime) : List (Key × Entry) :=
  b.entries.toList.filter (fun p => p.2.deadline ≤ now)

/-- Forgets the completions whose deadline has passed and moves the stale sets to the expired
queue. -/
def purge (b : ReassemblyBuffer) (now : SimTime) : ReassemblyBuffer :=
  { b with
    completed := b.completed.filter (fun _ c => now < c.deadline)
    entries := b.entries.filter (fun _ e => ¬ e.deadline ≤ now)
    expired := b.expired ++ (b.stale now).map (fun p => expiredOutcome p.1 p.2) }

/-- The completion with the earliest deadline, the lowest key among equal ones. -/
def oldest (b : ReassemblyBuffer) : Option Key :=
  (MinQueue.extractMin (fun p : Key × Completed => toLex (p.2.deadline, p.1))
    b.completed.toList).map (·.1.1)

/-- Makes room for one more completion by forgetting the oldest. -/
def evictOldest (b : ReassemblyBuffer) (key : Key) : ReassemblyBuffer :=
  if b.maxOpen ≤ b.completed.size ∧ b.completed[key]? = none then
    match b.oldest with
    | some old => { b with completed := b.completed.erase old }
    | none => b
  else b

/-- Remembers a completed key for one timeout. -/
def remember (b : ReassemblyBuffer) (key : Key) (segments : ℕ) (now : SimTime) :
    ReassemblyBuffer :=
  let b := b.evictOldest key
  { b with completed := b.completed.insert key ⟨segments, b.timeout.after now⟩ }

/-- A fragment of a set that is open. -/
def acceptOpen (b : ReassemblyBuffer) (now : SimTime) (key : Key) (entry : Entry)
    (frag : FragmentDesc) : ReassemblyOutcome × ReassemblyBuffer :=
  if entry.want ≠ frag.count then
    (.failed frag.sdu (.fragmentCountMismatch entry.want frag.count),
      { b with entries := b.entries.erase key })
  else
    let (isNew, seen) := entry.seen.mark frag.index
    if !isNew then
      (.pending frag.sdu entry.got entry.want,
        { b with entries := b.entries.insert key { entry with seen := seen } })
    else
      let got := entry.got + 1
      let bytes := min (entry.bytes + frag.payloadBytes) (2 ^ 32 - 1)
      if got = entry.want then
        (.complete frag.sdu bytes entry.want,
          { b with entries := b.entries.erase key }.remember key entry.want now)
      else
        (.pending frag.sdu got entry.want,
          { b with
            entries := b.entries.insert key
              { entry with seen := seen, got := got, bytes := bytes } })

/-- A fragment of a set that is not open: one already delivered, or a new one. -/
def acceptNew (b : ReassemblyBuffer) (now : SimTime) (key : Key) (frag : FragmentDesc) :
    ReassemblyOutcome × ReassemblyBuffer :=
  match b.completed[key]? with
  | some done =>
    if done.segments = frag.count then (.duplicate frag.sdu done.segments, b)
    else
      (.failed frag.sdu (.fragmentCountMismatch done.segments frag.count),
        { b with completed := b.completed.erase key })
  | none =>
    if b.maxOpen ≤ b.entries.size then
      (.failed frag.sdu (.reassemblyBufferFull b.entries.size b.maxOpen), b)
    else
      (.pending frag.sdu 1 frag.count,
        { b with
          entries := b.entries.insert key
            { want := frag.count
              got := 1
              seen := (IndexSet.empty.mark frag.index).2
              bytes := frag.payloadBytes
              deadline := b.timeout.after now } })

/-- Takes one arriving fragment. -/
def accept (b : ReassemblyBuffer) (now : SimTime) (sender : NodeId) (frag : FragmentDesc) :
    ReassemblyOutcome × ReassemblyBuffer :=
  let b := b.purge now
  if frag.count = 0 ∨ frag.count ≤ frag.index then
    (.failed frag.sdu (.unexpectedFragment frag.index frag.count), b)
  else if reassemblyMaxFragments < frag.count then
    (.failed frag.sdu (.tooManyFragments frag.count reassemblyMaxFragments), b)
  else if frag.count = 1 then (.complete frag.sdu frag.payloadBytes 1, b)
  else
    let key : Key := toLex (sender, frag.sdu)
    match b.entries[key]? with
    | some entry => b.acceptOpen now key entry frag
    | none => b.acceptNew now key frag

/-- Drains the outcomes of sets already retired. -/
def takeExpired (b : ReassemblyBuffer) : List ReassemblyOutcome × ReassemblyBuffer :=
  (b.expired, { b with expired := [] })

/-- Retires every set whose deadline has passed and returns the outcomes. -/
def expire (b : ReassemblyBuffer) (now : SimTime) : List ReassemblyOutcome × ReassemblyBuffer :=
  (b.purge now).takeExpired

end ReassemblyBuffer

/-! ## The fragmenters -/

/-- The receiving side of `fragmenter/generic-sdu`. -/
structure GenericSduFragmenter where
  buffer : ReassemblyBuffer
  /-- Sets retired by `reassemble`, waiting to be returned by `expire`. -/
  retired : List ReassemblyOutcome

namespace GenericSduFragmenter

/-- The fragmenter with the given capacity and timeout. -/
def new (maxOpenSdus reassemblyTimeoutMs : ℕ) : GenericSduFragmenter where
  buffer := .new maxOpenSdus (.fromMillis reassemblyTimeoutMs)
  retired := []

/-- Takes one arriving fragment: the outcome, the records emitted, and the next state. -/
def reassemble (f : GenericSduFragmenter) (now : SimTime) (rx : NodeId) (frag : FragmentDesc)
    (sender : NodeId) : ReassemblyOutcome × List FragRecord × GenericSduFragmenter :=
  let (outcome, buffer) := f.buffer.accept now sender frag
  let (drained, buffer) := buffer.takeExpired
  (outcome,
    drained.map (FragRecord.new now rx) ++
      (if shouldRecord frag outcome then [FragRecord.new now rx outcome] else []),
    ⟨buffer, f.retired ++ drained⟩)

/-- Retires every set whose timer has run out: the outcomes, the records emitted, and the next
state. -/
def expire (f : GenericSduFragmenter) (rx : NodeId) (now : SimTime) :
    List ReassemblyOutcome × List FragRecord × GenericSduFragmenter :=
  let (outcomes, buffer) := f.buffer.expire now
  (f.retired ++ outcomes, outcomes.map (FragRecord.new now rx), ⟨buffer, []⟩)

end GenericSduFragmenter

/-- The receiving side of `fragmenter/cert-cycle-partial-hybrid`. -/
structure CertCyclePartialHybrid where
  buffer : ReassemblyBuffer

namespace CertCyclePartialHybrid

/-- The number of partly received certificates one node keeps state for. -/
def maxOpenCertificates : ℕ := 512

/-- The fragmenter with the given cycle period. -/
def new (cyclePeriodMs : ℕ) : CertCyclePartialHybrid :=
  ⟨.new maxOpenCertificates (.fromMillis cyclePeriodMs)⟩

/-- Takes one arriving fragment: the outcome, the records emitted, and the next state. -/
def reassemble (f : CertCyclePartialHybrid) (now : SimTime) (rx : NodeId) (frag : FragmentDesc)
    (sender : NodeId) : ReassemblyOutcome × List FragRecord × CertCyclePartialHybrid :=
  let (outcome, buffer) := f.buffer.accept now sender frag
  let (drained, buffer) := buffer.takeExpired
  (outcome,
    drained.map (FragRecord.new now rx) ++
      (if shouldRecord frag outcome then [FragRecord.new now rx outcome] else []),
    ⟨buffer⟩)

/-- Retires every set whose timer has run out: the outcomes, the records emitted, and the next
state. -/
def expire (f : CertCyclePartialHybrid) (rx : NodeId) (now : SimTime) :
    List ReassemblyOutcome × List FragRecord × CertCyclePartialHybrid :=
  let (retired, buffer) := f.buffer.expire now
  (retired, retired.map (FragRecord.new now rx), ⟨buffer⟩)

end CertCyclePartialHybrid

end V2xw.Net
