import Mathlib.Data.Prod.Lex
import Mathlib.Data.List.MinMax
import Mathlib.Data.Rat.Defs
import V2xw.Lib.OrdMap
import V2xw.Node.Server
import V2xw.Record.Wire

/-!
# The clock and the neighbour table

The node's own clock (`crates/v2xw-node/src/clock.rs`) and the neighbour table of
`crates/v2xw-node/src/stores.rs`.

## Main definitions

* `ClockModel` — a clock that follows the fix while there is one and drifts otherwise.
* `NeighborTable` — what a node knows about its peers, with ageing and a capacity.

## Main results

* `ClockModel.Disciplined.advance` — a disciplined clock with a fix stays disciplined.
* `ClockModel.Disciplined.believedTime` — and tells the true time.
-/

namespace V2xw.Node

open Core
open Record (F64)

/-! ## The clock -/

/-- The largest `i64`. -/
def i64Max : ℤ := 2 ^ 63 - 1

/-- The nearest `i64`: a saturating cast or the end of a saturating addition. -/
def clampI64 (z : ℤ) : ℤ := max (-2 ^ 63) (min z i64Max)

/-- A node's clock: locked to the fix when there is one, free-running otherwise. The drift rate is
a rational number here, the `f64` of the source without its rounding. -/
structure ClockModel where
  driftPpm : ℚ
  offsetNs : ℤ := 0
  locked : Bool := true
  lastUpdate : SimTime := 0
  deriving DecidableEq

namespace ClockModel

/-- The drift accrued over `elapsed` nanoseconds, truncated towards zero. -/
def accrued (c : ClockModel) (elapsed : ℕ) : ℤ :=
  let drift := (elapsed : ℚ) * c.driftPpm / 1000000
  clampI64 (drift.num.tdiv drift.den)

/-- Advances the clock to `now`, accruing drift for the elapsed span when unlocked. -/
def advance (c : ClockModel) (now : SimTime) (hasFix : Bool) : ClockModel :=
  let drifted :=
    if c.locked then c.offsetNs else clampI64 (c.offsetNs + c.accrued (now - c.lastUpdate))
  { c with
    offsetNs := if hasFix && !c.locked then 0 else drifted
    locked := hasFix
    lastUpdate := now }

/-- The instant this node believes it is. -/
def believedTime (c : ClockModel) (now : SimTime) : SimTime :=
  if 0 ≤ c.offsetNs then satAdd64 now c.offsetNs.natAbs else now - c.offsetNs.natAbs

/-- The clock is disciplined by a fix and stands on the true time. -/
def Disciplined (c : ClockModel) : Prop := c.locked = true ∧ c.offsetNs = 0

instance (c : ClockModel) : Decidable c.Disciplined := inferInstanceAs (Decidable (_ ∧ _))

lemma Disciplined.advance_eq {c : ClockModel} (h : c.Disciplined) (now : SimTime) :
    c.advance now true = { c with lastUpdate := now } := by
  obtain ⟨hlocked, hoffset⟩ := h
  simp [ClockModel.advance, hlocked]

lemma Disciplined.believedTime {c : ClockModel} (h : c.Disciplined) (now : SimTime) :
    c.believedTime now = now := by
  simp [ClockModel.believedTime, h.2, satAdd64]

end ClockModel

/-! ## The neighbour table -/

/-- The eight bytes of a certificate digest, as the number they spell. -/
abbrev HashedId8 := ℕ

/-- A point of the world's local tangent plane, in metres. -/
structure Vec3 where
  x : F64
  y : F64
  z : F64
  deriving DecidableEq, Repr

/-- The origin. -/
def Vec3.zero : Vec3 := ⟨⟨0⟩, ⟨0⟩, ⟨0⟩⟩

/-- What a node knows about a signature, and how sure it is. -/
inductive VerificationState
  /-- The signature has been checked and holds. -/
  | verified
  /-- The message was delivered without a signature check. -/
  | unverified
  | revoked
  /-- The signature was checked and failed. -/
  | invalid
  deriving DecidableEq, Repr

/-- One entry of the neighbour table. -/
structure Neighbor where
  signer : HashedId8
  claimedPos : Vec3
  claimedSpeedMps : F64
  claimedHeadingRad : F64
  claimedGenerationTime : SimTime
  /-- When this node believes it heard the peer last. -/
  lastHeard : SimTime
  messages : ℕ
  state : VerificationState
  deriving DecidableEq, Repr

/-- The neighbour table, keyed by the signer's digest. -/
structure NeighborTable where
  entries : OrdMap HashedId8 Neighbor := ∅
  ttl : Duration := ⟨3000000000⟩
  capacity : ℕ
  expired : ℕ := 0

namespace NeighborTable

/-- The peer heard from longest ago, the smallest digest among several. -/
def oldest (t : NeighborTable) : Option HashedId8 :=
  (t.entries.toList.argmin fun p => toLex (p.2.lastHeard, p.1)).map (·.1)

/-- Records a message from a peer, creating or refreshing its entry; a newcomer to a full table
takes the place of the peer heard from longest ago. -/
def observe (t : NeighborTable) (n : Neighbor) : NeighborTable :=
  match t.entries[n.signer]? with
  | some existing =>
    { t with
      entries := t.entries.insert n.signer { n with messages := satAdd32 existing.messages 1 } }
  | none =>
    let kept :=
      if t.entries.size ≥ t.capacity then
        match t.oldest with
        | some victim => t.entries.erase victim
        | none => t.entries
      else t.entries
    { t with entries := kept.insert n.signer { n with messages := 1 } }

/-- Forgets every peer not heard from within the table's time to live. -/
def age (t : NeighborTable) (now : SimTime) : NeighborTable :=
  let kept := t.entries.filter fun _ e => decide (now - t.ttl.ns ≤ e.lastHeard)
  { t with entries := kept, expired := satAdd32 t.expired (t.entries.size - kept.size) }

end NeighborTable

end V2xw.Node
