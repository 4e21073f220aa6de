import V2xw.Lib.OrdMap

/-!
# The lanes of the world

What the routers read of the road network of `crates/v2xw-world/src/model.rs`: the lanes, with the
classes that may use them, and the connections between them in the order of the lane they leave.
Lengths and speeds are numbers of any kind.

## Main definitions

* `Lane`, `Connection`, `World` — the network.
* `World.successors` — the connections that leave a lane.
-/

namespace V2xw.Mobility

/-- A lane. -/
abbrev LaneId := UInt32

/-- The classes that may use a lane, one bit each. -/
structure ClassMask where
  bits : UInt16
  deriving DecidableEq

namespace ClassMask

/-- Passenger cars. -/
def car : ClassMask := ⟨(1 : UInt16) <<< 0⟩

/-- Goods vehicles. -/
def truck : ClassMask := ⟨(1 : UInt16) <<< 1⟩

/-- Buses and coaches. -/
def bus : ClassMask := ⟨(1 : UInt16) <<< 2⟩

/-- Motorcycles and mopeds. -/
def moto : ClassMask := ⟨(1 : UInt16) <<< 3⟩

/-- Emergency vehicles. -/
def emergency : ClassMask := ⟨(1 : UInt16) <<< 6⟩

/-- The classes that normally use a driving lane. -/
def motorTraffic : ClassMask :=
  ⟨car.bits ||| truck.bits ||| bus.bits ||| moto.bits ||| emergency.bits⟩

/-- Do two masks have a class in common? -/
def containsAny (m other : ClassMask) : Bool := m.bits &&& other.bits != 0

end ClassMask

/-- What a lane is for. -/
inductive LaneKind
  | driving
  | cycle
  | sidewalk
  | bus
  | parking
  | internal
  | crossing
  deriving DecidableEq

/-- May a motor vehicle normally drive on it? -/
def LaneKind.isMotorised : LaneKind → Bool
  | driving | bus | internal | parking => true
  | cycle | sidewalk | crossing => false

/-- Which way a movement turns. -/
inductive TurnDirection
  | straight
  | left
  | right
  | slightLeft
  | slightRight
  | uTurn
  deriving DecidableEq

/-- A lane, as far as the routers read it. -/
structure Lane (K : Type) where
  kind : LaneKind
  allowed : ClassMask
  lengthM : K
  speedLimitMps : K

/-- Does the lane admit any of the classes? -/
def Lane.admits {K : Type} (l : Lane K) (classes : ClassMask) : Bool :=
    l.allowed.containsAny classes

/-- A movement from a lane to another. -/
structure Connection where
  fromLane : LaneId
  toLane : LaneId
  /-- The internal connector traversed on the way. -/
  via : Option LaneId
  direction : TurnDirection
  /-- A turn restriction sets it false. -/
  permitted : Bool
  deriving DecidableEq

/-- The road network, with its connections sorted by the lane they leave. -/
structure World (K : Type) where
  lanes : List (Lane K)
  connections : List Connection

namespace World

variable {K : Type} (w : World K)

/-- The lane with this id. -/
def tryLane (lane : LaneId) : Option (Lane K) := w.lanes[lane.toNat]?

/-- How many connections leave the lanes before the one at `i`. -/
def successorOffset (i : ℕ) : ℕ := w.connections.countP fun c => c.fromLane.toNat < i

/-- The connections that leave a lane. -/
def successors (lane : LaneId) : List Connection :=
  if w.lanes.length ≤ lane.toNat then []
  else (w.connections.drop (w.successorOffset lane.toNat)).take
    (w.successorOffset (lane.toNat + 1) - w.successorOffset lane.toNat)

end World

end V2xw.Mobility
