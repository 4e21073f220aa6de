import Mathlib.Algebra.Order.Floor.Ring
import Mathlib.Data.List.Sort
import V2xw.Core.Time
import V2xw.Lib.OrdMap

/-!
# The observation classes of TS 103 759

The second detector suite of a node, `crates/v2xw-threat/src/ts103759.rs`: each message is scored by
the checks whose inputs the receiver has, and a check fires once its scores of at least 1 have come
often enough in a row from one signer.

## Main definitions

* `Ts103759Check`, `Scores` — the checks, and the scores of those that ran.
* `Ts103759Suite` — the suite, with `class1` to `class5`, `fire` and `check`.

## Main results

* `Ts103759Suite.fire_fired` — the streak gate, check by check.
* `Scores.Content` — the classes leave the two checks of the envelope out.

## Implementation notes

Scores are exact numbers, of a linearly ordered field. `hypot`, `atan2` and `π` come from the
mathematical library and are parameters; a digest is an element of a linear order. The streaks of
the source are `u32` and wrap, as they do here; its counters are naturals here.
-/

namespace V2xw.Threat

open V2xw.Core

/-! ## Checks -/

/-- An observation class. -/
inductive ObservationClass
  | implausibleValues
  | previousMessages
  | localEnvironment
  | onBoardSensors
  | otherStations
  /-- Not an observation class: what the envelope alone tells. -/
  | envelope
  deriving DecidableEq, Repr

/-- One check of the suite. -/
inductive Ts103759Check
  | rangePlausibility
  | speedPlausibility
  | accelerationPlausibility
  | confidencePlausibility
  | oversizedMessage
  | positionConsistency
  | positionSpeedConsistency
  | speedConsistency
  | positionHeadingConsistency
  | beaconFrequency
  | generationTimeOrder
  | suddenAppearance
  | positionPlausibility
  | foreignRegion
  | perceptionCrossCheck
  | intersection
  | cpmConsistency
  | signatureInvalid
  | certificateUnknown
  deriving DecidableEq, Repr

namespace Ts103759Check

/-- Every check, grouped by class. -/
def all : List Ts103759Check :=
  [rangePlausibility, speedPlausibility, accelerationPlausibility, confidencePlausibility,
    oversizedMessage, positionConsistency, positionSpeedConsistency, speedConsistency,
    positionHeadingConsistency, beaconFrequency, generationTimeOrder, suddenAppearance,
    positionPlausibility, foreignRegion, perceptionCrossCheck, intersection, cpmConsistency,
    signatureInvalid, certificateUnknown]

/-- Which observation class a check belongs to. -/
def classOf : Ts103759Check → ObservationClass
  | rangePlausibility | speedPlausibility | accelerationPlausibility | confidencePlausibility
  | oversizedMessage => .implausibleValues
  | positionConsistency | positionSpeedConsistency | speedConsistency | positionHeadingConsistency
  | beaconFrequency | generationTimeOrder | suddenAppearance => .previousMessages
  | positionPlausibility | foreignRegion => .localEnvironment
  | perceptionCrossCheck => .onBoardSensors
  | intersection | cpmConsistency => .otherStations
  | signatureInvalid | certificateUnknown => .envelope

/-- The place of a check in the order of the checks. -/
def rank (c : Ts103759Check) : ℕ := c.ctorIdx

lemma mem_all (c : Ts103759Check) : c ∈ all := by
  cases c <;> decide

lemma rank_injective : Function.Injective rank := by
  intro a b h
  have hall : ∀ c ∈ all, ∀ d ∈ all, c.rank = d.rank → c = d := by decide
  exact hall a (mem_all a) b (mem_all b) h

/-- The checks are listed in their order. -/
lemma pairwise_all : all.Pairwise fun a b => a.rank < b.rank := by decide

end Ts103759Check

/-- The score of every check that ran. -/
abbrev Scores (K : Type) := Ts103759Check → Option K

/-- No check ran. -/
def Scores.empty {K : Type} : Scores K := fun _ => none

def Scores.insert {K : Type} (scores : Scores K) (c : Ts103759Check) (score : K) : Scores K :=
  Function.update scores c (some score)

/-! ## What a node observes -/

/-- What a receiver concluded about a message's signature and certificate chain. -/
inductive VerificationState
  /-- Not checked yet: the node's policy deferred it. -/
  | unverified
  | valid
  | badSignature
  | unknownCertificate
  deriving DecidableEq, Repr

/-- An object of a collective-perception message, in hundredths of a metre. -/
structure PerceivedObject where
  xCm : ℤ
  yCm : ℤ

/-- Which kind of message a receiver heard. -/
inductive ObservedKind
  | beacon
  | vam
  | denm (cause : String)
  | cpm (objects : List PerceivedObject)

/-- One message a node received. -/
structure ObservedMessage (K D : Type) where
  signer : D
  kind : ObservedKind
  /-- When this node believes it arrived. -/
  receivedAt : SimTime
  claimedGenerationTime : SimTime
  claimedXM : K
  claimedYM : K
  claimedSpeedMps : K
  claimedHeadingRad : K
  claimedPosConfidenceM : K
  verification : VerificationState

/-- Where a node believes it is. -/
structure SelfBelief (K : Type) where
  xM : K
  yM : K

/-- A node's own sensors. -/
structure LocalPerception (K : Type) where
  available : Bool
  /-- Whether a point is inside the coverage. -/
  covers : SelfBelief K → K → K → Bool
  /-- The distance to the nearest sensed object. -/
  nearestObjectM : K → K → Option K

/-- A node with no sensors. -/
def LocalPerception.none {K : Type} : LocalPerception K where
  available := false
  covers _ _ _ := false
  nearestObjectM _ _ := Option.none

/-- The envelope fields that a message itself does not carry. -/
structure EnvelopeExtras where
  payloadBytes : Option ℕ
  certRegion : Option ℕ

/-- One call of the suite: a message, and what the node knows when it comes. -/
structure CheckCall (K D : Type) where
  me : SelfBelief K
  m : ObservedMessage K D
  /-- The distance from a point to the nearest drivable lane. -/
  distanceToRoadM : K → K → K
  perception : LocalPerception K
  envelope : Option EnvelopeExtras

/-- Functions of the mathematical library. -/
structure Libm (K : Type) where
  hypot : K → K → K
  atan2 : K → K → K
  pi : K

/-- Everything the suite compares against. -/
structure Ts103759Params (K : Type) where
  maxPlausibleRangeM : K
  maxPlausibleSpeedMps : K
  maxPlausibleAccelMps2 : K
  maxPlausibleDecelMps2 : K
  maxConfidenceM : K
  maxPayloadBytes : ℕ
  maxTimeDeltaS : K
  mgtRngM : K
  mgtRngUpMps : K
  mgtRngDownMps : K
  maxHeadingChangeDeg : K
  posHeadingTimeS : K
  minBeaconIntervalS : K
  maxSaTimeS : K
  maxSaRangeM : K
  suddenAppearanceM : K
  maxDistanceFromRouteM : K
  proximityDistanceM : K
  maxDeltaInterS : K
  zThreshold : K
  gateFloorM : K
  hardFailScore : K
  /-- Consecutive violations before a check fires. -/
  minConsecutive : UInt32
  cpmUnmatchedFraction : K
  ownRegion : Option ℕ

/-- The cited defaults. -/
def Ts103759Params.default {K : Type} [Field K] : Ts103759Params K where
  maxPlausibleRangeM := 420
  maxPlausibleSpeedMps := 40
  maxPlausibleAccelMps2 := 3
  maxPlausibleDecelMps2 := 9 / 2
  maxConfidenceM := 10
  maxPayloadBytes := 2304
  maxTimeDeltaS := 31 / 10
  mgtRngM := 4
  mgtRngUpMps := 21 / 10
  mgtRngDownMps := 62 / 10
  maxHeadingChangeDeg := 90
  posHeadingTimeS := 11 / 10
  minBeaconIntervalS := 9 / 10
  maxSaTimeS := 21 / 10
  maxSaRangeM := 420
  suddenAppearanceM := 30
  maxDistanceFromRouteM := 2
  proximityDistanceM := 2
  maxDeltaInterS := 2
  zThreshold := 3
  gateFloorM := 5
  hardFailScore := 3 / 2
  minConsecutive := 2
  cpmUnmatchedFraction := 1
  ownRegion := none

/-- One claimed fix this receiver kept. -/
structure Fix (K : Type) where
  x : K
  y : K
  speed : K
  heading : K
  time : SimTime
  generationTime : SimTime

/-- Per-subject state. A check without a streak has the streak 0. -/
structure SubjectState (K : Type) where
  last : Fix K
  firstSeen : SimTime
  streak : Ts103759Check → UInt32

/-- One check firing on one message. -/
structure TsObservation (K D : Type) where
  check : Ts103759Check
  score : K
  subject : D
  time : SimTime

/-- What one message produced. -/
structure TsVerdict (K D : Type) where
  subject : D
  scores : Scores K
  /-- The checks that fired, highest score first. -/
  fired : List (TsObservation K D)

/-- How often a class could not run, or could. -/
structure Skips where
  class4Evaluated : ℕ := 0
  class4SkippedNoPerception : ℕ := 0
  class4SkippedOutsideCoverage : ℕ := 0
  skippedNoEnvelope : ℕ := 0
  skippedNoRegion : ℕ := 0

/-- The observation suite. -/
structure Ts103759Suite (K D : Type) [LinearOrder D] where
  subjects : OrdMap D (SubjectState K) := ∅
  /-- The newest claim per signer. -/
  recent : OrdMap D (K × K × SimTime) := ∅
  /-- When this receiver started listening. -/
  listeningSince : Option SimTime := none
  deferred : ℕ := 0
  skips : Skips := {}

/-! ## Arithmetic -/

section Arithmetic

variable {K : Type} [Field K] [LinearOrder K] [FloorRing K]

/-- An instant in seconds. -/
def nsToSecs (t : SimTime) : K := (t : K) / 1000000000

/-- Seconds to nanoseconds, to the nearest, saturating at both ends. -/
def secsToNs (seconds : K) : SimTime :=
  if seconds ≤ 0 then 0 else min ⌊seconds * 1000000000 + 1 / 2⌋₊ u64Max

/-- The remainder of a division, with the sign of the dividend. -/
def fmod (a b : K) : K := a - b * (if 0 ≤ a / b then (⌊a / b⌋ : K) else (⌈a / b⌉ : K))

/-- A heading in one turn from 0. -/
def wrapHeading (lib : Libm K) (a : K) : K :=
  let twoPi := 2 * lib.pi
  let d := fmod a twoPi
  if d < 0 then d + twoPi else d

/-- The bearing from a point to another. -/
def bearingRad (lib : Libm K) (x0 y0 x1 y1 : K) : K :=
    wrapHeading lib (lib.atan2 (y1 - y0) (x1 - x0))

/-- The angle between two headings. -/
def angleDiffRad (lib : Libm K) (a b : K) : K :=
  let twoPi := 2 * lib.pi
  let d := fmod (a - b) twoPi
  let d := if d < 0 then d + twoPi else d
  if lib.pi < d then twoPi - d else d

end Arithmetic

/-! ## The classes -/

namespace Ts103759Suite

section Classes

variable {K D : Type} [Field K] [LinearOrder K] [FloorRing K] [LinearOrder D]

/-- The uncertainty gate for a claim of a confidence. -/
def gate (p : Ts103759Params K) (confM : K) : K := p.zThreshold * max confM p.gateFloorM

/-- The class-1 checks, which need nothing but the message. -/
def class1 (p : Ts103759Params K) (lib : Libm K) (c : CheckCall K D) (skips : Skips)
    (out : Scores K) :
    Skips × Scores K :=
  let d := lib.hypot (c.m.claimedXM - c.me.xM) (c.m.claimedYM - c.me.yM)
  let out := out.insert .rangePlausibility (d / p.maxPlausibleRangeM)
  let out := out.insert .speedPlausibility (|c.m.claimedSpeedMps| / p.maxPlausibleSpeedMps)
  let out := out.insert .confidencePlausibility (max c.m.claimedPosConfidenceM 0 / p.maxConfidenceM)
  match c.envelope.bind EnvelopeExtras.payloadBytes with
  | some bytes => (skips, out.insert .oversizedMessage ((bytes : K) / (p.maxPayloadBytes : K)))
  | none => ({ skips with skippedNoEnvelope := skips.skippedNoEnvelope + 1 }, out)

/-- The class-2 checks, which need the previous message from this station. -/
def class2 (p : Ts103759Params K) (lib : Libm K) (prev : Fix K) (m : ObservedMessage K D)
    (t : SimTime) (out : Scores K) : Scores K :=
  let dt : K := nsToSecs (t - prev.time)
  let disp := lib.hypot (m.claimedXM - prev.x) (m.claimedYM - prev.y)
  let tol := gate p m.claimedPosConfidenceM
  let out := out.insert .generationTimeOrder
    (if m.claimedGenerationTime ≤ prev.generationTime then p.hardFailScore else 0)
  let out := if 0 < dt then out.insert .beaconFrequency (p.minBeaconIntervalS / dt) else out
  if dt ≤ 0 ∨ p.maxTimeDeltaS < dt then out
  else
    let out := out.insert .positionConsistency (disp / (p.maxPlausibleSpeedMps * dt + tol))
    let avgV := 1 / 2 * (m.claimedSpeedMps + prev.speed)
    let out := out.insert .positionSpeedConsistency (|disp - avgV * dt| / (p.mgtRngM + tol))
    let dv := m.claimedSpeedMps - prev.speed
    let allowed := if 0 ≤ dv then p.mgtRngUpMps * dt else p.mgtRngDownMps * dt
    let out := out.insert .speedConsistency (|dv| / max allowed (1 / 1000000000))
    let out := out.insert .accelerationPlausibility
      (|dv / dt| / if 0 ≤ dv then p.maxPlausibleAccelMps2 else p.maxPlausibleDecelMps2)
    if dt ≤ p.posHeadingTimeS ∧ tol < disp then
      let bearing := bearingRad lib prev.x prev.y m.claimedXM m.claimedYM
      let off := angleDiffRad lib m.claimedHeadingRad bearing * (180 / lib.pi)
      out.insert .positionHeadingConsistency (off / p.maxHeadingChangeDeg)
    else out

/-- The check of a first sighting: how near it is, once the receiver has listened for a while. -/
def firstSighting (p : Ts103759Params K) (lib : Libm K) (c : CheckCall K D) (t since : SimTime)
    (out : Scores K) : Scores K :=
  let d := lib.hypot (c.m.claimedXM - c.me.xM) (c.m.claimedYM - c.me.yM)
  let listening : K := nsToSecs (t - since)
  if p.maxSaTimeS < listening ∧ d < p.maxSaRangeM then
    out.insert .suddenAppearance (p.suddenAppearanceM / max d (1 / 1000000000))
  else out

/-- The class-3 checks: the node's own map, and its own region. -/
def class3 (p : Ts103759Params K) (c : CheckCall K D) (skips : Skips) (out : Scores K) :
    Skips × Scores K :=
  let out := out.insert .positionPlausibility
    (c.distanceToRoadM c.m.claimedXM c.m.claimedYM / p.maxDistanceFromRouteM)
  match c.envelope.bind EnvelopeExtras.certRegion, p.ownRegion with
  | some stated, some own =>
    (skips, out.insert .foreignRegion (if stated = own then 0 else p.hardFailScore))
  | _, _ => ({ skips with skippedNoRegion := skips.skippedNoRegion + 1 }, out)

/-- The class-4 cross-check: the claim against this node's own sensors. -/
def class4 (p : Ts103759Params K) (c : CheckCall K D) (skips : Skips) (out : Scores K) :
    Skips × Scores K :=
  if ¬ c.perception.available then
    ({ skips with class4SkippedNoPerception := skips.class4SkippedNoPerception + 1 }, out)
  else if ¬ c.perception.covers c.me c.m.claimedXM c.m.claimedYM then
    ({ skips with class4SkippedOutsideCoverage := skips.class4SkippedOutsideCoverage + 1 }, out)
  else
    let score :=
      match c.perception.nearestObjectM c.m.claimedXM c.m.claimedYM with
      | none => p.hardFailScore
      | some d => min (d / max (gate p c.m.claimedPosConfidenceM) (1 / 1000000000)) p.hardFailScore
    ({ skips with class4Evaluated := skips.class4Evaluated + 1 },
      out.insert .perceptionCrossCheck score)

/-- The objects of a message inside this node's coverage, and how many of them its own sensors do
not corroborate. -/
def visible (p : Ts103759Params K) (c : CheckCall K D) (objects : List PerceivedObject) : ℕ × ℕ :=
  objects.foldl
    (fun n o =>
      let x : K := (o.xCm : K) / 100
      let y : K := (o.yCm : K) / 100
      if ¬ c.perception.covers c.me x y then n
      else
        match c.perception.nearestObjectM x y with
        | none => (n.1 + 1, n.2 + 1)
        | some d => (n.1 + 1, if p.zThreshold * p.gateFloorM < d then n.2 + 1 else n.2))
    (0, 0)

/-- The cross-check of a collective-perception message. -/
def cpmConsistency (p : Ts103759Params K) (c : CheckCall K D) (objects : List PerceivedObject)
    (skips : Skips) (out : Scores K) : Skips × Scores K :=
  if ¬ c.perception.available then
    ({ skips with class4SkippedNoPerception := skips.class4SkippedNoPerception + 1 }, out)
  else
    let n := visible p c objects
    if n.1 = 0 then (skips, out)
    else
      (skips, out.insert .cpmConsistency
        ((n.2 : K) / (n.1 : K) / max p.cpmUnmatchedFraction (1 / 1000000000)))

/-- The distance to the nearest of the claims of the other stations since the cutoff. -/
def nearest (lib : Libm K) (m : ObservedMessage K D) (cutoff : SimTime)
    (recent : OrdMap D (K × K × SimTime)) : Option K :=
  recent.toList.foldl
    (fun best e =>
      if e.1 = m.signer ∨ e.2.2.2 < cutoff then best
      else
        let d := lib.hypot (e.2.1 - m.claimedXM) (e.2.2.1 - m.claimedYM)
        match best with
        | none => some d
        | some b => if d < b then some d else best)
    none

/-- The class-5 checks: this message against what other stations said. -/
def class5 (p : Ts103759Params K) (lib : Libm K) (c : CheckCall K D) (t : SimTime)
    (recent : OrdMap D (K × K × SimTime)) (skips : Skips) (out : Scores K) :
    OrdMap D (K × K × SimTime) × Skips × Scores K :=
  let cutoff := t - secsToNs p.maxDeltaInterS
  let out :=
    match nearest lib c.m cutoff recent with
    | some d => out.insert .intersection (p.proximityDistanceM / max d (1 / 1000000000))
    | none => out
  let recent := (recent.insert c.m.signer (c.m.claimedXM, c.m.claimedYM, t)).filter
    fun _ e => decide (cutoff ≤ e.2.2)
  match c.m.kind with
  | .cpm objects => (recent, cpmConsistency p c objects skips out)
  | _ => (recent, skips, out)

end Classes

/-! ## Subjects -/

section Subjects

variable {K D : Type}

/-- The fix that a message claims. -/
def fixOf (m : ObservedMessage K D) : Fix K where
  x := m.claimedXM
  y := m.claimedYM
  speed := m.claimedSpeedMps
  heading := m.claimedHeadingRad
  time := m.receivedAt
  generationTime := m.claimedGenerationTime

/-- The state of a subject that a message is the first of. -/
def freshSubject (m : ObservedMessage K D) : SubjectState K := ⟨fixOf m, m.receivedAt, fun _ => 0⟩

variable [LinearOrder D]

/-- The entry of a signer, made by the message where there is none. -/
def entry (s : Ts103759Suite K D) (m : ObservedMessage K D) : SubjectState K :=
  s.subjects[m.signer]?.getD (freshSubject m)

/-- The streaks of a signer. -/
def streakOf (s : Ts103759Suite K D) (d : D) : Ts103759Check → UInt32 :=
  (s.subjects[d]?.map SubjectState.streak).getD fun _ => 0

lemma entry_streak (s : Ts103759Suite K D) (m : ObservedMessage K D) :
    (s.entry m).streak = s.streakOf m.signer := by
  rw [entry, streakOf]
  cases s.subjects[m.signer]? <;> rfl

end Subjects

/-! ## The streak gate -/

section Gate

variable {K D : Type} [LinearOrder K] [One K]

/-- The streak of a check after a score. -/
def nextRun (run : UInt32) (score : K) : UInt32 := if 1 ≤ score then run + 1 else 0

/-- One turn of the loop over the scores. -/
def gateStep (min : UInt32) (subject : D) (t : SimTime) (scores : Scores K)
    (acc : (Ts103759Check → UInt32) × List (TsObservation K D)) (c : Ts103759Check) :
    (Ts103759Check → UInt32) × List (TsObservation K D) :=
  match scores c with
  | none => acc
  | some score =>
    let run := nextRun (acc.1 c) score
    (Function.update acc.1 c run, if min ≤ run then acc.2 ++ [⟨c, score, subject, t⟩] else acc.2)

/-- Whether an observation comes before another: by the score, the highest first, then by the
check. -/
def before (a b : TsObservation K D) : Prop :=
  b.score < a.score ∨ a.score = b.score ∧ a.check.rank ≤ b.check.rank

instance : DecidableRel (before (K := K) (D := D)) := fun _ _ => instDecidableOr

/-- The streaks after a message. -/
def nextStreak (scores : Scores K) (streak : Ts103759Check → UInt32) (c : Ts103759Check) : UInt32 :=
  (scores c).elim (streak c) (nextRun (streak c))

/-- What a check fires. -/
def firing (min : UInt32) (m : ObservedMessage K D) (scores : Scores K)
    (streak : Ts103759Check → UInt32) (c : Ts103759Check) : Option (TsObservation K D) :=
  (scores c).bind fun score =>
    if min ≤ nextRun (streak c) score then some ⟨c, score, m.signer, m.receivedAt⟩ else none

variable {min : UInt32} {m : ObservedMessage K D} {scores : Scores K}
  {streak : Ts103759Check → UInt32}

lemma firing_eq_some {c : Ts103759Check} {o : TsObservation K D} :
    firing min m scores streak c = some o ↔
      ∃ score, scores c = some score ∧ min ≤ nextRun (streak c) score ∧
        o = ⟨c, score, m.signer, m.receivedAt⟩ := by
  rw [firing, Option.bind_eq_some_iff]
  refine exists_congr fun score => and_congr_right fun _ => ?_
  split_ifs with h
  · rw [Option.some.injEq, eq_comm, and_iff_right h]
  · exact ⟨nofun, fun h' => absurd h'.1 h⟩

/-- The loop over the scores, one turn: the streak of the check and what it fires. -/
lemma gateStep_eq (acc : (Ts103759Check → UInt32) × List (TsObservation K D)) (c : Ts103759Check) :
    gateStep min m.signer m.receivedAt scores acc c =
      (Function.update acc.1 c (nextStreak scores acc.1 c),
        acc.2 ++ (firing min m scores acc.1 c).toList) := by
  rw [gateStep, nextStreak, firing]
  cases scores c with
  | none => simp
  | some score =>
    simp only [Option.elim_some, Option.bind_some]
    split_ifs <;> simp

/-- The loop over the scores of a list of checks, each of them once. -/
lemma foldl_gateStep (l : List Ts103759Check) (hl : l.Nodup) :
    ∀ acc : (Ts103759Check → UInt32) × List (TsObservation K D),
      l.foldl (gateStep min m.signer m.receivedAt scores) acc =
        ((fun c => if c ∈ l then nextStreak scores acc.1 c else acc.1 c),
          acc.2 ++ l.filterMap (firing min m scores acc.1)) := by
  induction l with
  | nil => simp
  | cons a l ih =>
    intro acc
    obtain ⟨ha, hl⟩ := List.nodup_cons.1 hl
    rw [List.foldl_cons, gateStep_eq, ih hl]
    refine Prod.ext (funext fun c => ?_) ?_
    · by_cases hca : c = a
      · subst hca
        simp [ha]
      · simp only [List.mem_cons, hca, false_or, Function.update_of_ne hca, nextStreak]
    · have hrest : l.filterMap (firing min m scores
          (Function.update acc.1 a (nextStreak scores acc.1 a))) =
          l.filterMap (firing min m scores acc.1) := by
        refine List.filterMap_congr fun c hc => ?_
        rw [firing, firing, Function.update_of_ne (ne_of_mem_of_not_mem hc ha)]
      rw [hrest, List.append_assoc, List.filterMap_cons]
      cases firing min m scores acc.1 a <;> rfl

lemma gate_eq :
    Ts103759Check.all.foldl (gateStep min m.signer m.receivedAt scores) (streak, []) =
      (nextStreak scores streak,
        Ts103759Check.all.filterMap (firing min m scores streak)) := by
  rw [foldl_gateStep _ (by decide)]
  exact Prod.ext (funext fun c => if_pos (Ts103759Check.mem_all c)) (List.nil_append _)

instance : Std.Total (before (K := K) (D := D)) where
  total a b := by
    rcases lt_trichotomy a.score b.score with h | h | h
    · exact .inr (.inl h)
    · exact (le_total a.check.rank b.check.rank).imp (fun hr => .inr ⟨h, hr⟩)
        fun hr => .inr ⟨h.symm, hr⟩
    · exact .inl (.inl h)

instance : IsTrans (TsObservation K D) before where
  trans a b c := by
    rintro (hab | ⟨hab, hr⟩) (hbc | ⟨hbc, hr'⟩)
    · exact .inl (hbc.trans hab)
    · exact .inl (hbc ▸ hab)
    · exact .inl (hab ▸ hbc)
    · exact .inr ⟨hab.trans hbc, hr.trans hr'⟩

variable [LinearOrder D]

/-- Applies the streak gate and orders the fired set, highest score first. -/
def fire (p : Ts103759Params K) (s : Ts103759Suite K D) (m : ObservedMessage K D)
    (scores : Scores K) : TsVerdict K D × Ts103759Suite K D :=
  let entry := s.entry m
  let (streak, fired) := Ts103759Check.all.foldl
    (gateStep p.minConsecutive m.signer m.receivedAt scores) (entry.streak, [])
  (⟨m.signer, scores, fired.insertionSort before⟩,
    { s with subjects := s.subjects.insert m.signer { entry with streak := streak } })

variable (p : Ts103759Params K) (s : Ts103759Suite K D) (m : ObservedMessage K D)
  (scores : Scores K)

/-- **What a message fires**: the checks whose streak is long enough after it, each once, the
highest score first and equal scores in the order of the checks. -/
theorem fire_fired :
    (∀ o, o ∈ (s.fire p m scores).1.fired ↔ ∃ score, scores o.check = some score ∧
      p.minConsecutive ≤ nextRun ((s.entry m).streak o.check) score ∧
      o = ⟨o.check, score, m.signer, m.receivedAt⟩) ∧
    (s.fire p m scores).1.fired.Pairwise fun a b =>
      b.score < a.score ∨ a.score = b.score ∧ a.check.rank < b.check.rank := by
  rw [fire, gate_eq]
  refine ⟨fun o => ?_, ?_⟩
  · rw [List.mem_insertionSort, List.mem_filterMap]
    simp only [firing_eq_some]
    constructor
    · rintro ⟨c, -, score, hscore, hmin, rfl⟩
      exact ⟨score, hscore, hmin, rfl⟩
    · rintro ⟨score, hscore, hmin, ho⟩
      exact ⟨o.check, Ts103759Check.mem_all _, score, hscore, hmin, ho⟩
  -- The list is sorted, and no two of its entries have the same check.
  · have hne : (Ts103759Check.all.filterMap (firing p.minConsecutive m scores
        (s.entry m).streak)).Pairwise fun a b => a.check ≠ b.check := by
      refine List.Pairwise.filterMap _ (fun a b hab o ho o' ho' => ?_) Ts103759Check.pairwise_all
      obtain ⟨score, -, -, rfl⟩ := firing_eq_some.1 ho
      obtain ⟨score', -, -, rfl⟩ := firing_eq_some.1 ho'
      exact fun h => hab.ne (congrArg _ h)
    refine (List.pairwise_insertionSort before _).imp₂ (fun a b hab hch => ?_)
      (hne.perm (List.perm_insertionSort before _).symm fun h => h.symm)
    exact hab.imp_right fun h => ⟨h.1, h.2.lt_of_ne fun hr => hch (Ts103759Check.rank_injective hr)⟩

/-- What a message leaves of its signer. -/
lemma fire_state : (s.fire p m scores).2 =
    { s with
      subjects := s.subjects.insert m.signer
        { s.entry m with streak := nextStreak scores (s.entry m).streak } } := by
  rw [fire, gate_eq]

end Gate

/-! ## One message -/

section Check

variable {K D : Type} [Field K] [LinearOrder K] [FloorRing K] [LinearOrder D]

/-- The scores of a message whose signature holds, with what they leave of the state. -/
def content (p : Ts103759Params K) (lib : Libm K) (known : Option (Fix K)) (since : SimTime)
    (recent : OrdMap D (K × K × SimTime)) (skips : Skips) (c : CheckCall K D) :
    OrdMap D (K × K × SimTime) × Skips × Scores K :=
  let (skips, out) := class1 p lib c skips Scores.empty
  let out :=
    match known with
    | some prev => class2 p lib prev c.m c.m.receivedAt out
    | none => firstSighting p lib c c.m.receivedAt since out
  let (skips, out) := class3 p c skips out
  let (skips, out) := class4 p c skips out
  class5 p lib c c.m.receivedAt recent skips out

/-- The fix kept as the previous one for the next message from this station. -/
def keep (s : Ts103759Suite K D) (m : ObservedMessage K D) : Ts103759Suite K D :=
  { s with subjects := s.subjects.insert m.signer { s.entry m with last := fixOf m } }

/-- The suite, listening from its first message on. -/
def listen (s : Ts103759Suite K D) (t : SimTime) : Ts103759Suite K D :=
  { s with listeningSince := some (s.listeningSince.getD t) }

/-- Runs the suite on one message. -/
def check (p : Ts103759Params K) (lib : Libm K) (s : Ts103759Suite K D) (c : CheckCall K D) :
    TsVerdict K D × Ts103759Suite K D :=
  let m := c.m
  let s := s.listen m.receivedAt
  match m.verification with
  | .unverified => (⟨m.signer, Scores.empty, []⟩, { s with deferred := s.deferred + 1 })
  | .badSignature => s.fire p m (Scores.empty.insert .signatureInvalid p.hardFailScore)
  | .unknownCertificate => s.fire p m (Scores.empty.insert .certificateUnknown p.hardFailScore)
  | .valid =>
    let known := s.subjects[m.signer]?.map SubjectState.last
    let (recent, skips, scores) :=
      content p lib known (s.listeningSince.getD m.receivedAt) s.recent s.skips c
    let (out, s) := { s with recent := recent, skips := skips }.fire p m scores
    (out, s.keep m)

end Check

/-! ## What a message can do -/

section Cases

variable {K D : Type} [Field K] [LinearOrder K] [FloorRing K] [LinearOrder D]
  (p : Ts103759Params K) (lib : Libm K) (s : Ts103759Suite K D) (c : CheckCall K D)

/-- The only check that a message of an envelope that does not hold is scored by. -/
def envelopeScores (p : Ts103759Params K) (c : Ts103759Check) : Scores K :=
  Scores.empty.insert c p.hardFailScore

/-- A message whose envelope does not hold only passes the gate. -/
lemma check_of_envelope (check : Ts103759Check)
    (h : c.m.verification = .badSignature ∧ check = .signatureInvalid ∨
      c.m.verification = .unknownCertificate ∧ check = .certificateUnknown) :
    s.check p lib c = (s.listen c.m.receivedAt).fire p c.m (envelopeScores p check) := by
  obtain ⟨h, rfl⟩ | ⟨h, rfl⟩ := h <;> simp only [Ts103759Suite.check, h] <;> rfl

lemma check_of_unverified (h : c.m.verification = .unverified) :
    s.check p lib c = (⟨c.m.signer, Scores.empty, []⟩,
      { s.listen c.m.receivedAt with deferred := s.deferred + 1 }) := by
  simp only [check, h]
  rfl

/-- What the classes make of a message in a state. -/
def contentIn : OrdMap D (K × K × SimTime) × Skips × Scores K :=
  content p lib (s.subjects[c.m.signer]?.map SubjectState.last)
    (s.listeningSince.getD c.m.receivedAt) s.recent s.skips c

/-- The state in which a message whose signature holds passes the gate. -/
def scored : Ts103759Suite K D :=
  { s.listen c.m.receivedAt with
    recent := (s.contentIn p lib c).1
    skips := (s.contentIn p lib c).2.1 }

lemma check_of_valid (h : c.m.verification = .valid) :
    s.check p lib c =
      (((s.scored p lib c).fire p c.m (s.contentIn p lib c).2.2).1,
        ((s.scored p lib c).fire p c.m (s.contentIn p lib c).2.2).2.keep c.m) := by
  simp only [check, h]
  rfl

/-- **What a message does to the streaks**: those of its signer go on by its scores. -/
lemma check_streak (d : D) :
    (s.check p lib c).2.streakOf d =
      if c.m.signer = d then nextStreak (s.check p lib c).1.scores (s.streakOf d)
      else s.streakOf d := by
  have hfire (s : Ts103759Suite K D) (scores : Scores K) :
      (s.fire p c.m scores).2.streakOf d =
        if c.m.signer = d then nextStreak scores (s.streakOf d) else s.streakOf d := by
    rw [fire_state, streakOf, OrdMap.get_insert]
    split_ifs with hd
    · subst hd
      rw [← entry_streak]
      rfl
    · rfl
  have hkeep (s : Ts103759Suite K D) : (s.keep c.m).streakOf d = s.streakOf d := by
    rw [keep, streakOf, OrdMap.get_insert]
    split_ifs with hd
    · subst hd
      exact entry_streak s c.m
    · rfl
  cases h : c.m.verification with
  | unverified =>
    rw [check_of_unverified p lib s c h]
    exact (ite_self _).symm
  | badSignature =>
    rw [check_of_envelope p lib s c .signatureInvalid (.inl ⟨h, rfl⟩)]
    exact hfire _ _
  | unknownCertificate =>
    rw [check_of_envelope p lib s c .certificateUnknown (.inr ⟨h, rfl⟩)]
    exact hfire _ _
  | valid =>
    rw [check_of_valid p lib s c h]
    exact (hkeep _).trans (hfire _ _)

/-- **What a message fires**: the checks whose streak is long enough after it, each once, the
highest score first and equal scores in the order of the checks. -/
lemma check_fired :
    (∀ o, o ∈ (s.check p lib c).1.fired ↔ ∃ score, (s.check p lib c).1.scores o.check = some score ∧
      p.minConsecutive ≤ nextRun (s.streakOf c.m.signer o.check) score ∧
      o = ⟨o.check, score, c.m.signer, c.m.receivedAt⟩) ∧
    (s.check p lib c).1.fired.Pairwise fun a b =>
      b.score < a.score ∨ a.score = b.score ∧ a.check.rank < b.check.rank := by
  cases h : c.m.verification with
  | unverified =>
    rw [check_of_unverified p lib s c h]
    exact ⟨fun o => ⟨nofun, nofun⟩, .nil⟩
  | badSignature =>
    rw [check_of_envelope p lib s c .signatureInvalid (.inl ⟨h, rfl⟩)]
    have hfired := fire_fired p (s.listen c.m.receivedAt) c.m (envelopeScores p .signatureInvalid)
    rwa [entry_streak] at hfired
  | unknownCertificate =>
    rw [check_of_envelope p lib s c .certificateUnknown (.inr ⟨h, rfl⟩)]
    have hfired := fire_fired p (s.listen c.m.receivedAt) c.m (envelopeScores p .certificateUnknown)
    rwa [entry_streak] at hfired
  | valid =>
    rw [check_of_valid p lib s c h]
    have hfired := fire_fired p (s.scored p lib c) c.m (s.contentIn p lib c).2.2
    rwa [entry_streak] at hfired

lemma check_subject : (s.check p lib c).1.subject = c.m.signer := by
  cases h : c.m.verification with
  | unverified => rw [check_of_unverified p lib s c h]
  | badSignature => rw [check_of_envelope p lib s c .signatureInvalid (.inl ⟨h, rfl⟩)]; rfl
  | unknownCertificate => rw [check_of_envelope p lib s c .certificateUnknown (.inr ⟨h, rfl⟩)]; rfl
  | valid => rw [check_of_valid p lib s c h]; rfl

end Cases

end Ts103759Suite

end V2xw.Threat
