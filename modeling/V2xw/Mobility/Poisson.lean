import V2xw.Core.Rng
import V2xw.Core.Time
import V2xw.Mobility.World

/-!
# The thinned Poisson demand

The arrival process of `crates/v2xw-mobility/src/demand/poisson.rs`. Candidates arrive at a constant
rate, and each is kept with the probability that the shape of the demand and the multiplier in force
give. The instant of the next candidate is state of the model, so a call for a window of time takes
up where the last one left off.

## Main definitions

* `PoissonParams`, `PoissonDemand` — the parameters, and the model.
* `Site` — what the model reads of the world, the mathematical library and the random streams.
* `Site.advance`, `Site.makeTrip`, `Site.spawnsIn` — the next candidate, a trip, a window.

## Main results

* `Site.candidate_cases` — what one candidate can do.
* `Site.spawnsIn_append` — two windows one after the other are one window.
* `Site.spawnsOver_eq` — any cutting of a window into windows.

## Implementation notes

A call that panics has no result. The spawn stream is the state `rng`, which only this model draws
from; the stream of a trip's desired speed is drawn from once, and is derived for it. The weights of
the classes, the lengths of the lanes and the weights of the destinations of an origin are functions
of the world and the parameters, and a class is an element of a type.
-/

namespace V2xw.Mobility

open Core

/-- The functions of the mathematical library. -/
structure Libm where
  ln : Float → Float
  exp : Float → Float
  sqrt : Float → Float
  cos : Float → Float

/-- How many trips a day has at each time of it. -/
inductive DemandProfile
  | uniform
  | rush
  | night

/-- How a trip's desired speed is drawn. -/
inductive SpeedLaw
  | legacyUniform (minMps maxMps : Float)
  | classSpeedDev

/-- The speeds of a class. -/
structure ClassSpec where
  /-- The multiplier of the legacy class that the class counts as. -/
  speedMult : Float
  desiredSpeedMps : Float
  speedDev : Float
  maxSpeedMps : Float

/-- The parameters of the arrival process. The type `C` is that of the classes. -/
structure PoissonParams (C : Type) where
  arrivalRatePerS : Float
  candidateBoost : Float
  /-- The cap on the number of trips, or 0 for none. -/
  maxTotalVehicles : ℕ
  profile : DemandProfile
  duration : Duration
  /-- The classes of the fleet, with their weights. -/
  fleet : List (C × Float)
  speed : SpeedLaw

/-- The origin-destination model. -/
structure OdModel where
  origins : List LaneId
  destinations : List LaneId
  centre : Option LaneId
  rushCentreBias : Bool
  /-- The weights of the destinations of an origin, of the gravity law. -/
  gravityWeights : Option (LaneId → List Float)

/-- A trip, as the demand asks for it. -/
structure TripRequest (C : Type) where
  seq : ℕ
  t : SimTime
  origin : LaneId
  originSM : Float
  destination : LaneId
  class' : C
  desiredSpeedMps : Float

/-- The demand model, with the position of its stream. -/
structure PoissonDemand (C : Type) where
  params : PoissonParams C
  /-- The next candidate arrival time, once the process has started. -/
  next : Option SimTime
  /-- How many trips have been produced. -/
  seq : ℕ
  eventMultiplier : Float
  rng : RngStream

/-- What the model reads besides its state. -/
structure Site (C : Type) where
  cipher : Cipher
  libm : Libm
  od : OdModel
  laneLength : LaneId → Float
  spec : C → ClassSpec
  /-- The stream of the desired speed of a trip. -/
  desired : ℕ → RngStream

/-! ## Draws -/

section Draws

/-- A draw that may panic. -/
abbrev Drawn (α : Type) := Option (α × RngStream)

variable (c : Cipher) (libm : Libm)

/-- 64 bits of a stream. -/
def drawU64 (s : RngStream) : UInt64 × RngStream :=
  ((s.word c 1).toUInt64 <<< 32 ||| (s.word c 0).toUInt64, { s with wordPos := s.wordPos + 2 })

/-- A uniform number from 0 to 1. -/
def drawF64 (s : RngStream) : Float × RngStream :=
  ((drawU64 c s).1 >>> 11 |>.toFloat |> (· * (1.0 / 9007199254740992.0)), (drawU64 c s).2)

/-- A Bernoulli trial. -/
def drawBool (p : Float) (s : RngStream) : Bool × RngStream :=
  (decide ((drawF64 c s).1 < p), (drawF64 c s).2)

def drawUniform (a b : Float) (s : RngStream) : Float × RngStream :=
  (a + (b - a) * (drawF64 c s).1, (drawF64 c s).2)

/-- A natural number below another, which panics for 0. -/
def drawBelow (n : ℕ) (s : RngStream) : Drawn ℕ :=
  if n = 0 then none else some ((drawU64 c s).1.toNat * n >>> 64, (drawU64 c s).2)

def drawNormal (mu sigma : Float) (s : RngStream) : Float × RngStream :=
  let (f1, s) := drawF64 c s
  let (u2, s) := drawF64 c s
  let r := libm.sqrt (-2.0 * libm.ln (1.0 - f1))
  (mu + sigma * r * libm.cos (2.0 * 3.141592653589793 * u2), s)

/-- An exponential draw, which panics unless the rate is positive and finite. -/
def drawExponential (rate : Float) (s : RngStream) : Drawn Float :=
  if 0.0 < rate ∧ rate.isFinite then
    some (-libm.ln (1.0 - (drawF64 c s).1) / rate, (drawF64 c s).2)
  else none

/-- The index at which the sum of the weights passes a target, or that of the last positive
weight. -/
def passing (target : Float) : List Float → ℕ → Float → ℕ → ℕ
  | [], _, _, last => last
  | w :: ws, i, acc, last =>
    if 0.0 < w then if target < acc + w then i else passing target ws (i + 1) (acc + w) i
    else passing target ws (i + 1) acc last

/-- An index by weights, which panics unless they are finite, not negative and not all 0. -/
def chooseIndex (weights : List Float) (s : RngStream) : Drawn ℕ :=
  let total := weights.foldl (· + ·) 0.0
  if weights ≠ [] ∧ (∀ w ∈ weights, w.isFinite ∧ 0.0 ≤ w) ∧ 0.0 < total then
    some (passing ((drawF64 c s).1 * total) weights 0 0.0 0, (drawF64 c s).2)
  else none

end Draws

/-! ## Parameters -/

section Probability

variable {K : Type} [LT K] [DecidableLT K] [OfNat K 0] [OfNat K 1]

/-- The greater of a number and 1; 1 for what is no number. -/
def atLeastOne (x : K) : K := if 1 < x then x else 1

/-- The nearest of the numbers from 0 to 1. -/
def clamp01 (x : K) : K := if x < 0 then 0 else if 1 < x then 1 else x

/-- The probability with which a candidate is kept, before it is clipped. -/
def keepProbability [Mul K] [Div K] (multiplier eventMultiplier candidateBoost : K) : K :=
  multiplier * eventMultiplier / atLeastOne candidateBoost

end Probability

/-- Seconds to nanoseconds, to the nearest, saturating at both ends. -/
def secsToNs (seconds : Float) : SimTime :=
  if seconds.isNaN ∨ seconds ≤ 0.0 then 0
  else
    let ns := (seconds * 1000000000.0).round
    if 18446744073709551616.0 ≤ ns then u64Max else ns.toUInt64.toNat

def nsToSecs (t : SimTime) : Float := (UInt64.ofNat t).toFloat / 1000000000.0

/-- The value of the shape at a fraction of the run. -/
def DemandProfile.multiplier (libm : Libm) (f : Float) : DemandProfile → Float
  | .uniform => 1.0
  | .rush =>
    let peak (centre : Float) := libm.exp (-(((f - centre) / 0.09) * ((f - centre) / 0.09)))
    let both := peak 0.25 + peak 0.75
    0.2 + 0.8 * (if both < 1.0 then both else 1.0)
  | .night => 0.15 + 0.25 * f

variable {C : Type}

/-- The candidate rate, trips per second. -/
def PoissonParams.candidateRatePerS (p : PoissonParams C) : Float :=
  p.arrivalRatePerS * atLeastOne p.candidateBoost

namespace Site

variable (e : Site C)

/-! ## A candidate -/

/-- The demand shape's value at an instant. -/
def multiplierAt (d : PoissonDemand C) (t : SimTime) : Float :=
  let duration := nsToSecs d.params.duration.ns
  d.params.profile.multiplier e.libm (if 0.0 < duration then clamp01 (nsToSecs t / duration) else 0.0)

/-- The instant of the candidate after another. -/
def advance (d : PoissonDemand C) (t : SimTime) : Drawn SimTime :=
  let rate := d.params.candidateRatePerS
  if rate ≤ 0.0 then some (u64Max, d.rng)
  else
    (drawExponential e.cipher e.libm rate d.rng).map fun gap =>
      (min (t + max (secsToNs gap.1) 1) u64Max, gap.2)

/-- Draws a class. -/
def drawClass (fleet : List (C × Float)) (s : RngStream) : Drawn C :=
  (chooseIndex e.cipher (fleet.map Prod.snd) s).bind fun i =>
    fleet[i.1]?.map fun f => (f.1, i.2)

/-- Draws an origin and a destination: the origin, the coin of the centre, the destination. -/
def drawOd (profileMultiplier : Float) (s : RngStream) : Drawn (LaneId × LaneId) :=
  (drawBelow e.cipher e.od.origins.length s).bind fun i =>
    e.od.origins[i.1]?.bind fun origin =>
      let (centreCoin, s) := drawF64 e.cipher i.2
      let centreProbability :=
        if e.od.rushCentreBias then clamp01 (profileMultiplier - 0.2) else 0.0
      let weights := e.od.gravityWeights.map fun g => g origin
      let drawn :=
        match weights with
        | some w =>
          if w.any (0.0 < ·) then chooseIndex e.cipher w s
          else drawBelow e.cipher e.od.destinations.length s
        | none => drawBelow e.cipher e.od.destinations.length s
      drawn.bind fun j =>
        e.od.destinations[j.1]?.map fun destination =>
          ((origin,
            if centreCoin < centreProbability then e.od.centre.getD destination else destination),
            j.2)

/-- Draws the desired speed of a class. -/
def drawSpeed (law : SpeedLaw) (class' : C) (s : RngStream) : Float :=
  let spec := e.spec class'
  match law with
  | .legacyUniform minMps maxMps => (drawUniform e.cipher minMps maxMps s).1 * spec.speedMult
  | .classSpeedDev =>
    let mean := spec.desiredSpeedMps
    let drawn := (drawNormal e.cipher e.libm mean (spec.speedDev * mean) s).1
    if drawn < 0.2 * mean then 0.2 * mean
    else if spec.maxSpeedMps < drawn then spec.maxSpeedMps else drawn

/-- Turns a candidate into a trip, if it survives. -/
def makeTrip (d : PoissonDemand C) (t : SimTime) : Option (Option (TripRequest C) × PoissonDemand C) :=
  let multiplier := e.multiplierAt d t
  let keep := keepProbability multiplier d.eventMultiplier d.params.candidateBoost
  let (kept, rng) := drawBool e.cipher (clamp01 keep) d.rng
  if ¬ kept then some (none, { d with rng := rng })
  else if 0 < d.params.maxTotalVehicles ∧ d.params.maxTotalVehicles ≤ d.seq then
    some (none, { d with rng := rng })
  else
    (e.drawClass d.params.fleet rng).bind fun class' =>
      (e.drawOd multiplier class'.2).map fun od =>
        let (originSM, rng) := drawUniform e.cipher 0.0 (e.laneLength od.1.1) od.2
        (some
          { seq := d.seq
            t := t
            origin := od.1.1
            originSM := originSM
            destination := od.1.2
            class' := class'.1
            desiredSpeedMps := e.drawSpeed d.params.speed class'.1 (e.desired d.seq) },
          { d with seq := d.seq + 1, rng := rng })

/-- One turn of the loop over the candidates: one that lies before the window is passed over. -/
def candidate (start t : SimTime) (d : PoissonDemand C) :
    Option (Option (TripRequest C) × PoissonDemand C) :=
  (if start ≤ t then e.makeTrip d t else some (none, d)).bind fun trip =>
    (e.advance trip.2 t).map fun next =>
      (trip.1, { trip.2 with next := some next.1, rng := next.2 })

/-- A demand model goes on from another: the process has started, the next trip has its number, and
the parameters and the multiplier are the same. -/
structure Follows (d d' : PoissonDemand C) (trips : List (TripRequest C)) : Prop where
  params : d'.params = d.params
  eventMultiplier : d'.eventMultiplier = d.eventMultiplier
  seq : d'.seq = d.seq + trips.length
  numbered : trips.map TripRequest.seq = List.range' d.seq trips.length
  capped : 0 < d.params.maxTotalVehicles → d.seq ≤ d.params.maxTotalVehicles →
    d'.seq ≤ d.params.maxTotalVehicles

lemma Follows.refl (d : PoissonDemand C) : Follows d d [] := ⟨rfl, rfl, rfl, rfl, fun _ h => h⟩

lemma Follows.trans {d d' d'' : PoissonDemand C} {trips trips' : List (TripRequest C)}
    (h : Follows d d' trips) (h' : Follows d' d'' trips') : Follows d d'' (trips ++ trips') where
  params := h'.params.trans h.params
  eventMultiplier := h'.eventMultiplier.trans h.eventMultiplier
  seq := by rw [h'.seq, h.seq, List.length_append, Nat.add_assoc]
  numbered := by
    rw [List.map_append, h.numbered, h'.numbered, h.seq, List.length_append,
      ← List.range'_append_1]
  capped := fun hpos hle => by
    have hcap := h'.capped (by rwa [h.params])
    rw [h.params] at hcap
    exact hcap (h.capped hpos hle)

variable {e} {start stop t : SimTime} {d d' : PoissonDemand C}

lemma makeTrip_cases {trip : Option (TripRequest C)} (h : e.makeTrip d t = some (trip, d')) :
    Follows d d' trip.toList ∧ ∀ r ∈ trip, r.t = t := by
  rw [makeTrip] at h
  dsimp only at h
  split_ifs at h with hkept hcap
  · cases h
    exact ⟨⟨rfl, rfl, rfl, rfl, fun _ h => h⟩, nofun⟩
  · obtain ⟨cls, -, h⟩ := Option.bind_eq_some_iff.1 h
    obtain ⟨od, -, h⟩ := Option.map_eq_some_iff.1 h
    cases h
    refine ⟨⟨rfl, rfl, rfl, rfl, fun hpos _ => ?_⟩, by rintro r ⟨⟩; rfl⟩
    exact Nat.lt_of_not_le fun hle => hcap ⟨hpos, hle⟩
  · cases h
    exact ⟨⟨rfl, rfl, rfl, rfl, fun _ h => h⟩, nofun⟩

lemma lt_advance {next : SimTime × RngStream} (h : e.advance d t = some next) (ht : t < u64Max) :
    t < next.1 := by
  rw [advance] at h
  split_ifs at h with hrate
  · cases h
    exact ht
  · obtain ⟨gap, -, rfl⟩ := Option.map_eq_some_iff.1 h
    exact lt_min (Nat.lt_add_of_pos_right (lt_max_of_lt_right Nat.one_pos)) ht

/-- **What a candidate does.** The next one is later, and the trip it becomes starts at its instant,
in the window. -/
theorem candidate_cases {trip : Option (TripRequest C)}
    (h : e.candidate start t d = some (trip, d')) (ht : t < u64Max) :
    Follows d d' trip.toList ∧ (∀ r ∈ trip, r.t = t ∧ start ≤ t) ∧
      ∃ t', d'.next = some t' ∧ t < t' := by
  obtain ⟨⟨trip', made⟩, hmade, h⟩ := Option.bind_eq_some_iff.1 h
  obtain ⟨next, hnext, h⟩ := Option.map_eq_some_iff.1 h
  cases h
  split_ifs at hmade with hstart
  · obtain ⟨hfollows, htime⟩ := makeTrip_cases hmade
    exact ⟨⟨hfollows.params, hfollows.eventMultiplier, hfollows.seq, hfollows.numbered,
      hfollows.capped⟩, fun r hr => ⟨htime r hr, hstart⟩, next.1, rfl, lt_advance hnext ht⟩
  · cases hmade
    exact ⟨⟨rfl, rfl, rfl, rfl, fun _ h => h⟩, nofun, next.1, rfl, lt_advance hnext ht⟩

/-- In two windows that both hold it a candidate does the same. -/
lemma candidate_congr {start' : SimTime} (h : start ≤ t) (h' : start' ≤ t) :
    e.candidate start t d = e.candidate start' t d := by
  rw [candidate, candidate, if_pos h, if_pos h']

/-! ## A window -/

variable (e) in
/-- The loop over the candidates of a window. No instant of a window is at or past the largest
`u64`. -/
def spawnLoop (start stop : SimTime) (d : PoissonDemand C) :
    Option (List (TripRequest C) × PoissonDemand C) :=
  match _hn : d.next with
  | none => some ([], d)
  | some t =>
    if _hstop : stop ≤ t ∨ u64Max ≤ t then some ([], d)
    else
      match _hc : e.candidate start t d with
      | none => none
      | some (trip, d') => (spawnLoop start stop d').map fun r => (trip.toList ++ r.1, r.2)
termination_by stop - d.next.getD 0
decreasing_by
  obtain ⟨hstop, hmax⟩ := not_or.1 _hstop
  obtain ⟨-, -, t', hnext, hlt⟩ := candidate_cases _hc (not_le.1 hmax)
  rw [_hn, hnext, Option.getD_some, Option.getD_some]
  exact Nat.sub_lt_sub_left (not_le.1 hstop) hlt

variable (e) in
/-- The trips of a window of time. -/
def spawnsIn (start stop : SimTime) (d : PoissonDemand C) :
    Option (List (TripRequest C) × PoissonDemand C) :=
  if stop ≤ start then some ([], d)
  else
    match d.next with
    | none =>
      (e.advance d start).bind fun next =>
        e.spawnLoop start stop { d with next := some next.1, rng := next.2 }
    | some _ => e.spawnLoop start stop d

lemma spawnLoop_none (h : d.next = none) : e.spawnLoop start stop d = some ([], d) := by
  rw [spawnLoop]
  split
  · rfl
  · rw [h] at *
    cases ‹none = some _›

lemma spawnLoop_stop (h : d.next = some t) (hstop : stop ≤ t ∨ u64Max ≤ t) :
    e.spawnLoop start stop d = some ([], d) := by
  rw [spawnLoop]
  split
  · rfl
  · rename_i t' ht'
    cases h.symm.trans ht'
    rw [dif_pos hstop]

lemma spawnLoop_step (h : d.next = some t) (hstop : t < stop) (hmax : t < u64Max) :
    e.spawnLoop start stop d = (e.candidate start t d).bind fun c =>
      (e.spawnLoop start stop c.2).map fun r => (c.1.toList ++ r.1, r.2) := by
  rw [spawnLoop]
  split
  · rename_i hn
    cases h.symm.trans hn
  · rename_i t' ht'
    cases h.symm.trans ht'
    rw [dif_neg (not_or.2 ⟨not_le.2 hstop, not_le.2 hmax⟩)]
    split
    · rename_i hc
      rw [hc]
      rfl
    · rename_i trip d' hc
      rw [hc]
      rfl

/-- The induction over the candidates of a window. -/
lemma spawnLoop_induction {P : PoissonDemand C → Prop} (e : Site C) (start stop : SimTime)
    (hnone : ∀ d, d.next = none → P d)
    (hstop : ∀ d t, d.next = some t → stop ≤ t ∨ u64Max ≤ t → P d)
    (hstep : ∀ d t, d.next = some t → t < stop → t < u64Max →
      (∀ trip d', e.candidate start t d = some (trip, d') → P d') → P d) (d : PoissonDemand C) :
    P d := by
  induction hk : stop - d.next.getD 0 using Nat.strong_induction_on generalizing d with
  | _ k ih =>
    cases hn : d.next with
    | none => exact hnone d hn
    | some t =>
      by_cases hlast : stop ≤ t ∨ u64Max ≤ t
      · exact hstop d t hn hlast
      · obtain ⟨hlt, hmax⟩ := not_or.1 hlast
        refine hstep d t hn (not_le.1 hlt) (not_le.1 hmax) fun trip d' hc => ih _ ?_ d' rfl
        obtain ⟨-, -, t', hnext, hlater⟩ := candidate_cases hc (not_le.1 hmax)
        rw [← hk, hn, hnext, Option.getD_some, Option.getD_some]
        exact Nat.sub_lt_sub_left (not_le.1 hlt) hlater

/-- From the first candidate on, it does not matter where the window starts before it. -/
lemma spawnLoop_congr {start' : SimTime} :
    ∀ d : PoissonDemand C, (∀ t ∈ d.next, start ≤ t ∧ start' ≤ t) →
      e.spawnLoop start stop d = e.spawnLoop start' stop d := by
  refine spawnLoop_induction e start stop ?_ ?_ ?_
  · intro d hn _
    rw [spawnLoop_none hn, spawnLoop_none hn]
  · intro d t hn hlast _
    rw [spawnLoop_stop hn hlast, spawnLoop_stop hn hlast]
  · intro d t hn hlt hmax ih hnext
    obtain ⟨hs, hs'⟩ := hnext t hn
    rw [spawnLoop_step hn hlt hmax, spawnLoop_step hn hlt hmax, ← candidate_congr hs hs']
    refine Option.bind_congr fun c hc => ?_
    obtain ⟨-, -, t', hn', hlt'⟩ := candidate_cases hc hmax
    rw [ih c.1 c.2 hc fun t'' ht'' => ?_]
    obtain rfl : t' = t'' := Option.some.inj (hn'.symm.trans ht'')
    exact ⟨hs.trans hlt'.le, hs'.trans hlt'.le⟩

/-- **What a loop does.** The trips are numbered on, start in the window and one after the other,
and the next candidate lies behind the window. -/
lemma spawnLoop_cases :
    ∀ (d : PoissonDemand C) (r : List (TripRequest C) × PoissonDemand C),
      e.spawnLoop start stop d = some r →
      Follows d r.2 r.1 ∧ (r.1.map TripRequest.t).Pairwise (· < ·) ∧
      (∀ x ∈ r.1, start ≤ x.t ∧ x.t < stop ∧ ∀ t ∈ d.next, t ≤ x.t) ∧
      r.2.next.isSome = d.next.isSome ∧ ∀ t ∈ r.2.next, stop ≤ t ∨ u64Max ≤ t := by
  refine spawnLoop_induction e start stop ?_ ?_ ?_
  · intro d hn r h
    rw [spawnLoop_none hn] at h
    cases h
    exact ⟨.refl d, .nil, nofun, rfl, by rw [hn]; exact nofun⟩
  · intro d t hn hlast r h
    rw [spawnLoop_stop hn hlast] at h
    cases h
    refine ⟨.refl d, .nil, nofun, rfl, ?_⟩
    rw [hn]
    rintro _ ⟨⟩
    exact hlast
  · intro d t hn hlt hmax ih r h
    rw [spawnLoop_step hn hlt hmax] at h
    obtain ⟨⟨trip, d'⟩, hc, h⟩ := Option.bind_eq_some_iff.1 h
    obtain ⟨r', hr', rfl⟩ := Option.map_eq_some_iff.1 h
    obtain ⟨hfollows, htime, t', hn', hlt'⟩ := candidate_cases hc hmax
    obtain ⟨hrest, hsorted, hwindow, hsome, hnext⟩ := ih trip d' hc r' hr'
    have hlater : ∀ x ∈ r'.1, t < x.t := fun x hx =>
      hlt'.trans_le ((hwindow x hx).2.2 t' hn')
    refine ⟨hfollows.trans hrest, ?_, fun x hx => ?_, by rw [hsome, hn', hn]; rfl, hnext⟩
    · rw [List.map_append, List.pairwise_append]
      refine ⟨by cases trip <;> simp, hsorted, fun a ha b hb => ?_⟩
      obtain ⟨x, hx, rfl⟩ := List.mem_map.1 ha
      obtain ⟨y, hy, rfl⟩ := List.mem_map.1 hb
      rw [(htime x (Option.mem_toList.1 hx)).1]
      exact hlater y hy
    · rw [hn]
      rcases List.mem_append.1 hx with hx | hx
      · obtain ⟨rfl, hstart⟩ := htime x (Option.mem_toList.1 hx)
        exact ⟨hstart, hlt, fun u hu => (Option.some.inj hu).ge⟩
      · refine ⟨(hwindow x hx).1, (hwindow x hx).2.1, ?_⟩
        rintro u ⟨⟩
        exact (hlater x hx).le

/-- **Cutting a loop.** -/
lemma spawnLoop_append {mid : SimTime} (hstart : start ≤ mid) (hmid : mid ≤ stop) :
    ∀ d : PoissonDemand C, e.spawnLoop start stop d =
      (e.spawnLoop start mid d).bind fun r =>
        (e.spawnLoop mid stop r.2).map fun q => (r.1 ++ q.1, q.2) := by
  refine spawnLoop_induction e start stop ?_ ?_ ?_
  · intro d hn
    rw [spawnLoop_none hn, spawnLoop_none hn, Option.bind_some, spawnLoop_none hn]
    rfl
  · intro d t hn hlast
    rw [spawnLoop_stop hn hlast, spawnLoop_stop hn (hlast.imp_left hmid.trans),
      Option.bind_some, spawnLoop_stop hn hlast]
    rfl
  · intro d t hn hlt hmax' ih
    rcases Nat.lt_or_ge t mid with hlow | hhigh
    · rw [spawnLoop_step hn hlt hmax', spawnLoop_step hn hlow hmax', Option.bind_assoc]
      refine Option.bind_congr fun c hc => ?_
      rw [ih c.1 c.2 hc, Option.map_bind, Option.bind_map]
      refine Option.bind_congr fun r _ => ?_
      simp only [Function.comp_apply, Option.map_map]
      congr 1
      funext q
      simp
    · have hcongr : e.spawnLoop start stop d = e.spawnLoop mid stop d := by
        refine spawnLoop_congr d ?_
        rw [hn]
        rintro _ ⟨⟩
        exact ⟨hstart.trans hhigh, hhigh⟩
      rw [spawnLoop_stop hn (.inl hhigh), Option.bind_some, hcongr]
      exact Option.map_id'.symm

/-- The process, started where it has not been. -/
lemma spawnsIn_eq (h : start < stop) : e.spawnsIn start stop d =
    (if d.next.isNone then
      (e.advance d start).map fun next => { d with next := some next.1, rng := next.2 }
    else some d).bind (e.spawnLoop start stop) := by
  rw [spawnsIn, if_neg (not_le.2 h)]
  cases hn : d.next with
  | none => rw [Option.isNone_none, if_pos rfl, Option.bind_map]; rfl
  | some t => rfl

/-- **What a window does.** -/
lemma spawnsIn_cases {r : List (TripRequest C) × PoissonDemand C}
    (h : e.spawnsIn start stop d = some r) :
    Follows d r.2 r.1 ∧ (r.1.map TripRequest.t).Pairwise (· < ·) ∧
      (∀ x ∈ r.1, start ≤ x.t ∧ x.t < stop) ∧
      (start < stop → ∃ t, r.2.next = some t ∧ (stop ≤ t ∨ u64Max ≤ t)) := by
  rcases Nat.lt_or_ge start stop with hlt | hge
  · rw [spawnsIn_eq hlt] at h
    obtain ⟨d', hd', h⟩ := Option.bind_eq_some_iff.1 h
    obtain ⟨hfollows, hsorted, hwindow, hsome, hnext⟩ := spawnLoop_cases d' r h
    have hstarted : Follows d d' [] ∧ d'.next.isSome := by
      split_ifs at hd' with hnone
      · obtain ⟨next, -, rfl⟩ := Option.map_eq_some_iff.1 hd'
        exact ⟨⟨rfl, rfl, rfl, rfl, fun _ h => h⟩, rfl⟩
      · cases hd'
        exact ⟨.refl d, Option.isNone_eq_false_iff.1 (Bool.eq_false_of_not_eq_true hnone)⟩
    obtain ⟨t, ht⟩ := Option.isSome_iff_exists.1 (hsome.trans hstarted.2)
    exact ⟨hstarted.1.trans hfollows, hsorted, fun x hx => ⟨(hwindow x hx).1, (hwindow x hx).2.1⟩,
      fun _ => ⟨t, ht, hnext t ht⟩⟩
  · rw [spawnsIn, if_pos hge] at h
    cases h
    exact ⟨.refl d, .nil, nofun, fun hlt => absurd hlt (not_lt.2 hge)⟩

/-- **Cutting a window in two.** -/
theorem spawnsIn_append {mid : SimTime} (hstart : start ≤ mid) (hmid : mid ≤ stop) :
    e.spawnsIn start stop d = (e.spawnsIn start mid d).bind fun r =>
      (e.spawnsIn mid stop r.2).map fun q => (r.1 ++ q.1, q.2) := by
  rcases hstart.eq_or_lt with rfl | hlt
  · have hempty : e.spawnsIn start start d = some ([], d) := if_pos le_rfl
    rw [hempty, Option.bind_some]
    exact Option.map_id'.symm
  rcases hmid.eq_or_lt with rfl | hlt'
  · have hempty (d : PoissonDemand C) : e.spawnsIn mid mid d = some ([], d) := if_pos le_rfl
    simp only [hempty, Option.map_some, List.append_nil]
    exact (Option.bind_fun_some _).symm
  rw [spawnsIn_eq (hlt.trans hlt'), spawnsIn_eq hlt, Option.bind_assoc]
  refine Option.bind_congr fun d' hd' => ?_
  rw [spawnLoop_append hstart hmid]
  refine Option.bind_congr fun r hr => ?_
  -- The process has started, so the second window goes on with the loop.
  have hsome : d'.next.isSome := by
    split_ifs at hd' with hnone
    · obtain ⟨next, -, rfl⟩ := Option.map_eq_some_iff.1 hd'
      rfl
    · cases hd'
      exact Option.isNone_eq_false_iff.1 (Bool.eq_false_of_not_eq_true hnone)
  have hstarted : r.2.next.isNone = false := by
    rw [Option.isNone_eq_false_iff, (spawnLoop_cases d' r hr).2.2.2.1]
    exact hsome
  rw [spawnsIn_eq hlt', hstarted, if_neg Bool.false_ne_true]
  rfl

/-! ## Windows one after the other -/

variable (e) in
/-- The trips of consecutive windows, each from where the last one ends. -/
def spawnsOver : SimTime → List SimTime → PoissonDemand C →
    Option (List (List (TripRequest C)) × PoissonDemand C)
  | _, [], d => some ([], d)
  | start, stop :: cuts, d =>
    (e.spawnsIn start stop d).bind fun r =>
      (spawnsOver stop cuts r.2).map fun q => (r.1 :: q.1, q.2)

/-- Any cutting of a window makes the trips of the window, and leaves the model as it does. -/
lemma spawnsOver_flatten (cuts : List SimTime) :
    ∀ (start : SimTime) (d : PoissonDemand C), (start :: cuts).IsChain (· ≤ ·) →
      (e.spawnsOver start cuts d).map (fun r => (r.1.flatten, r.2)) =
        e.spawnsIn start ((start :: cuts).getLast (List.cons_ne_nil _ _)) d := by
  induction cuts with
  | nil => exact fun start d _ => (if_pos le_rfl).symm
  | cons mid cuts ih =>
    intro start d h
    obtain ⟨hle, hrest⟩ := List.isChain_cons_cons.1 h
    have hlast : mid ≤ (mid :: cuts).getLast (List.cons_ne_nil _ _) := by
      have hpair := List.isChain_iff_pairwise.1 hrest
      rcases List.mem_cons.1 (List.getLast_mem (List.cons_ne_nil mid cuts)) with h | h
      · exact h.ge
      · exact List.rel_of_pairwise_cons hpair h
    rw [List.getLast_cons (List.cons_ne_nil mid cuts), spawnsIn_append hle hlast, spawnsOver,
      Option.map_bind]
    refine Option.bind_congr fun r _ => ?_
    rw [← ih mid r.2 hrest, Function.comp_apply, Option.map_map, Option.map_map]
    rfl

/-- The trips of consecutive windows lie in their windows. -/
lemma spawnsOver_windows (cuts : List SimTime) :
    ∀ (start : SimTime) (d : PoissonDemand C) (r : List (List (TripRequest C)) × PoissonDemand C),
      e.spawnsOver start cuts d = some r →
      List.Forall₂ (fun (out : List (TripRequest C)) (w : SimTime × SimTime) =>
        ∀ x ∈ out, w.1 ≤ x.t ∧ x.t < w.2) r.1 ((start :: cuts).zip cuts) := by
  induction cuts with
  | nil =>
    rintro start d r ⟨⟩
    exact .nil
  | cons mid cuts ih =>
    intro start d r h
    obtain ⟨out, hout, h⟩ := Option.bind_eq_some_iff.1 h
    obtain ⟨q, hq, rfl⟩ := Option.map_eq_some_iff.1 h
    exact .cons (spawnsIn_cases hout).2.2.1 (ih mid out.2 q hq)

/-- A world of one lane. -/
def oneLane : Site Unit where
  cipher := ⟨id, fun _ _ => 0⟩
  libm := ⟨id, id, id, id⟩
  od := ⟨[0], [0], none, false, none⟩
  laneLength := fun _ => 100.0
  spec := fun _ => ⟨1.0, 13.9, 0.1, 50.0⟩
  desired := fun seq => ⟨[UInt8.ofNat seq], 0⟩

/-- The demand of one trip per second, not yet started. -/
def onePerSecond : PoissonDemand Unit where
  params := ⟨1.0, 1.0, 3, .uniform, ⟨600000000000⟩, [((), 1.0)], .legacyUniform 8.0 18.0⟩
  next := none
  seq := 0
  eventMultiplier := 1.0
  rng := ⟨[], 0⟩

end Site

end V2xw.Mobility
