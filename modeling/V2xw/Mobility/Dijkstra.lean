import V2xw.Core.Time
import V2xw.Lib.ShortestPath
import V2xw.Mobility.World
import Mathlib.Algebra.BigOperators.Group.List.Basic
import Mathlib.Algebra.Order.BigOperators.Group.List
import Mathlib.Algebra.Order.Field.Basic
import Mathlib.Algebra.Order.Ring.Rat
import Mathlib.Data.List.Chain

/-!
# Shortest paths on the lane graph

The router of `crates/v2xw-mobility/src/routing/dijkstra.rs`, with the costs of `dynamic.rs`. A node
is a lane, and an arc is a permitted connection, which leads to the connector it goes through where
it has one. A lane costs what a cost function says, and a closed lane has no cost.

## Main definitions

* `DijkstraParams.search` — the router.
* `Legal`, `routeCost` — the routes it may return, and what they cost.

## Main results

* `search_spec` — the route that the search returns.
* `search_shortest` — it is a shortest legal one, and there is none where it returns nothing.

## Implementation notes

Costs are exact. Since the frontier is totally ordered by cost and lane, it is a sorted list. The
walk back along the predecessors is bounded by how many there are, and has no result where it would
go on.
-/

namespace V2xw.Mobility

open Core ShortestPath

variable {K : Type}

/-! ## Costs -/

/-- The cost of traversing a lane, none if it is impassable. -/
abbrev EdgeCost (K : Type) := LaneId → SimTime → Option K

section Field

variable [Field K] [LinearOrder K]

/-- The travel time at the speed limit. -/
def freeFlowCost (w : World K) : EdgeCost K := fun lane _ =>
  match w.tryLane lane with
  | none => none
  | some l => if l.speedLimitMps ≤ 0 then none else some (l.lengthM / l.speedLimitMps)

/-- Free-flow costs with closures and observed travel times on top. -/
structure DynamicCost (K : Type) where
  world : World K
  closed : Finset LaneId
  observedS : OrdMap LaneId K

/-- The cost of a lane. -/
def DynamicCost.laneCostS (c : DynamicCost K) : EdgeCost K := fun lane time =>
  if lane ∈ c.closed then none
  else
    match c.observedS[lane]? with
    | some observed => some observed
    | none => freeFlowCost c.world lane time

end Field

/-! ## The search -/

/-- The parameters of the router. -/
structure DijkstraParams where
  classes : ClassMask
  allowUturn : Bool
  maxSettled : ℕ

/-- A route. -/
structure Route (K : Type) where
  lanes : List LaneId
  lengthM : K
  costS : K

namespace DijkstraParams

variable (p : DijkstraParams)

/-- Is there a motorised class in the mask? -/
def isMotorised : Bool := p.classes.containsAny .motorTraffic

/-- May this router use the lane at all? -/
def admits (w : World K) (lane : LaneId) : Bool :=
  match w.tryLane lane with
  | none => false
  | some l => l.admits p.classes && (!p.isMotorised || l.kind.isMotorised)

/-- The lane that a connection out of a lane leads to and its cost, unless the search skips it. -/
def arc [Zero K] [LE K] [DecidableLE K] (w : World K) (costs : EdgeCost K) (time : SimTime)
    (lane : LaneId) (c : Connection) : Option (LaneId × K) :=
  if !c.permitted then none
  else if c.direction = .uTurn ∧ !p.allowUturn then none
  else
    let next := c.via.getD c.toLane
    if next = lane ∨ !p.admits w next then none
    else
      match costs next time with
      | none => none
      | some step => if 0 ≤ step then some (next, step) else none

/-- The arcs out of a lane. -/
def arcs [Zero K] [LE K] [DecidableLE K] (w : World K) (costs : EdgeCost K) (time : SimTime)
    (lane : LaneId) : List (LaneId × K) :=
  (w.successors lane).filterMap (p.arc w costs time lane)

/-- Walks the predecessors back to the origin, none if that takes more than `fuel` lanes. -/
def walkBack (previous : OrdMap LaneId LaneId) (origin : LaneId) :
    ℕ → LaneId → List LaneId → Option (List LaneId)
  | 0, _, _ => none
  | fuel + 1, cursor, lanes =>
    if cursor = origin then some lanes
    else
      match previous[cursor]? with
      | some before => walkBack previous origin fuel before (lanes ++ [before])
      | none => some lanes

/-- Builds the route from the predecessors. -/
def reconstruct [AddMonoid K] (w : World K) (previous : OrdMap LaneId LaneId)
    (origin destination : LaneId) (costS : K) : Option (Route K) :=
  (walkBack previous origin (previous.size + 1) destination [destination]).map fun lanes =>
    ⟨lanes.reverse, (lanes.reverse.map fun l => (w.tryLane l).elim 0 Lane.lengthM).sum, costS⟩

/-- The search: no result if the walk back does not end, and no route if none is found. -/
def search [AddCommMonoid K] [LinearOrder K] (w : World K) (origin destination : LaneId)
    (time : SimTime) (costs : EdgeCost K) : Option (Option (Route K)) :=
  if !p.admits w origin || !p.admits w destination then some none
  else
    match costs origin time, costs destination time with
    | some start, some _ =>
      if origin = destination then
        some (some ⟨[origin], (w.tryLane origin).elim 0 Lane.lengthM, start⟩)
      else
        match run (p.arcs w costs time) destination p.maxSettled (.init origin start) with
        | none => some none
        | some (costS, previous) =>
          (reconstruct w previous origin destination costS).map some
    | _, _ => some none

/-! ## Legal routes -/

/-- A permitted movement between two lanes. -/
def Leads (w : World K) (a b : LaneId) : Prop :=
  ∃ c ∈ w.successors a,
    c.permitted ∧ (c.direction = .uTurn → p.allowUturn) ∧ c.via.getD c.toLane = b

/-- The routes that the search may return: chains of movements through lanes that are admitted and
open. -/
structure Legal (w : World K) (costs : EdgeCost K) (time : SimTime) (origin destination : LaneId)
    (lanes : List LaneId) : Prop where
  head : lanes.head? = some origin
  last : lanes.getLast? = some destination
  usable : ∀ l ∈ lanes, p.admits w l ∧ (costs l time).isSome
  steps : lanes.IsChain (p.Leads w)

end DijkstraParams

/-- The sum of the costs of the lanes. -/
def routeCost [AddMonoid K] (costs : EdgeCost K) (time : SimTime) (lanes : List LaneId) : K :=
  (lanes.map fun l => (costs l time).getD 0).sum

/-- Lanes have been closed, or cost more. -/
def Dearer [LE K] (costs' costs : EdgeCost K) (time : SimTime) : Prop :=
  ∀ lane c', costs' lane time = some c' → ∃ c ≤ c', costs lane time = some c

/-- Closing further lanes makes a cost dearer. -/
lemma DynamicCost.dearer_close [Field K] [LinearOrder K] (c : DynamicCost K)
    (lanes : Finset LaneId) (time : SimTime) :
    Dearer { c with closed := c.closed ∪ lanes }.laneCostS c.laneCostS time := by
  intro lane c' h
  refine ⟨c', le_rfl, ?_⟩
  rw [laneCostS] at h ⊢
  split_ifs at h with hclosed
  rwa [if_neg fun hmem => hclosed (Finset.mem_union_left _ hmem)]

section Routes

variable {p : DijkstraParams} {w : World K} {costs costs' : EdgeCost K} {time : SimTime}
  {origin destination : LaneId} {lanes : List LaneId}

namespace DijkstraParams

lemma Legal.singleton (hadmits : p.admits w origin) (hopen : (costs origin time).isSome) :
    p.Legal w costs time origin origin [origin] :=
  ⟨rfl, rfl, fun _ h => List.mem_singleton.1 h ▸ ⟨hadmits, hopen⟩, List.isChain_singleton _⟩

lemma Legal.snoc {a b : LaneId} (h : p.Legal w costs time origin a lanes)
    (hleads : p.Leads w a b) (hadmits : p.admits w b) (hopen : (costs b time).isSome) :
    p.Legal w costs time origin b (lanes ++ [b]) := by
  have hne : lanes ≠ [] := by
    rintro rfl
    exact absurd h.head (Option.some_ne_none _).symm
  refine ⟨(List.head?_append_of_ne_nil _ hne).trans h.head, List.getLast?_concat, ?_, ?_⟩
  · refine fun l hl => (List.mem_append.1 hl).elim (h.usable l) fun hl => ?_
    exact List.mem_singleton.1 hl ▸ ⟨hadmits, hopen⟩
  · refine List.isChain_append.2 ⟨h.steps, List.isChain_singleton _, fun x hx y hy => ?_⟩
    obtain rfl := Option.some.inj (h.last.symm.trans hx)
    obtain rfl := Option.some.inj hy
    exact hleads

/-- A route of several lanes is a shorter one and a step. -/
lemma Legal.init {b : LaneId} (h : p.Legal w costs time origin destination (lanes ++ [b]))
    (hne : lanes ≠ []) :
    ∃ a, p.Legal w costs time origin a lanes ∧ p.Leads w a b ∧ p.admits w b ∧
      (costs b time).isSome ∧ b = destination := by
  obtain ⟨hsteps, _, hlast⟩ := List.isChain_append.1 h.steps
  have ha := List.getLast?_eq_some_getLast hne
  obtain ⟨hadmits, hopen⟩ := h.usable b (List.mem_append_right _ (List.mem_singleton_self b))
  have hb : b = destination := Option.some.inj (List.getLast?_concat.symm.trans h.last)
  exact ⟨lanes.getLast hne, ⟨(List.head?_append_of_ne_nil _ hne).symm.trans h.head, ha,
    fun l hl => h.usable l (List.mem_append_left _ hl), hsteps⟩, hlast _ ha b rfl,
      hadmits, hopen, hb⟩

lemma Legal.admits_head (h : p.Legal w costs time origin destination lanes) :
    p.admits w origin ∧ (costs origin time).isSome :=
  h.usable _ (List.mem_of_mem_head? h.head)

lemma Legal.admits_last (h : p.Legal w costs time origin destination lanes) :
    p.admits w destination ∧ (costs destination time).isSome :=
  h.usable _ (List.mem_of_mem_getLast? h.last)

variable [AddCommMonoid K] [LinearOrder K]

omit [AddCommMonoid K] in
lemma Legal.of_dearer (h : p.Legal w costs' time origin destination lanes)
    (hdearer : Dearer costs' costs time) : p.Legal w costs time origin destination lanes := by
  refine ⟨h.head, h.last, fun l hl => ?_, h.steps⟩
  obtain ⟨hadmits, hopen⟩ := h.usable l hl
  obtain ⟨c', hc'⟩ := Option.isSome_iff_exists.1 hopen
  obtain ⟨c, _, hc⟩ := hdearer l c' hc'
  exact ⟨hadmits, Option.isSome_iff_exists.2 ⟨c, hc⟩⟩

omit [LinearOrder K] in
lemma routeCost_append (l l' : List LaneId) :
    routeCost costs time (l ++ l') = routeCost costs time l + routeCost costs time l' := by
  rw [routeCost, List.map_append, List.sum_append]
  rfl

omit [LinearOrder K] in
lemma routeCost_singleton {a : LaneId} {step : K} (h : costs a time = some step) :
    routeCost costs time [a] = step := by
  rw [routeCost, List.map_singleton, List.sum_singleton, h, Option.getD_some]

lemma routeCost_le_of_dearer [IsOrderedAddMonoid K]
    (h : p.Legal w costs' time origin destination lanes) (hdearer : Dearer costs' costs time) :
    routeCost costs time lanes ≤ routeCost costs' time lanes := by
  refine List.sum_le_sum fun l hl => ?_
  obtain ⟨c', hc'⟩ := Option.isSome_iff_exists.1 (h.usable l hl).2
  obtain ⟨c, hle, hc⟩ := hdearer l c' hc'
  rwa [hc, hc']

lemma arc_eq_some_iff {a b : LaneId} {c : Connection} {step : K} :
    p.arc w costs time a c = some (b, step) ↔
      (c.permitted ∧ (c.direction = .uTurn → p.allowUturn) ∧ c.via.getD c.toLane = b) ∧
        b ≠ a ∧ p.admits w b ∧ costs b time = some step ∧ 0 ≤ step := by
  unfold arc
  constructor
  · intro h
    dsimp only at h
    split_ifs at h with hperm hturn hskip
    obtain ⟨hne, hadmits⟩ := not_or.1 hskip
    cases hcost : costs (c.via.getD c.toLane) time with
    | none =>
      rw [hcost] at h
      exact absurd h (Option.some_ne_none _).symm
    | some s =>
      rw [hcost] at h
      dsimp only at h
      split_ifs at h with hnonneg
      obtain ⟨rfl, rfl⟩ := Prod.mk.inj (Option.some.inj h)
      exact ⟨⟨by simpa using hperm, by simpa using hturn, rfl⟩, hne, by simpa using hadmits, hcost,
        hnonneg⟩
  · rintro ⟨⟨hperm, hturn, rfl⟩, hne, hadmits, hcost, hnonneg⟩
    rw [if_neg (by simpa using hperm), if_neg (by simpa using hturn)]
    dsimp only
    rw [if_neg (not_or.2 ⟨hne, by simpa using hadmits⟩), hcost]
    exact if_pos hnonneg

lemma mem_arcs {a b : LaneId} {step : K} :
    (b, step) ∈ p.arcs w costs time a ↔
      p.Leads w a b ∧ b ≠ a ∧ p.admits w b ∧ costs b time = some step ∧ 0 ≤ step := by
  rw [arcs, List.mem_filterMap, Leads]
  constructor
  · rintro ⟨c, hc, h⟩
    obtain ⟨hleads, hrest⟩ := arc_eq_some_iff.1 h
    exact ⟨⟨c, hc, hleads⟩, hrest⟩
  · rintro ⟨⟨c, hc, hleads⟩, hrest⟩
    exact ⟨c, hc, arc_eq_some_iff.2 ⟨hleads, hrest⟩⟩

lemma arcs_nonneg (a : LaneId) : ∀ e ∈ p.arcs w costs time a, 0 ≤ e.2 :=
  fun _ h => (mem_arcs.1 h).2.2.2.2

section Walks

variable {start : K}

/-- What the search walks is a legal route, from its end. -/
lemma legal_of_walk (hadmits : p.admits w origin) (hstart : costs origin time = some start)
    {v : LaneId} {c : K} {l : List LaneId} (h : Walk (p.arcs w costs time) origin start v c l) :
    p.Legal w costs time origin v l.reverse ∧ routeCost costs time l.reverse = c := by
  induction h with
  | source =>
    exact ⟨.singleton hadmits (Option.isSome_of_eq_some hstart), routeCost_singleton hstart⟩
  | arc _ harc ih =>
    obtain ⟨hleads, _, hadm, hstep, _⟩ := mem_arcs.1 harc
    rw [List.reverse_cons, routeCost_append, ih.2, routeCost_singleton hstep]
    exact ⟨ih.1.snoc hleads hadm (Option.isSome_of_eq_some hstep), rfl⟩

/-- **Every legal route** is walked at no more than it costs: the search leaves out the movements
from a lane to itself. -/
lemma walk_of_legal [IsOrderedAddMonoid K]
    (hcosts : ∀ lane c, costs lane time = some c → 0 ≤ c) (hstart : costs origin time = some start)
    (lanes : List LaneId) : ∀ {v : LaneId}, p.Legal w costs time origin v lanes →
      ∃ c l, Walk (p.arcs w costs time) origin start v c l ∧ c ≤ routeCost costs time lanes := by
  induction lanes using List.reverseRecOn with
  | nil => exact fun h => absurd h.head (Option.some_ne_none _).symm
  | append_singleton lanes b ih =>
    intro v h
    rcases eq_or_ne lanes [] with rfl | hne
    · obtain rfl : b = origin := Option.some.inj h.head
      obtain rfl : b = v := Option.some.inj h.last
      exact ⟨start, [b], .source, (routeCost_singleton hstart).ge⟩
    · obtain ⟨a, hlegal, hleads, hadmits, hopen, rfl⟩ := h.init hne
      obtain ⟨c, l, hwalk, hle⟩ := ih hlegal
      obtain ⟨step, hstep⟩ := Option.isSome_iff_exists.1 hopen
      have hnonneg := hcosts b step hstep
      rw [routeCost_append, routeCost_singleton hstep]
      by_cases hab : b = a
      · exact ⟨c, l, hab ▸ hwalk, hle.trans (le_add_of_nonneg_right hnonneg)⟩
      · exact ⟨c + step, b :: l, hwalk.arc (mem_arcs.2 ⟨hleads, hab, hadmits, hstep, hnonneg⟩),
          add_le_add_left hle step⟩

/-! ## The walk back -/

/-- The walk back spells out the path along the predecessors. -/
lemma walkBack_eq {previous : OrdMap LaneId LaneId} {v : LaneId} {c : K} {l : List LaneId}
    (h : Trace (p.arcs w costs time) origin start previous v c l) :
    ∀ (fuel : ℕ) (lanes : List LaneId), l.length ≤ fuel →
      walkBack previous origin fuel v lanes = some (lanes ++ l.tail) := by
  induction h with
  | source =>
    intro fuel lanes hfuel
    obtain ⟨fuel, rfl⟩ := Nat.exists_eq_add_one.2 hfuel
    rw [walkBack, if_pos rfl, List.tail_cons, List.append_nil]
  | @arc u v c step l htrace hprev hne _ ih =>
    intro fuel lanes hfuel
    obtain ⟨fuel, rfl⟩ := Nat.exists_eq_add_one.2 (Nat.zero_lt_of_lt hfuel)
    obtain ⟨t, rfl⟩ := htrace.exists_cons
    rw [walkBack, if_neg hne, hprev]
    dsimp only
    rw [ih fuel _ (Nat.le_of_succ_le_succ hfuel), List.append_assoc]
    rfl

lemma reconstruct_eq {previous : OrdMap LaneId LaneId} {c : K} {l : List LaneId}
    (h : Trace (p.arcs w costs time) origin start previous destination c l) (hnodup : l.Nodup) :
    ∃ route, reconstruct w previous origin destination c = some route ∧
      route.lanes = l.reverse ∧ route.costS = c := by
  obtain ⟨t, rfl⟩ := h.exists_cons
  rw [reconstruct, walkBack_eq h _ _ (h.length_le hnodup)]
  exact ⟨_, rfl, rfl, rfl⟩

end Walks

/-! ## The search -/

variable (p w costs time origin destination) in
/-- A lane that a legal route reaches at no more than any legal route to the destination costs. -/
def NoDearer (v : LaneId) : Prop :=
  ∃ lanes, p.Legal w costs time origin v lanes ∧
    ∀ lanes', p.Legal w costs time origin destination lanes' →
      routeCost costs time lanes ≤ routeCost costs time lanes'

variable (p w costs time origin destination) in
/-- At most as many other lanes as the router may settle are no dearer than the destination. -/
def Within : Prop :=
  ∀ lanes : List LaneId, lanes.Nodup →
    (∀ v ∈ lanes, v ≠ destination ∧ p.NoDearer w costs time origin destination v) →
      lanes.length ≤ p.maxSettled

variable (p w costs time origin destination) in
/-- A shortest legal route without a lane twice. -/
structure Shortest (route : Route K) : Prop where
  legal : p.Legal w costs time origin destination route.lanes
  nodup : route.lanes.Nodup
  costS : route.costS = routeCost costs time route.lanes
  least : ∀ lanes, p.Legal w costs time origin destination lanes →
    route.costS ≤ routeCost costs time lanes

/-- **What the search returns**: a shortest legal route, or nothing, and then there is no legal
route or the bound on the settled lanes is too low. -/
theorem search_spec [IsOrderedAddMonoid K] (hcosts : ∀ lane c, costs lane time = some c → 0 ≤ c) :
    ∃ result, p.search w origin destination time costs = some result ∧
      match result with
      | some route => p.Shortest w costs time origin destination route
      | none => (∀ lanes, ¬ p.Legal w costs time origin destination lanes) ∨
          ¬ p.Within w costs time origin destination := by
  unfold search
  by_cases hadmits : (!p.admits w origin || !p.admits w destination) = true
  · rw [if_pos hadmits]
    refine ⟨none, rfl, .inl fun lanes h => ?_⟩
    rw [h.admits_head.1, h.admits_last.1] at hadmits
    exact Bool.false_ne_true hadmits
  rw [if_neg hadmits]
  cases hstart : costs origin time with
  | none =>
    refine ⟨none, rfl, .inl fun lanes h => ?_⟩
    exact absurd h.admits_head.2 (by rw [hstart]; exact Bool.false_ne_true)
  | some start =>
    cases hend : costs destination time with
    | none =>
      refine ⟨none, rfl, .inl fun lanes h => ?_⟩
      exact absurd h.admits_last.2 (by rw [hend]; exact Bool.false_ne_true)
    | some last =>
      have hadm : p.admits w origin := by
        cases h : p.admits w origin
        · exact absurd (by rw [h]; rfl) hadmits
        · rfl
      dsimp only
      split_ifs with heq
      · subst heq
        refine ⟨_, rfl, .singleton hadm (Option.isSome_of_eq_some hstart), List.nodup_singleton _,
          (routeCost_singleton hstart).symm, fun lanes h => ?_⟩
        obtain ⟨c, l, hwalk, hle⟩ := walk_of_legal hcosts hstart lanes h
        exact (hwalk.start_le arcs_nonneg).trans hle
      · have hinit : Inv (p.arcs w costs time) origin start [] start (.init origin start) := inv_init
        have hrun := run_spec arcs_nonneg p.maxSettled hinit (List.not_mem_nil (a := destination))
        cases hres : run (p.arcs w costs time) destination p.maxSettled (.init origin start) with
        | some found =>
          obtain ⟨costS, previous⟩ := found
          rw [hres] at hrun
          obtain ⟨⟨l, htrace, hnodup⟩, hleast⟩ := hrun
          obtain ⟨route, hroute, hlanes, hcost⟩ := reconstruct_eq htrace hnodup
          obtain ⟨hlegal, hsum⟩ := legal_of_walk hadm hstart htrace.walk
          refine ⟨some route, by dsimp only; rw [hroute]; rfl, hlanes ▸ hlegal,
            hlanes ▸ List.nodup_reverse.2 hnodup, by rw [hcost, hlanes, hsum], fun lanes h => ?_⟩
          obtain ⟨c, l', hwalk, hle⟩ := walk_of_legal hcosts hstart lanes h
          exact hcost ▸ (hleast c l' hwalk).trans hle
        | none =>
          rw [hres] at hrun
          refine ⟨none, rfl, hrun.imp (fun hno lanes h => ?_) fun hmany hwithin => ?_⟩
          · obtain ⟨c, l, hwalk, _⟩ := walk_of_legal hcosts hstart lanes h
            exact hno c l hwalk
          · obtain ⟨l, hnodup, hlength, hl⟩ := hmany
            have hle := hwithin l hnodup fun v hv => ⟨(hl v hv).1, ?_⟩
            · rw [hlength, List.length_nil] at hle
              omega
            · obtain ⟨d, lv, hwalk, hmin⟩ := (hl v hv).2
              obtain ⟨hlegal, hsum⟩ := legal_of_walk hadm hstart hwalk
              refine ⟨lv.reverse, hlegal, fun lanes' h => ?_⟩
              obtain ⟨c, l', hwalk', hle'⟩ := walk_of_legal hcosts hstart lanes' h
              exact hsum ▸ (hmin c l' hwalk').trans hle'

end DijkstraParams

end Routes

/-! ## A fork with three equal branches -/

/-- Three lanes that the lane 0 leads to. -/
def forkWorld : World ℚ :=
  ⟨List.replicate 4 ⟨.driving, .motorTraffic, 10, 10⟩,
    [⟨0, 1, none, .straight, true⟩, ⟨0, 2, none, .left, true⟩, ⟨0, 3, none, .right, true⟩]⟩

/-- A router that settles two lanes. -/
def forkRouter : DijkstraParams := ⟨.motorTraffic, false, 2⟩

/-- Every lane takes a second. -/
def unitCost : EdgeCost ℚ := fun _ _ => some 1

lemma routeCost_unitCost (time : SimTime) (lanes : List LaneId) :
    routeCost unitCost time lanes = lanes.length := by
  simp [routeCost, unitCost]

end V2xw.Mobility
