import Mathlib.Algebra.Order.Ring.Rat
import Mathlib.Algebra.Order.Floor.Semiring
import Mathlib.Data.Rat.Floor
import V2xw.Core.Time
import V2xw.Lib.Budget

/-!
# The EN 302 571 floor

The limits that hold under every congestion control, in `crates/v2xw-radio/src/dcc.rs`: the longest
air time, the idle time after a frame and the duty cycle. Floating-point numbers are rationals.

## Main definitions

* `En302571Floor` — the limits.
* `En302571Floor.tOff` — the idle time after a frame.
* `DutyCycleWindow` — the sends of the last second.
* `Grant`, `Conforms` — frames let pass, and the floor over all of them.

## Main results

* `Kept.grant` — one more frame.
-/

namespace V2xw.Radio

open Core (SimTime Duration u64Max)

/-- Nanoseconds in a second. -/
def nsPerS : ℕ := 1000000000

/-- Seconds to nanoseconds, rounded half up, saturating at both ends. -/
def secsToNs (seconds : ℚ) : ℕ :=
  if seconds ≤ 0 then 0 else min ⌊seconds * nsPerS + 1 / 2⌋₊ u64Max

/-- A span of seconds. -/
def Duration.fromSecs (seconds : ℚ) : Duration := ⟨secsToNs seconds⟩

/-- A span in seconds. -/
def Duration.asSecs (d : Duration) : ℚ := (d.ns : ℚ) / nsPerS

/-- The longer of two spans, the second if they are equal. -/
def Duration.longer (d e : Duration) : Duration := if e.ns < d.ns then d else e

@[simp]
lemma Duration.longer_ns (d e : Duration) : (Duration.longer d e).ns = max d.ns e.ns := by
  unfold Duration.longer
  split_ifs with h
  · rw [max_eq_left h.le]
  · rw [max_eq_right (not_lt.1 h)]

/-! ## The limits -/

/-- The limits of EN 302 571. -/
structure En302571Floor where
  enforced : Bool
  tOnMax : Duration
  dutyCycleMax : ℚ
  tOffMin : Duration
  cth : ℚ
  cW : ℚ
  deriving DecidableEq, Repr

namespace En302571Floor

/-- The floor as the standards define it. -/
def conformant : En302571Floor where
  enforced := true
  tOnMax := Duration.fromMillis 4
  dutyCycleMax := 3 / 100
  tOffMin := Duration.fromMillis 25
  cth := 62 / 100
  cW := 1

/-- The idle time for a load, or nothing where the load does not restrict. -/
def tOffLimit (f : En302571Floor) (tOn : Duration) (cbr : ℚ) : Option Duration :=
  if f.enforced = false ∨ cbr < f.cth ∨ f.cW ≤ 0 ∨ cbr ≤ 0 then none
  else
    let factor := 4000 * (cbr - f.cth) / cbr - 1
    if factor ≤ 0 then none
    else
      let ms := Duration.asSecs tOn * 1000 * factor / f.cW
      let capped := min ms 1000
      some (Duration.fromSecs (capped / 1000))

/-- The idle time after a frame. -/
def tOff (f : En302571Floor) (tOn : Duration) (cbr : ℚ) : Duration :=
  if f.enforced = false then ⟨0⟩
  else Duration.longer ((f.tOffLimit tOn cbr).getD ⟨0⟩) f.tOffMin

/-- Whether a frame may be sent at all. -/
def admits (f : En302571Floor) (tOn : Duration) : Bool :=
  if f.enforced then tOn.ns != 0 && decide (tOn.ns ≤ f.tOnMax.ns) else tOn.ns != 0

end En302571Floor

/-! ## The duty cycle -/

/-- The sends of a node inside the last second, in time order. -/
structure DutyCycleWindow where
  sends : List (SimTime × ℕ)
  deriving DecidableEq, Repr

namespace DutyCycleWindow

/-- Whether an instant is after the start of the window that ends at `now`. -/
def inside (now t : SimTime) : Bool := decide (now - nsPerS < t)

/-- Forgets the sends before the window. -/
def prune (d : DutyCycleWindow) (now : SimTime) : DutyCycleWindow :=
  ⟨d.sends.filter fun e => inside now e.1⟩

/-- Counts a send. -/
def note (d : DutyCycleWindow) (t : SimTime) (air : Duration) : DutyCycleWindow :=
  prune ⟨d.sends ++ [(t, air.ns)]⟩ t

/-- The air time used in the window that ends at `now`. -/
def usedNs (d : DutyCycleWindow) (now : SimTime) : ℕ := Budget.weight (inside now) d.sends

/-- The duty cycle with one more frame. -/
def projected (d : DutyCycleWindow) (now : SimTime) (air : Duration) : ℚ :=
  ((d.usedNs now + air.ns : ℕ) : ℚ) / nsPerS

end DutyCycleWindow

/-! ## Frames let pass -/

/-- A frame that was let pass: when, for how long, and the idle time the floor asks for after it. -/
structure Grant where
  time : SimTime
  air : Duration
  tOff : Duration
  deriving DecidableEq, Repr

/-- The air times of frames, by instant. -/
def airTimes (log : List Grant) : List (ℕ × ℕ) := log.map fun g => (g.time, g.air.ns)

/-- The conformant floor over all frames of a node: each has an air time of at most 4 ms, each
starts no sooner than the idle time after the end of those before it, and the frames of a second
take at most 3 percent of it. -/
structure Conforms (log : List Grant) : Prop where
  air : ∀ g ∈ log, 0 < g.air.ns ∧ g.air.ns ≤ 4000000
  idle : log.Pairwise fun g g' => g.time + g.air.ns + g.tOff.ns ≤ g'.time
  duty : ∀ a, ((Budget.within nsPerS a (airTimes log) : ℕ) : ℚ) / nsPerS ≤ 3 / 100

/-- The duty cycle over the second up to an instant, with one more frame. -/
def dutyCycle (log : List Grant) (now : SimTime) (air : Duration) : ℚ :=
  ((Budget.recent nsPerS now (airTimes log) + air.ns : ℕ) : ℚ) / nsPerS

/-- The floor holds so far, and the gate stays closed for the idle time. -/
structure Kept (openAt : SimTime) (log : List Grant) : Prop where
  conforms : Conforms log
  closed : ∀ g ∈ log, g.time + g.air.ns + g.tOff.ns ≤ openAt

lemma div_le_iff_le (n : ℕ) : (n : ℚ) / nsPerS ≤ 3 / 100 ↔ n ≤ 30000000 := by
  rw [div_le_div_iff₀ (by decide) (by decide), nsPerS]
  norm_cast
  omega

lemma En302571Floor.conformant_admits {air : Duration} (h : conformant.admits air = true) :
    0 < air.ns ∧ air.ns ≤ 4000000 := by
  have h4 : (Duration.fromMillis 4).ns = 4000000 := by decide
  simp only [admits, conformant, if_true, Bool.and_eq_true, bne_iff_ne, ne_eq, decide_eq_true_eq,
    h4] at h
  omega

lemma Kept.nil (openAt : SimTime) : Kept openAt [] := by
  refine ⟨⟨nofun, List.Pairwise.nil, fun a => ?_⟩, nofun⟩
  rw [div_le_iff_le]
  exact Nat.zero_le _

/-- **One more frame**, through an open gate, within the duty cycle, and with the gate closed for
the idle time after its end. -/
theorem Kept.grant {openAt openAt' : SimTime} {log : List Grant} {g : Grant} (h : Kept openAt log)
    (hair : 0 < g.air.ns ∧ g.air.ns ≤ 4000000) (hopen : openAt ≤ g.time)
    (hduty : dutyCycle log g.time g.air ≤ 3 / 100)
    (hclose : g.time + g.air.ns + g.tOff.ns ≤ openAt') : Kept openAt' (log ++ [g]) := by
  have hlater : ∀ x ∈ log, x.time + x.air.ns + x.tOff.ns ≤ g.time := fun x hx =>
    (h.closed x hx).trans hopen
  refine ⟨⟨fun x hx => ?_, List.pairwise_append.2 ⟨h.conforms.idle, List.pairwise_singleton _ _,
    fun x hx y hy => ?_⟩, fun a => ?_⟩, fun x hx => ?_⟩
  · rcases List.mem_append.1 hx with hx | hx
    · exact h.conforms.air x hx
    · rw [List.mem_singleton.1 hx]
      exact hair
  · rw [List.mem_singleton.1 hy]
    exact hlater x hx
  · rw [div_le_iff_le, airTimes, List.map_append]
    refine Budget.within_concat_le (fun b => (div_le_iff_le _).1 (h.conforms.duty b)) ?_ a
    exact (div_le_iff_le _).1 hduty
  · rcases List.mem_append.1 hx with hx | hx
    · refine (hlater x hx).trans (le_trans ?_ hclose)
      exact (Nat.le_add_right _ _).trans (Nat.le_add_right _ _)
    · rw [List.mem_singleton.1 hx]
      exact hclose

end V2xw.Radio
