import Mathlib.Algebra.Order.Ring.Nat
import Mathlib.Order.MinMax

/-!
# Simulated time

Instants and spans of `crates/v2xw-core/src/time.rs`, in nanoseconds. Both are `u64` in the source;
they are naturals here, with the saturation of the arithmetic written out.

## Main definitions

* `SimTime`, `Duration` — instants and spans.
* `Duration.after` — the instant a span after another, saturating.
-/

namespace V2xw.Core

/-- Nanoseconds since `t0`. -/
abbrev SimTime := ℕ

/-- The largest `u64`, the end of simulated time. -/
def u64Max : ℕ := 2 ^ 64 - 1

/-- Nanoseconds in a millisecond. -/
def nsPerMs : ℕ := 1000000

/-- A span of simulated time. -/
structure Duration where
  ns : ℕ
  deriving DecidableEq, Repr

/-- A span of `ms` milliseconds, saturating at the largest span. -/
def Duration.fromMillis (ms : ℕ) : Duration := ⟨min (ms * nsPerMs) u64Max⟩

/-- The instant `d` after `t`, saturating at the end of time. -/
def Duration.after (d : Duration) (t : SimTime) : SimTime := min (t + d.ns) u64Max

lemma Duration.after_mono (d : Duration) {s t : SimTime} (h : s ≤ t) : d.after s ≤ d.after t :=
  min_le_min_right _ (Nat.add_le_add_right h _)

end V2xw.Core
