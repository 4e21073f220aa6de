import Mathlib.Data.List.Sort
import Mathlib.Data.Prod.Lex
import Mathlib.Order.Interval.Finset.Nat

/-!
# Spans of whole numbers

A span `(a, b)` covers the numbers from `a` up to, and without, `b`. A number stands for the unit
that begins at it, so the length of a union of spans is how many numbers it has. Sorted spans are
measured in one pass that joins those that touch.

## Main definitions

* `Spans.covered` — what a list of spans covers.
* `Spans.joined` — the pass over sorted spans, with the span being joined.
* `Spans.clip` — the part of a span in a window.

## Main results

* `Spans.joined_eq` — the pass over sorted spans measures their union.
* `Spans.covered_clip` — clipped spans cover what the spans do in the window.
-/

namespace Spans

/-- What a list of spans covers. -/
def covered (l : List (ℕ × ℕ)) : Finset ℕ := l.foldr (fun x s => Finset.Ico x.1 x.2 ∪ s) ∅

@[simp]
lemma mem_covered {l : List (ℕ × ℕ)} {t : ℕ} : t ∈ covered l ↔ ∃ x ∈ l, x.1 ≤ t ∧ t < x.2 := by
  induction l with
  | nil => simp [covered]
  | cons x l ih =>
    rw [covered, List.foldr_cons, ← covered, Finset.mem_union, ih, Finset.mem_Ico]
    simp

lemma covered_cons (x : ℕ × ℕ) (l : List (ℕ × ℕ)) :
    covered (x :: l) = Finset.Ico x.1 x.2 ∪ covered l := rfl

lemma covered_congr {l l' : List (ℕ × ℕ)} (h : ∀ x, x ∈ l ↔ x ∈ l') : covered l = covered l' := by
  ext t
  simp only [mem_covered, h]

/-- The total length of sorted spans: those that touch the current one are joined to it, and the
first that does not ends it. -/
def joined : List (ℕ × ℕ) → ℕ → Option (ℕ × ℕ) → ℕ
  | [], total, none => total
  | [], total, some (lo, hi) => total + (hi - lo)
  | x :: rest, total, none => joined rest total (some x)
  | (lo, hi) :: rest, total, some (lo', hi') =>
    if lo ≤ hi' then joined rest total (some (lo', max hi' hi))
    else joined rest (total + (hi' - lo')) (some (lo, hi))

lemma ico_union_ico {lo' hi' lo hi : ℕ} (h : lo' ≤ lo) (h' : lo ≤ hi') :
    Finset.Ico lo' hi' ∪ Finset.Ico lo hi = Finset.Ico lo' (max hi' hi) := by
  ext t
  simp only [Finset.mem_union, Finset.mem_Ico]
  omega

/-- The pass with a current span that begins before the others. -/
lemma joined_some (l : List (ℕ × ℕ)) (hsorted : l.Pairwise fun x y => x.1 ≤ y.1) :
    ∀ total lo hi, (∀ x ∈ l, lo ≤ x.1) →
      joined l total (some (lo, hi)) = total + (Finset.Ico lo hi ∪ covered l).card := by
  induction l with
  | nil =>
    intro total lo hi _
    simp [joined, covered]
  | cons x l ih =>
    intro total lo' hi' hfirst
    obtain ⟨lo, hi⟩ := x
    obtain ⟨hx, hsorted⟩ := List.pairwise_cons.1 hsorted
    have hlo : lo' ≤ lo := hfirst _ List.mem_cons_self
    rw [joined, covered_cons]
    split_ifs with htouch
    · rw [ih hsorted _ _ _ fun y hy => hlo.trans (hx y hy), ← Finset.union_assoc,
        ico_union_ico hlo htouch]
    · rw [ih hsorted _ _ _ hx]
      -- The current span ends before all the others begin.
      have hapart : Disjoint (Finset.Ico lo' hi') (Finset.Ico lo hi ∪ covered l) := by
        rw [Finset.disjoint_left]
        intro t ht hmem
        rw [Finset.mem_Ico] at ht
        rcases Finset.mem_union.1 hmem with hmem | hmem
        · rw [Finset.mem_Ico] at hmem
          omega
        · obtain ⟨y, hy, hyt, -⟩ := mem_covered.1 hmem
          have := hx y hy
          omega
      rw [Finset.card_union_of_disjoint hapart, Nat.card_Ico, Nat.add_assoc]

/-- **The pass over sorted spans measures their union.** -/
lemma joined_eq {l : List (ℕ × ℕ)} (hsorted : l.Pairwise fun x y => x.1 ≤ y.1) :
    joined l 0 none = (covered l).card := by
  cases l with
  | nil => rfl
  | cons x l =>
    obtain ⟨hx, hsorted⟩ := List.pairwise_cons.1 hsorted
    rw [joined, joined_some l hsorted 0 x.1 x.2 hx, Nat.zero_add]
    rfl

/-- The part of a span from `lo` up to `hi`, if there is one. -/
def clip (lo hi : ℕ) (x : ℕ × ℕ) : Option (ℕ × ℕ) :=
  if min x.2 hi > max x.1 lo then some (max x.1 lo, min x.2 hi) else none

/-- **Clipped spans** cover what the spans do in the window. -/
lemma covered_clip (l : List (ℕ × ℕ)) (lo hi : ℕ) :
    covered (l.filterMap (clip lo hi)) = covered l ∩ Finset.Ico lo hi := by
  ext t
  simp only [mem_covered, Finset.mem_inter, Finset.mem_Ico, List.mem_filterMap, clip]
  constructor
  · rintro ⟨y, ⟨x, hx, hclip⟩, ht⟩
    split_ifs at hclip
    obtain rfl := Option.some.inj hclip
    exact ⟨⟨x, hx, by simp only at ht; omega⟩, by simp only at ht; omega⟩
  · rintro ⟨⟨x, hx, hxt⟩, ht⟩
    refine ⟨(max x.1 lo, min x.2 hi), ⟨x, hx, if_pos (by omega)⟩, ?_⟩
    simp only
    omega

end Spans
