import Mathlib.Algebra.Order.Ring.Nat
import Mathlib.Data.List.Rotate
import Mathlib.Order.Defs.LinearOrder

/-!
# Draining an ascending list

A cursor goes through an ascending list: the next element is the least one above the cursor, and
the first one again once there is none above it. Every turn through the list visits each element
once.

## Main definitions

* `Drain.above`, `Drain.next` — the next element above a cursor, and the next one at all.
* `Drain.Walk` — a cursor's successive elements.

## Main results

* `Drain.next_ne` — with two elements the cursor moves.
* `Drain.Walk.perm` — a walk as long as the list visits every element exactly once.
-/

namespace Drain

variable {α : Type*} [LinearOrder α]

/-- The first element above the cursor. -/
def above (l : List α) : Option α → Option α
  | some c => l.find? (c < ·)
  | none => l.head?

/-- The first element above the cursor, or else the first one. -/
def next (l : List α) (cur : Option α) : Option α := (above l cur).or l.head?

lemma lt_of_above {l : List α} {c p : α} (h : above l (some c) = some p) : c < p := by
  simpa using List.find?_some h

lemma le_of_above_eq_none {l : List α} {c : α} (h : above l (some c) = none) :
    ∀ q ∈ l, q ≤ c := by
  intro q hq
  have hnone := List.find?_eq_none.1 h q hq
  exact not_lt.1 (by simpa using hnone)

lemma mem_of_above {l : List α} {cur : Option α} {p : α} (h : above l cur = some p) : p ∈ l := by
  cases cur with
  | none => exact List.mem_of_head? h
  | some c => exact List.mem_of_find?_eq_some h

lemma mem_of_next {l : List α} {cur : Option α} {p : α} (h : next l cur = some p) : p ∈ l := by
  rcases Option.or_eq_some_iff.1 h with habove | ⟨-, hhead⟩
  · exact mem_of_above habove
  · exact List.mem_of_head? hhead

lemma next_eq_none {l : List α} {cur : Option α} (h : next l cur = none) : l = [] :=
  List.head?_eq_none_iff.1 (Option.or_eq_none_iff.1 h).2

/-- The element after the one at a position is the one at the next position, around the end. -/
lemma next_getElem {l : List α} (hl : l.Pairwise (· < ·)) {k : ℕ} (hk : k < l.length) :
    next l (some l[k]) = l[(k + 1) % l.length]? := by
  have hmono {i j : ℕ} (hi : i < l.length) (hj : j < l.length) (hij : i < j) : l[i] < l[j] :=
    List.pairwise_iff_getElem.1 hl i j hi hj hij
  rcases Nat.lt_or_ge (k + 1) l.length with hlt | hge
  · have habove : above l (some l[k]) = some l[k + 1] := by
      apply List.find?_eq_some_iff_getElem.2
      refine ⟨by simpa using hmono hk hlt (Nat.lt_succ_self k), k + 1, hlt, rfl, ?_⟩
      intro j hj
      have hle : l[j] ≤ l[k] := by
        rcases Nat.lt_succ_iff_lt_or_eq.1 hj with hjk | rfl
        · exact (hmono _ hk hjk).le
        · exact le_rfl
      simpa using hle
    rw [next, habove, Nat.mod_eq_of_lt hlt, List.getElem?_eq_getElem hlt]
    rfl
  · have hlast : k + 1 = l.length := by omega
    have habove : above l (some l[k]) = none := by
      apply List.find?_eq_none.2
      intro q hq
      obtain ⟨j, hj, rfl⟩ := List.getElem_of_mem hq
      have hle : l[j] ≤ l[k] := by
        rcases Nat.lt_or_ge j k with hjk | hkj
        · exact (hmono hj hk hjk).le
        · obtain rfl : j = k := by omega
          exact le_rfl
      simpa using hle
    rw [next, habove, hlast, Nat.mod_self, Option.none_or, List.head?_eq_getElem?]

/-- With two elements the cursor moves to another one. -/
lemma next_ne {l : List α} (hl : l.Pairwise (· < ·)) (h2 : 2 ≤ l.length) {c : α} (hc : c ∈ l) :
    next l (some c) ≠ some c := by
  obtain ⟨k, hk, rfl⟩ := List.getElem_of_mem hc
  rw [next_getElem hl hk]
  intro h
  obtain ⟨hlt, heq⟩ := List.getElem?_eq_some_iff.1 h
  have hnodup : l.Nodup := hl.imp ne_of_lt
  have hpos : (k + 1) % l.length = k := (hnodup.getElem_inj_iff).1 heq
  rcases Nat.lt_or_ge (k + 1) l.length with hsucc | hge
  · rw [Nat.mod_eq_of_lt hsucc] at hpos
    omega
  · obtain hlast : k + 1 = l.length := by omega
    rw [hlast, Nat.mod_self] at hpos
    omega

/-- The elements a cursor visits, one after the other. -/
inductive Walk (l : List α) : Option α → List α → Prop
  | nil (cur : Option α) : Walk l cur []
  | cons {cur : Option α} {x : α} {xs : List α} :
      next l cur = some x → Walk l (some x) xs → Walk l cur (x :: xs)

/-- A walk from a position goes through the positions after it, around the end. -/
lemma Walk.getElem? {l : List α} (hl : l.Pairwise (· < ·)) {cur : Option α} {xs : List α}
    (h : Walk l cur xs) :
    ∀ {k : ℕ} (hk : k < l.length), cur = some l[k] → ∀ t, t < xs.length →
      xs[t]? = l[(t + (k + 1)) % l.length]? := by
  induction h with
  | nil => exact fun _ _ t ht => absurd ht (Nat.not_lt_zero t)
  | @cons cur x xs hx _ ih =>
    intro k hk hcur t ht
    have hpos : 0 < l.length := Nat.zero_lt_of_lt hk
    have hk' : (k + 1) % l.length < l.length := Nat.mod_lt _ hpos
    rw [hcur, next_getElem hl hk, List.getElem?_eq_getElem hk'] at hx
    have hx' : some x = some l[(k + 1) % l.length] := hx.symm
    cases t with
    | zero => rw [List.getElem?_cons_zero, Nat.zero_add, hx', List.getElem?_eq_getElem hk']
    | succ t =>
      have hrest := ih hk' hx' t (by simpa using ht)
      rw [List.getElem?_cons_succ, hrest]
      congr 1
      calc (t + ((k + 1) % l.length + 1)) % l.length
          = ((k + 1) % l.length + (t + 1)) % l.length := by congr 1; omega
        _ = (k + 1 + (t + 1)) % l.length := Nat.mod_add_mod _ _ _
        _ = (t + 1 + (k + 1)) % l.length := by rw [Nat.add_comm]

/-- **A turn visits everything once.** A walk from an element that is as long as the list is a
rotation of the list. -/
lemma Walk.perm {l : List α} (hl : l.Pairwise (· < ·)) {c : α} (hc : c ∈ l) {xs : List α}
    (h : Walk l (some c) xs) (hlen : xs.length = l.length) : xs.Perm l := by
  obtain ⟨k, hk, rfl⟩ := List.getElem_of_mem hc
  have hrotate : xs = l.rotate (k + 1) := by
    apply List.ext_getElem?
    intro t
    rcases Nat.lt_or_ge t xs.length with ht | ht
    · rw [h.getElem? hl hk rfl t ht, List.getElem?_rotate (by omega)]
    · rw [List.getElem?_eq_none ht, List.getElem?_eq_none (by rw [List.length_rotate]; omega)]
  rw [hrotate]
  exact List.rotate_perm l (k + 1)

end Drain
