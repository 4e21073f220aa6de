import Mathlib.Algebra.Order.Ring.Nat
import Mathlib.Data.List.Perm.Basic
import Mathlib.Order.Basic

/-!
# Priority queues as unordered lists

A binary heap promises only that `pop` removes an entry with the least key; the layout of the
remaining entries is its own business. This file is that promise and nothing more: a list whose
order carries no meaning, from which the entry with the least key can be taken.

## Main definitions

* `MinQueue.extractMin` — an entry with the least key, and the entries that are left.

## Main results

* `MinQueue.extractMin_perm`, `MinQueue.extractMin_le` — the entry and the rest are the queue,
  and no entry has a smaller key.
* `MinQueue.extractMin_eq_none` — only the empty queue has no least entry.
-/

namespace MinQueue

variable {α κ : Type*} [LinearOrder κ] (key : α → κ)

/-- An entry with the least key together with the other entries, `none` for an empty queue. -/
def extractMin : List α → Option (α × List α)
  | [] => none
  | a :: l =>
    match extractMin l with
    | none => some (a, [])
    | some (m, rest) => if key a ≤ key m then some (a, m :: rest) else some (m, a :: rest)

@[simp]
lemma extractMin_eq_none {l : List α} : extractMin key l = none ↔ l = [] := by
  cases l with
  | nil => simp [extractMin]
  | cons a l =>
    simp only [extractMin, reduceCtorEq, iff_false]
    cases extractMin key l with
    | none => simp
    | some p =>
      dsimp only
      split_ifs <;> simp

/-- Taking the least entry out rearranges the queue and loses nothing. -/
lemma extractMin_perm : ∀ {l : List α} {m : α} {rest : List α},
    extractMin key l = some (m, rest) → l.Perm (m :: rest)
  | a :: l, m, rest, h => by
    simp only [extractMin] at h
    cases hl : extractMin key l with
    | none =>
      rw [hl] at h
      obtain ⟨rfl, rfl⟩ : a = m ∧ [] = rest := by simpa using h
      rw [(extractMin_eq_none key).1 hl]
    | some p =>
      obtain ⟨m', rest'⟩ := p
      rw [hl] at h
      have ih := extractMin_perm hl
      dsimp only at h
      split_ifs at h with hle
      · obtain ⟨rfl, rfl⟩ : a = m ∧ m' :: rest' = rest := by simpa using h
        exact ih.cons a
      · obtain ⟨rfl, rfl⟩ : m' = m ∧ a :: rest' = rest := by simpa using h
        exact (ih.cons a).trans (List.Perm.swap m' a rest')

/-- The extracted entry has the least key of the queue. -/
lemma extractMin_le : ∀ {l : List α} {m : α} {rest : List α},
    extractMin key l = some (m, rest) → ∀ x ∈ l, key m ≤ key x
  | a :: l, m, rest, h => by
    simp only [extractMin] at h
    cases hl : extractMin key l with
    | none =>
      rw [hl] at h
      obtain ⟨rfl, rfl⟩ : a = m ∧ [] = rest := by simpa using h
      simp [(extractMin_eq_none key).1 hl]
    | some p =>
      obtain ⟨m', rest'⟩ := p
      rw [hl] at h
      have ih := extractMin_le hl
      dsimp only at h
      split_ifs at h with hle
      · obtain ⟨rfl, rfl⟩ : a = m ∧ m' :: rest' = rest := by simpa using h
        intro x hx
        rcases List.mem_cons.1 hx with rfl | hx
        · exact le_rfl
        · exact hle.trans (ih x hx)
      · obtain ⟨rfl, rfl⟩ : m' = m ∧ a :: rest' = rest := by simpa using h
        intro x hx
        rcases List.mem_cons.1 hx with rfl | hx
        · exact (not_le.1 hle).le
        · exact ih x hx

lemma extractMin_length {l : List α} {m : α} {rest : List α}
    (h : extractMin key l = some (m, rest)) : l.length = rest.length + 1 := by
  simpa using (extractMin_perm key h).length_eq

end MinQueue
