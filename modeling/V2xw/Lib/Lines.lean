import Mathlib.Data.List.Basic
import Mathlib.Data.List.Induction

/-!
# Texts of lines

A log is written line by line, each line followed by a separator that does not occur in it. It is
read back by splitting it at the separators; what follows the last one is a line too, unless it is
empty. A text that was cut is made of the lines before the cut and of a part of the next one.

## Main definitions

* `Lines.split` — the lines of a text.
* `Lines.join` — the text of some lines.

## Main results

* `Lines.split_join_append` — lines are read back, and then those of the rest.
* `Lines.take_join` — what is left of a text that was cut.
-/

namespace Lines

variable {α : Type*} [DecidableEq α] (sep : α)

/-- The lines of a text. -/
def split : List α → List (List α)
  | [] => []
  | a :: as =>
    if a = sep then [] :: split as
    else
      match split as with
      | [] => [[a]]
      | l :: ls => (a :: l) :: ls

/-- The text of some lines. -/
def join (ls : List (List α)) : List α := ls.flatMap fun l => l ++ [sep]

variable {sep} {x rest : List α}

lemma split_append (h : sep ∉ x) : split sep (x ++ sep :: rest) = x :: split sep rest := by
  induction x with
  | nil => rw [List.nil_append, split, if_pos rfl]
  | cons a x ih =>
    obtain ⟨ha, hx⟩ : sep ≠ a ∧ sep ∉ x := by simpa using h
    rw [List.cons_append, split, if_neg (Ne.symm ha), ih hx]

lemma split_of_not_mem (h : sep ∉ x) (hx : x ≠ []) : split sep x = [x] := by
  induction x with
  | nil => exact absurd rfl hx
  | cons a x ih =>
    obtain ⟨ha, hmem⟩ : sep ≠ a ∧ sep ∉ x := by simpa using h
    rw [split, if_neg (Ne.symm ha)]
    cases x with
    | nil => rfl
    | cons b x => rw [ih hmem (List.cons_ne_nil _ _)]

lemma split_join_append {ls : List (List α)} (h : ∀ l ∈ ls, sep ∉ l) :
    split sep (join sep ls ++ rest) = ls ++ split sep rest := by
  induction ls with
  | nil => rfl
  | cons l ls ih =>
    obtain ⟨hl, hls⟩ := List.forall_mem_cons.1 h
    rw [join, List.flatMap_cons, List.append_assoc, List.append_assoc, List.singleton_append,
      split_append hl]
    exact congrArg (l :: ·) (ih hls)

omit [DecidableEq α] in
lemma join_append (ls ls' : List (List α)) :
    join sep (ls ++ ls') = join sep ls ++ join sep ls' := List.flatMap_append

omit [DecidableEq α] in
/-- **What is left of a text that was cut**: its first lines, and perhaps a part of the next. -/
lemma take_join (ls : List (List α)) : ∀ k, ∃ pre suf, ls = pre ++ suf ∧
    ((join sep ls).take k = join sep pre ∨
      ∃ l suf' y, suf = l :: suf' ∧ y ≠ [] ∧ y <+: l ∧
          (join sep ls).take k = join sep pre ++ y) := by
  induction ls with
  | nil => exact fun k => ⟨[], [], rfl, .inl (List.take_nil)⟩
  | cons l ls ih =>
    intro k
    have hjoin : join sep (l :: ls) = l ++ ([sep] ++ join sep ls) := by
      rw [join, List.flatMap_cons, List.append_assoc]
      rfl
    rcases Nat.lt_or_ge l.length k with hlt | hle
    · -- the cut is after the first line
      obtain ⟨pre, suf, rfl, hcut⟩ := ih (k - (l.length + 1))
      have htake : (join sep (l :: (pre ++ suf))).take k =
          l ++ [sep] ++ (join sep (pre ++ suf)).take (k - (l.length + 1)) := by
        rw [hjoin, ← List.append_assoc, List.take_append, List.take_of_length_le]
        · rw [List.length_append, List.length_singleton]
        · rw [List.length_append, List.length_singleton]
          exact hlt
      refine ⟨l :: pre, suf, rfl, ?_⟩
      have hpre : join sep (l :: pre) = l ++ [sep] ++ join sep pre := List.flatMap_cons
      rcases hcut with hcut | ⟨l', suf', y, rfl, hy, hyl, hcut⟩
      · refine .inl ?_
        rw [htake, hcut, hpre]
      · refine .inr ⟨l', suf', y, rfl, hy, hyl, ?_⟩
        rw [htake, hcut, hpre]
        simp only [List.append_assoc]
    · -- the cut is in the first line
      have htake : (join sep (l :: ls)).take k = l.take k := by
        rw [hjoin, List.take_append_of_le_length hle]
      refine ⟨[], l :: ls, rfl, ?_⟩
      by_cases hk : l.take k = []
      · exact .inl (htake.trans hk)
      · exact .inr ⟨l, ls, l.take k, rfl, hk, List.take_prefix k l, htake⟩

omit [DecidableEq α] in
lemma getLast_join (ls : List (List α)) :
    join sep ls = [] ∨ (join sep ls).getLast? = some sep := by
  induction ls using List.reverseRecOn with
  | nil => exact .inl rfl
  | append_singleton ls l _ =>
    refine .inr ?_
    rw [join_append, show join sep [l] = l ++ [sep] from List.append_nil _, ← List.append_assoc,
      List.getLast?_append]
    rfl

omit [DecidableEq α] in
lemma getLast_join_append {ls : List (List α)} {y : List α} (hy : y ≠ []) (hsep : sep ∉ y) :
    join sep ls ++ y ≠ [] ∧ (join sep ls ++ y).getLast? ≠ some sep := by
  refine ⟨fun h => hy (List.append_eq_nil_iff.1 h).2, fun h => ?_⟩
  rw [List.getLast?_append_of_ne_nil _ hy] at h
  exact hsep (List.mem_of_getLast? h)

end Lines
