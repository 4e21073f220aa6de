import Mathlib.Data.List.Basic

/-!
# Numbered logs

A log whose entries carry increasing numbers, each of which may append elements to a table that is
kept beside the log. A reader that lost the end of the log can be sent it again from a bounded
suffix, and the table it held is found from marks that say where the table grew.

## Main definitions

* `NumLog.Increasing` — the numbers of a log increase.
* `NumLog.marks` — where a table grows along a log, and how long it was.
* `NumLog.lengthAt` — the length of a table at a number, read off the marks.

## Main results

* `NumLog.filter_of_suffix` — a suffix replays a log from every number it holds.
* `NumLog.lengthAt_marks`, `NumLog.take_append` — the table at a number.
* `NumLog.find_dropWhile` — marks before the suffix are not needed.
-/

namespace NumLog

variable {α β : Type} {num : α → ℕ} {ext : α → List β}

/-- The numbers of a log increase. -/
def Increasing (num : α → ℕ) (log : List α) : Prop := log.Pairwise fun a b => num a < num b

namespace Increasing

lemma filter {log : List α} (h : Increasing num log) (p : α → Bool) :
    Increasing num (log.filter p) := List.Pairwise.filter p h

lemma concat {log : List α} {a : α} (h : Increasing num log) (ha : ∀ b ∈ log, num b < num a) :
    Increasing num (log ++ [a]) :=
  List.pairwise_append.2 ⟨h, List.pairwise_singleton _ _, fun b hb c hc => by
    rw [List.mem_singleton.1 hc]
    exact ha b hb⟩

end Increasing

/-! ## Replaying -/

/-- **A suffix replays a log** from every number it reaches back to. -/
lemma filter_of_suffix {kept log : List α} (h : Increasing num log) (hk : kept <:+ log) {n : ℕ}
    (hn : ∃ a ∈ kept, num a ≤ n) :
    kept.filter (fun a => decide (n ≤ num a)) = log.filter fun a => decide (n ≤ num a) := by
  obtain ⟨lost, rfl⟩ := hk
  obtain ⟨a, ha, han⟩ := hn
  have hlost : lost.filter (fun a => decide (n ≤ num a)) = [] := by
    refine List.filter_eq_nil_iff.2 fun b hb => ?_
    have hba : num b < num a := (List.pairwise_append.1 h).2.2 b hb a ha
    rw [decide_eq_true_eq]
    omega
  rw [List.filter_append, hlost, List.nil_append]

/-- A log is what comes before a number and what comes from it on. -/
lemma filter_append_filter {log : List α} (h : Increasing num log) (n : ℕ) :
    log.filter (fun a => decide (num a < n)) ++ log.filter (fun a => decide (n ≤ num a)) = log := by
  induction log with
  | nil => rfl
  | cons a log ih =>
    obtain ⟨ha, hlog⟩ := List.pairwise_cons.1 h
    have ih := ih hlog
    by_cases han : num a < n
    · rw [List.filter_cons_of_pos (by simpa using han),
        List.filter_cons_of_neg (by simpa using han), List.cons_append, ih]
    · -- Nothing after `a` comes before `n` either.
      have hnil : log.filter (fun b => decide (num b < n)) = [] := by
        refine List.filter_eq_nil_iff.2 fun b hb => ?_
        have := ha b hb
        rw [decide_eq_true_eq]
        omega
      rw [hnil, List.nil_append] at ih
      rw [List.filter_cons_of_neg (by simpa using han),
        List.filter_cons_of_pos (by simpa using han), hnil, List.nil_append, ih]

/-! ## Tables -/

/-- Where a table of a length grows along a log: the numbers of the entries that append to it, and
its length before each of them. -/
def marks (num : α → ℕ) (ext : α → List β) : ℕ → List α → List (ℕ × ℕ)
  | _, [] => []
  | len, a :: log =>
    if ext a = [] then marks num ext len log
    else (num a, len) :: marks num ext (len + (ext a).length) log

/-- The length of a table at a number: that of the first mark from there on, or the whole. -/
def lengthAt (marks : List (ℕ × ℕ)) (whole n : ℕ) : ℕ :=
  match marks.find? fun m => decide (n ≤ m.1) with
  | some m => m.2
  | none => whole

lemma marks_append (log log' : List α) :
    ∀ len, marks num ext len (log ++ log') =
      marks num ext len log ++ marks num ext (len + (log.flatMap ext).length) log' := by
  induction log with
  | nil => intro len; rfl
  | cons a log ih =>
    intro len
    by_cases ha : ext a = []
    · rw [List.cons_append, marks, marks, if_pos ha, if_pos ha, ih, List.flatMap_cons, ha,
        List.nil_append]
    · rw [List.cons_append, marks, marks, if_neg ha, if_neg ha, ih, List.flatMap_cons,
        List.length_append, List.cons_append, Nat.add_assoc]

/-- **The length of the table at a number** counts what the entries before it appended. -/
lemma lengthAt_marks {log : List α} (h : Increasing num log) (n : ℕ) :
    ∀ len, lengthAt (marks num ext len log) (len + (log.flatMap ext).length) n =
      len + ((log.filter fun a => decide (num a < n)).flatMap ext).length := by
  induction log with
  | nil => intro len; rfl
  | cons a log ih =>
    intro len
    obtain ⟨ha, hlog⟩ := List.pairwise_cons.1 h
    have ih := ih hlog
    by_cases han : num a < n
    · rw [List.filter_cons_of_pos (by simpa using han), List.flatMap_cons, List.flatMap_cons,
        List.length_append, List.length_append, ← Nat.add_assoc, ← Nat.add_assoc, ← ih]
      by_cases hext : ext a = []
      · rw [marks, if_pos hext, hext, List.length_nil, Nat.add_zero]
      · rw [marks, if_neg hext, lengthAt, List.find?_cons_of_neg (by simpa using han)]
        rfl
    · have hlate : ∀ b ∈ log, ¬ decide (num b < n) = true := by
        intro b hb
        have := ha b hb
        rw [decide_eq_true_eq]
        omega
      have hrest : log.filter (fun b => decide (num b < n)) = [] :=
        List.filter_eq_nil_iff.2 hlate
      rw [List.filter_cons_of_neg (by simpa using han), hrest]
      by_cases hext : ext a = []
      · have ih := ih len
        rw [hrest] at ih
        rw [marks, if_pos hext, List.flatMap_cons, hext, List.nil_append, ih]
      · rw [marks, if_neg hext, lengthAt, List.find?_cons_of_pos (by simpa using han)]
        rfl

lemma take_append {log : List α} (h : Increasing num log) (table : List β) (n : ℕ) :
    (table ++ log.flatMap ext).take
        (table.length + ((log.filter fun a => decide (num a < n)).flatMap ext).length) =
      table ++ (log.filter fun a => decide (num a < n)).flatMap ext := by
  have hsplit : log.flatMap ext = (log.filter fun a => decide (num a < n)).flatMap ext ++
      (log.filter fun a => decide (n ≤ num a)).flatMap ext := by
    rw [← List.flatMap_append, filter_append_filter h n]
  rw [List.take_length_add_append, hsplit, List.take_left]

lemma find_dropWhile {first n : ℕ} (hn : first ≤ n) (l : List (ℕ × ℕ)) :
    (l.dropWhile fun m => decide (m.1 < first)).find? (fun m => decide (n ≤ m.1)) =
      l.find? fun m => decide (n ≤ m.1) := by
  induction l with
  | nil => rfl
  | cons m l ih =>
    by_cases hm : m.1 < first
    · rw [List.dropWhile_cons_of_pos (by simpa using hm), ih,
        List.find?_cons_of_neg (by simp; omega)]
    · rw [List.dropWhile_cons_of_neg (by simpa using hm)]

end NumLog
