import Mathlib.Data.List.Dedup
import Mathlib.Data.List.DropRight
import Mathlib.Data.List.Induction

/-!
# Least recently used

A list of uses, the last one last, orders the things used by how recently that was. A bounded cache
that moves what is used to its end, and drops what is at its front when there is one too many, holds
the most recent of them at any time.

## Main definitions

* `Recency.refresh` — moves an item to the end of a list.
* `Recency.recent` — the items used most recently, at most so many, in the order of their last uses.
* `Recency.UsedSince` — an item has been used since the last use of another.

## Main results

* `Recency.dedup_concat` — a use refreshes the order of the last uses.
* `Recency.pairwise_dedup` — later items have been used since.
* `Recency.recent_concat` — what a use makes of the most recent items.
-/

namespace Recency

variable {α : Type*} [DecidableEq α]

/-- The list with an item moved to its end, or put there. -/
def refresh (l : List α) (a : α) : List α := l.filter (· ≠ a) ++ [a]

/-- The items used most recently, at most `n`, in the order of their last uses. -/
def recent (n : ℕ) (uses : List α) : List α := uses.dedup.rtake n

/-- The item `b` has been used since the last use of `a`. -/
def UsedSince (uses : List α) (a b : α) : Prop :=
  ∃ before since, uses = before ++ a :: since ∧ a ∉ since ∧ b ∈ since

/-! ## The order of the last uses -/

lemma refresh_of_notMem {l : List α} {a : α} (h : a ∉ l) : refresh l a = l ++ [a] := by
  unfold refresh
  rw [List.filter_eq_self.2 fun b hb => ?_]
  exact decide_eq_true fun hba => h (hba ▸ hb)

@[simp]
lemma mem_refresh {l : List α} {a b : α} : b ∈ refresh l a ↔ b ∈ l ∨ b = a := by
  simp only [refresh, List.mem_append, List.mem_filter, decide_eq_true_eq, List.mem_singleton]
  tauto

lemma nodup_refresh {l : List α} (h : l.Nodup) (a : α) : (refresh l a).Nodup := by
  refine List.Nodup.append (h.filter _) (List.nodup_singleton a) fun b hb hba => ?_
  have hne := (List.mem_filter.1 hb).2
  simp only [decide_eq_true_eq] at hne
  exact hne (List.mem_singleton.1 hba)

lemma length_refresh {l : List α} (h : l.Nodup) {a : α} (ha : a ∈ l) :
    (refresh l a).length = l.length := by
  unfold refresh
  have herase : l.filter (· ≠ a) = l.erase a := by
    rw [h.erase_eq_filter]
    exact List.filter_congr fun b _ => by by_cases hba : b = a <;> simp [hba]
  rw [herase, List.length_append, List.length_erase_of_mem ha, List.length_singleton]
  have := List.length_pos_of_mem ha
  omega

/-- **A use refreshes the order** of the last uses. -/
lemma dedup_concat (uses : List α) (a : α) :
    (uses ++ [a]).dedup = refresh uses.dedup a := by
  induction uses with
  | nil => simp [refresh]
  | cons b uses ih =>
    rw [List.cons_append]
    by_cases hb : b ∈ uses
    · rw [List.dedup_cons_of_mem (List.mem_append_left _ hb), List.dedup_cons_of_mem hb, ih]
    · rw [List.dedup_cons_of_notMem hb]
      by_cases hba : b = a
      · subst hba
        rw [List.dedup_cons_of_mem (by simp), ih]
        simp [refresh]
      · rw [List.dedup_cons_of_notMem (by simp [hb, hba]), ih]
        simp [refresh, hba]

omit [DecidableEq α] in
lemma UsedSince.concat {uses : List α} {a b c : α} (h : UsedSince uses a b) (hc : a ≠ c) :
    UsedSince (uses ++ [c]) a b := by
  obtain ⟨before, since, rfl, ha, hb⟩ := h
  refine ⟨before, since ++ [c], by simp, ?_, List.mem_append_left _ hb⟩
  simp [ha, hc]

omit [DecidableEq α] in
lemma usedSince_concat {uses : List α} {a c : α} (ha : a ∈ uses) (hc : a ≠ c) :
    UsedSince (uses ++ [c]) a c := by
  obtain ⟨since, before, heq, hnot⟩ := List.eq_append_cons_of_mem (List.mem_reverse.2 ha)
  refine ⟨before.reverse, since.reverse ++ [c], ?_, ?_, by simp⟩
  · rw [← List.reverse_reverse uses, heq]
    simp
  · simp [hnot, hc]

/-- **The order of the last uses**: each item has been used since the last use of those before. -/
lemma pairwise_dedup (uses : List α) : uses.dedup.Pairwise (UsedSince uses) := by
  induction uses using List.reverseRecOn with
  | nil => exact .nil
  | append_singleton uses c ih =>
    rw [dedup_concat, refresh, List.pairwise_append]
    have hne : ∀ a ∈ uses.dedup.filter (· ≠ c), a ∈ uses ∧ a ≠ c := by
      intro a ha
      simpa using List.mem_filter.1 ha
    refine ⟨?_, List.pairwise_singleton _ _, fun a ha b hb => ?_⟩
    · refine (ih.filter _).imp_of_mem fun ha _ h => ?_
      exact h.concat (hne _ ha).2
    · obtain rfl := List.mem_singleton.1 hb
      exact usedSince_concat (hne a ha).1 (hne a ha).2

/-! ## The most recent ones -/

@[simp]
lemma recent_nil (n : ℕ) : recent n ([] : List α) = [] := List.rtake_nil n

lemma recent_suffix (n : ℕ) (uses : List α) : recent n uses <:+ uses.dedup :=
  List.drop_suffix _ _

lemma nodup_recent (n : ℕ) (uses : List α) : (recent n uses).Nodup :=
  (List.nodup_dedup uses).sublist (recent_suffix n uses).sublist

lemma length_recent (n : ℕ) (uses : List α) :
    (recent n uses).length = min n uses.dedup.length := by
  rw [recent, List.rtake, List.length_drop]
  omega

lemma refresh_suffix {l l' : List α} (h : l' <:+ l) (a : α) : refresh l' a <:+ refresh l a := by
  obtain ⟨before, rfl⟩ := h
  refine ⟨before.filter (· ≠ a), ?_⟩
  rw [refresh, refresh, List.filter_append, List.append_assoc]

lemma pairwise_refresh_recent (n : ℕ) (uses : List α) (a : α) :
    (refresh (recent n uses) a).Pairwise (UsedSince (uses ++ [a])) := by
  have hsuffix := refresh_suffix (recent_suffix n uses) a
  rw [← dedup_concat] at hsuffix
  exact (pairwise_dedup _).sublist hsuffix.sublist

omit [DecidableEq α] in
lemma rtake_eq_of_suffix {l l' : List α} (h : l' <:+ l) {n : ℕ} (hn : l'.length = min n l.length) :
    l.rtake n = l' := by
  obtain ⟨before, rfl⟩ := h
  rw [List.length_append] at hn
  rw [List.rtake, List.length_append]
  have hlen : before.length + l'.length - n = before.length := by omega
  rw [hlen, List.drop_left]

/-- **What a use makes of the most recent items**: it refreshes them, and the first goes if there is
one too many. -/
lemma recent_concat (n : ℕ) (uses : List α) (a : α) :
    recent n (uses ++ [a]) =
      if n < (refresh (recent n uses) a).length then (refresh (recent n uses) a).tail
      else refresh (recent n uses) a := by
  have hsuffix := refresh_suffix (recent_suffix n uses) a
  have hlen := length_recent n uses
  have hdedup := List.nodup_dedup uses
  rw [recent, dedup_concat]
  by_cases ha : a ∈ recent n uses
  · -- An item that is held moves, here and in the order of all.
    have hmem := (recent_suffix n uses).subset ha
    rw [length_refresh (nodup_recent n uses) ha, if_neg (by omega)]
    refine rtake_eq_of_suffix hsuffix ?_
    rw [length_refresh (nodup_recent n uses) ha, length_refresh hdedup hmem, hlen]
  · have hlong : (refresh (recent n uses) a).length = (recent n uses).length + 1 := by
      rw [refresh_of_notMem ha, List.length_append, List.length_singleton]
    -- An item that is not held is new, or was dropped, and then the list is full.
    have hall : (refresh uses.dedup a).length = uses.dedup.length + 1 ∨
        n ≤ (recent n uses).length ∧ (refresh uses.dedup a).length = uses.dedup.length := by
      by_cases hmem : a ∈ uses.dedup
      · refine .inr ⟨?_, length_refresh hdedup hmem⟩
        by_contra hroom
        have hsame := (recent_suffix n uses).eq_of_length (by omega)
        exact ha (hsame ▸ hmem)
      · rw [refresh_of_notMem hmem, List.length_append, List.length_singleton]
        exact .inl rfl
    split_ifs with hover
    · refine rtake_eq_of_suffix ((List.tail_suffix _).trans hsuffix) ?_
      rw [List.length_tail]
      omega
    · refine rtake_eq_of_suffix hsuffix ?_
      omega

end Recency
