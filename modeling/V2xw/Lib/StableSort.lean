import Mathlib.Data.List.Basic

/-!
# Stable sorting

A sorted list is stable if elements that no key tells apart come in the order they came in before.

## Main definitions

* `StableSort.StablySorted` — a list is the stably sorted form of another one.

## Main results

* `StableSort.stablySorted_mergeSort` — merge sort is stable.
-/

namespace StableSort

variable {α : Type*}

/-- One list is the other one, stably sorted. -/
structure StablySorted (le : α → α → Bool) (l l' : List α) : Prop where
  perm : l'.Perm l
  sorted : l'.Pairwise fun a b => le a b = true
  stable : ∀ a, (l'.filter fun b => le a b && le b a) = l.filter fun b => le a b && le b a

variable {le : α → α → Bool}

/-- **Merge sort is stable.** -/
lemma stablySorted_mergeSort (trans : ∀ a b c, le a b → le b c → le a c)
    (total : ∀ a b, (le a b || le b a) = true) (l : List α) :
    StablySorted le l (l.mergeSort le) where
  perm := List.mergeSort_perm l le
  sorted := List.pairwise_mergeSort trans total l
  stable a := by
    have hequal : (l.filter fun b => le a b && le b a).Pairwise fun b c => le b c = true := by
      refine List.pairwise_iff_forall_sublist.2 fun {b c} hbc => ?_
      have hb := (List.mem_filter.1 (hbc.subset List.mem_cons_self)).2
      have hc := (List.mem_filter.1 (hbc.subset (List.mem_cons_of_mem _ List.mem_cons_self))).2
      rw [Bool.and_eq_true] at hb hc
      exact trans b a c hb.2 hc.1
    have hsub : (l.filter fun b => le a b && le b a).Sublist (l.mergeSort le) :=
      List.sublist_mergeSort trans total hequal List.filter_sublist
    have hfilter := hsub.filter fun b => le a b && le b a
    rw [List.filter_filter, List.filter_congr (q := fun b => le a b && le b a)
      fun b _ => Bool.and_self _] at hfilter
    refine (hfilter.eq_of_length ?_).symm
    exact ((List.mergeSort_perm l le).filter _).length_eq.symm

end StableSort
