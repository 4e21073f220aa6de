import Mathlib.Data.List.Infix

/-!
# Longest suffixes that fit

A buffer that takes items at its end and drops items at its front until the rest fits holds, at any
time, the longest part of everything it was given that ends with the last item and fits. What fits
must still fit with fewer items.

## Main definitions

* `Suffix.keep` — drops items until the rest fits.
* `Suffix.Hereditary` — parts of what fits fit.

## Main results

* `Suffix.keep_longest` — a suffix that fits is a suffix of what is kept.
* `Suffix.keep_keep` — one condition after another is both at once.
-/

namespace Suffix

variable {α : Type*} (F G : List α → Prop) [DecidablePred F] [DecidablePred G]

/-- Drops items from the front until the rest fits. -/
def keep : List α → List α
  | [] => []
  | a :: l => if F (a :: l) then a :: l else keep l

/-- Parts of what fits fit, and so does nothing at all. -/
structure Hereditary : Prop where
  nil : F []
  part : ∀ {l l' : List α}, l' <:+: l → F l → F l'

variable {F G}

lemma keep_suffix (l : List α) : keep F l <:+ l := by
  induction l with
  | nil => exact List.suffix_refl _
  | cons a l ih =>
    unfold keep
    split_ifs
    · exact List.suffix_refl _
    · exact ih.trans (List.suffix_cons a l)

lemma keep_fits (hF : F []) (l : List α) : F (keep F l) := by
  induction l with
  | nil => exact hF
  | cons a l ih =>
    unfold keep
    split_ifs with h
    · exact h
    · exact ih

/-- **A suffix that fits** is a suffix of what is kept. -/
lemma keep_longest {l s : List α} (hs : s <:+ l) (h : F s) : s <:+ keep F l := by
  induction l with
  | nil => exact hs
  | cons a l ih =>
    unfold keep
    split_ifs with hF
    · exact hs
    · rcases List.suffix_cons_iff.1 hs with rfl | hs
      · exact absurd h hF
      · exact ih hs

lemma eq_keep {l k : List α} (hF : F []) (hk : k <:+ l) (hfits : F k)
    (hlongest : ∀ s, s <:+ l → F s → s <:+ k) : k = keep F l :=
  (keep_longest hk hfits).eq_of_length_le
    (hlongest _ (keep_suffix l) (keep_fits hF l)).length_le

lemma keep_congr (h : ∀ l, F l ↔ G l) (l : List α) : keep F l = keep G l := by
  induction l with
  | nil => rfl
  | cons a l ih =>
    unfold keep
    rw [ih]
    exact if_congr (h _) rfl rfl

lemma keep_append (hF : Hereditary F) (l : List α) (a : α) :
    keep F (keep F l ++ [a]) = keep F (l ++ [a]) := by
  refine eq_keep hF.nil ?_ (keep_fits hF.nil _) fun s hs h => ?_
  · exact (keep_suffix _).trans ((List.suffix_append_inj_of_length_eq rfl).2 ⟨keep_suffix l, rfl⟩)
  · refine keep_longest ?_ h
    rcases List.suffix_concat_iff.1 hs with rfl | ⟨t, rfl, ht⟩
    · exact List.nil_suffix
    · refine (List.suffix_append_inj_of_length_eq rfl).2 ⟨keep_longest ht ?_, rfl⟩
      exact hF.part (List.prefix_append t [a]).isInfix h

/-- **One condition after another** is both at once. -/
lemma keep_keep (hF : Hereditary F) (hG : Hereditary G) (l : List α) :
    keep G (keep F l) = keep (fun l => F l ∧ G l) l := by
  refine eq_keep ⟨hF.nil, hG.nil⟩ ((keep_suffix _).trans (keep_suffix l)) ⟨?_, keep_fits hG.nil _⟩
    fun s hs h => keep_longest (keep_longest hs h.1) h.2
  exact hF.part (keep_suffix _).isInfix (keep_fits hF.nil l)

end Suffix
