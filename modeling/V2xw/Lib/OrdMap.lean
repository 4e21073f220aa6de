import Mathlib.Data.Finset.Card
import Mathlib.Data.Prod.Lex
import Mathlib.Order.Compare
import Mathlib.Order.Defs.LinearOrder
import Std.Data.ExtTreeMap

/-!
# Ordered maps

An ordered map is `Std.ExtTreeMap` over a linear order. This file restates its lookups with
equality of keys in place of the outcome of a comparison, and gives the set of keys as a `Finset`,
so that facts about the size of a map become facts about cardinalities.

## Main definitions

* `OrdMap` — maps with linearly ordered keys, iterated in key order.
* `OrdMap.keySet` — the keys of a map.

## Main results

* `OrdMap.get_insert`, `OrdMap.get_erase`, `OrdMap.get_filter` — lookups.
* `OrdMap.get_foldl_insert`, `OrdMap.get_foldl_insert_some`, `OrdMap.isSome_foldl_insert`,
  `OrdMap.get_foldl_erase`, `OrdMap.get_foldl_toList` — lookups after loops.
* `OrdMap.mem_keySet`, `OrdMap.card_keySet` — the keys and the size.
-/

/-- Machine words are ordered as numbers. -/
instance UInt32.linearOrder : LinearOrder UInt32 where
  le_refl _ := UInt32.le_refl _
  le_trans _ _ _ := UInt32.le_trans
  lt_iff_le_not_ge a b := by
    rw [UInt32.lt_iff_toNat_lt, UInt32.le_iff_toNat_le, UInt32.le_iff_toNat_le]
    omega
  le_antisymm _ _ := UInt32.le_antisymm
  le_total := UInt32.le_total
  toDecidableLE := inferInstance
  toDecidableEq := inferInstance
  toDecidableLT := inferInstance

/-- Bytes are ordered as numbers. -/
instance UInt8.linearOrder : LinearOrder UInt8 where
  le_refl _ := UInt8.le_refl _
  le_trans _ _ _ := UInt8.le_trans
  lt_iff_le_not_ge a b := by
    rw [UInt8.lt_iff_toNat_lt, UInt8.le_iff_toNat_le, UInt8.le_iff_toNat_le]
    omega
  le_antisymm _ _ := UInt8.le_antisymm
  le_total := UInt8.le_total
  toDecidableLE := inferInstance
  toDecidableEq := inferInstance
  toDecidableLT := inferInstance

/-- A map with linearly ordered keys. -/
abbrev OrdMap (κ ν : Type) [LinearOrder κ] := Std.ExtTreeMap κ ν

namespace OrdMap

variable {κ ν : Type} [LinearOrder κ]

/-! Keys are compared transitively. The proofs have names, so that a map is one term wherever it is
written. -/

instance transCmp : Std.TransCmp (compare : κ → κ → Ordering) := inferInstance

instance transCmp_pair : Std.TransCmp (compare : ℕ ×ₗ ℕ → ℕ ×ₗ ℕ → Ordering) := inferInstance

instance transCmp_triple :
    Std.TransCmp (compare : ℕ ×ₗ ℕ ×ₗ ℕ → ℕ ×ₗ ℕ ×ₗ ℕ → Ordering) := inferInstance

/-! ## Lookups -/

lemma get_insert (m : OrdMap κ ν) (k a : κ) (v : ν) :
    (m.insert k v)[a]? = if k = a then some v else m[a]? := by
  rw [Std.ExtTreeMap.getElem?_insert]
  simp only [compare_eq_iff_eq]

lemma get_erase (m : OrdMap κ ν) (k a : κ) :
    (m.erase k)[a]? = if k = a then none else m[a]? := by
  rw [Std.ExtTreeMap.getElem?_erase]
  simp only [compare_eq_iff_eq]

lemma get_filter (m : OrdMap κ ν) (f : κ → ν → Bool) (a : κ) :
    (m.filter f)[a]? = m[a]?.filter (f a) := by
  rw [Std.ExtTreeMap.getElem?_filter]
  simp only [Std.ExtTreeMap.getKey_eq, Option.pfilter_eq_filter]

lemma get_of_isEmpty {m : OrdMap κ ν} (h : m.isEmpty) (a : κ) : m[a]? = none := by
  rw [Std.ExtTreeMap.isEmpty_iff.1 h]
  exact Std.ExtTreeMap.getElem?_empty

lemma mem_toList {m : OrdMap κ ν} {k : κ} {v : ν} : (k, v) ∈ m.toList ↔ m[k]? = some v :=
  Std.ExtTreeMap.mem_toList_iff_getElem?_eq_some

lemma insert_of_get {m : OrdMap κ ν} {k : κ} {v : ν} (h : m[k]? = some v) : m.insert k v = m := by
  refine Std.ExtTreeMap.ext_getElem? fun a => ?_
  rw [get_insert]
  split_ifs with hk
  · rw [← hk, h]
  · rfl

/-! ## Loops -/

/-- Lookups after a loop of insertions under distinct keys: the keys of the loop find what it
inserted, and every other key what was there. -/
lemma get_foldl_insert {α : Type} (key : α → κ) (f : α → ν) (l : List α) :
    ∀ m : OrdMap κ ν, l.Pairwise (fun a b => key a ≠ key b) →
      (∀ x ∈ l, (l.foldl (fun m x => m.insert (key x) (f x)) m)[key x]? = some (f x)) ∧
      ∀ k, (∀ x ∈ l, key x ≠ k) →
        (l.foldl (fun m x => m.insert (key x) (f x)) m)[k]? = m[k]? := by
  induction l with
  | nil => exact fun m _ => ⟨fun x hx => absurd hx List.not_mem_nil, fun k _ => rfl⟩
  | cons a l ih =>
    intro m hl
    obtain ⟨ha, hl⟩ := List.pairwise_cons.1 hl
    obtain ⟨hin, hout⟩ := ih (m.insert (key a) (f a)) hl
    refine ⟨fun x hx => ?_, fun k hk => ?_⟩
    · rcases List.mem_cons.1 hx with rfl | hx
      · rw [List.foldl_cons, hout _ fun y hy => (ha y hy).symm, get_insert, if_pos rfl]
      · exact hin x hx
    · rw [List.foldl_cons, hout k fun y hy => hk y (List.mem_cons_of_mem _ hy), get_insert,
        if_neg (hk a List.mem_cons_self)]

/-- What a lookup finds after a loop of insertions was there before, or the loop has inserted it. -/
lemma get_foldl_insert_some {α : Type} (key : α → κ) (f : α → ν) (l : List α) :
    ∀ (m : OrdMap κ ν) (k : κ) (v : ν),
      (l.foldl (fun m x => m.insert (key x) (f x)) m)[k]? = some v →
      m[k]? = some v ∨ ∃ x ∈ l, key x = k ∧ f x = v := by
  induction l with
  | nil => exact fun m k v h => .inl h
  | cons a l ih =>
    intro m k v h
    rcases ih _ k v h with h | ⟨x, hx, hk, hv⟩
    · rw [get_insert] at h
      split_ifs at h with ha
      · exact .inr ⟨a, List.mem_cons_self, ha, Option.some.inj h⟩
      · exact .inl h
    · exact .inr ⟨x, List.mem_cons_of_mem _ hx, hk, hv⟩

/-- What is there before a loop of insertions, or inserted by it, is found after it. -/
lemma isSome_foldl_insert {α : Type} (key : α → κ) (f : α → ν) (l : List α) :
    ∀ (m : OrdMap κ ν) (k : κ), (m[k]?.isSome ∨ ∃ x ∈ l, key x = k) →
      (l.foldl (fun m x => m.insert (key x) (f x)) m)[k]?.isSome := by
  induction l with
  | nil => exact fun m k h => h.resolve_right fun ⟨_, hx, _⟩ => absurd hx List.not_mem_nil
  | cons a l ih =>
    intro m k h
    refine ih _ k ?_
    rw [get_insert]
    split_ifs with ha
    · exact .inl rfl
    · rcases h with h | ⟨x, hx, hk⟩
      · exact .inl h
      · rcases List.mem_cons.1 hx with rfl | hx
        · exact absurd hk ha
        · exact .inr ⟨x, hx, hk⟩

/-- Lookups after a loop of removals. -/
lemma get_foldl_erase (l : List κ) :
    ∀ (m : OrdMap κ ν) (k : κ),
      (l.foldl (fun m k => m.erase k) m)[k]? = if k ∈ l then none else m[k]? := by
  induction l with
  | nil => intro m k; rw [if_neg List.not_mem_nil]; rfl
  | cons a l ih =>
    intro m k
    rw [List.foldl_cons, ih, get_erase]
    by_cases hk : k ∈ l
    · rw [if_pos hk, if_pos (List.mem_cons_of_mem _ hk)]
    · by_cases hka : a = k
      · rw [if_neg hk, if_pos hka, if_pos (hka ▸ List.mem_cons_self)]
      · rw [if_neg hk, if_neg hka, if_neg]
        simp only [List.mem_cons, hk, or_false]
        exact fun h => hka h.symm

lemma pairwise_toList (m : OrdMap κ ν) : m.toList.Pairwise fun a b => a.1 ≠ b.1 :=
  Std.ExtTreeMap.distinct_keys_toList.imp fun h => by simpa only [compare_eq_iff_eq] using h

lemma get_foldl_toList {μ : Type} (rows : OrdMap κ μ) (f : κ × μ → ν) (m : OrdMap κ ν) (k : κ) :
    (rows.toList.foldl (fun m x => m.insert x.1 (f x)) m)[k]? =
      (rows[k]?.map fun v => f (k, v)).or m[k]? := by
  obtain ⟨hin, hout⟩ := get_foldl_insert Prod.fst f rows.toList m rows.pairwise_toList
  cases hk : rows[k]? with
  | some v => exact hin (k, v) (mem_toList.2 hk)
  | none =>
    refine hout k fun x hx hxk => ?_
    subst hxk
    rw [mem_toList.1 (show (x.1, x.2) ∈ rows.toList from hx)] at hk
    cases hk

/-! ## The keys -/

lemma pairwise_keys (m : OrdMap κ ν) : m.keys.Pairwise (· < ·) :=
  Std.ExtTreeMap.ordered_keys.imp fun h => compare_lt_iff_lt.1 h

lemma mem_keys {m : OrdMap κ ν} {k : κ} : k ∈ m.keys ↔ ∃ v, m[k]? = some v := by
  rw [Std.ExtTreeMap.mem_keys, ← Option.isSome_iff_exists, Std.ExtTreeMap.isSome_getElem?_iff_mem]

lemma contains_eq_false_iff {m : OrdMap κ ν} {k : κ} : m.contains k = false ↔ m[k]? = none := by
  rw [Std.ExtTreeMap.contains_eq_isSome_getElem?, Option.isSome_eq_false_iff,
    Option.isNone_iff_eq_none]

/-- The keys of a map. -/
def keySet (m : OrdMap κ ν) : Finset κ := m.keys.toFinset

lemma mem_keySet {m : OrdMap κ ν} {k : κ} : k ∈ keySet m ↔ ∃ v, m[k]? = some v := by
  rw [keySet, List.mem_toFinset, mem_keys]

lemma card_keySet (m : OrdMap κ ν) : (keySet m).card = m.size := by
  rw [keySet, List.toFinset_card_of_nodup, Std.ExtTreeMap.length_keys]
  exact Std.ExtTreeMap.distinct_keys.imp fun h => by simpa only [compare_eq_iff_eq] using h

lemma size_insert_le (m : OrdMap κ ν) (k : κ) (v : ν) : (m.insert k v).size ≤ m.size + 1 := by
  rw [Std.ExtTreeMap.size_insert]
  split_ifs
  · exact Nat.le_succ _
  · exact le_rfl

lemma size_insert_of_some {m : OrdMap κ ν} {k : κ} {w : ν} (h : m[k]? = some w) (v : ν) :
    (m.insert k v).size = m.size := by
  rw [Std.ExtTreeMap.size_insert, if_pos]
  rw [Std.ExtTreeMap.contains_eq_isSome_getElem?, h]
  rfl

lemma size_erase_add_one {m : OrdMap κ ν} {k : κ} {w : ν} (h : m[k]? = some w) :
    (m.erase k).size + 1 = m.size := by
  have hk : k ∈ keySet m := mem_keySet.2 ⟨w, h⟩
  have hpos : 0 < m.size := by
    rw [← card_keySet]
    exact Finset.card_pos.2 ⟨k, hk⟩
  rw [Std.ExtTreeMap.size_erase, if_pos]
  · omega
  · rw [Std.ExtTreeMap.contains_eq_isSome_getElem?, h]
    rfl

lemma size_erase_le (m : OrdMap κ ν) (k : κ) : (m.erase k).size ≤ m.size := by
  rw [Std.ExtTreeMap.size_erase]
  split_ifs
  · exact Nat.sub_le _ _
  · exact le_rfl

end OrdMap
