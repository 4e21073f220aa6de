import Mathlib.Data.Finset.Image
import Mathlib.Data.List.Nodup
import V2xw.Core.EventSpec

/-!
# The invariant of the event scheduler

What lazy cancellation, head purging and compaction keep between them, and what the dispatch
order rests on.

## Main definitions

* `liveEntries` — the entries of a heap that are still scheduled.
* `HeapInv` — distinct sequence numbers, every live one in the heap, and `dead` the
  number of the others.
* `OrderInv` — no pending event is in the past, and one that is before the last key has
  been paid for by the reentrant debt.

## Main results

* `HeapInv.dropDead`, `HeapInv.takeLive` — what taking the head entry does.
* `HeapInv.compact` — compaction keeps the live entries.
* `checkDispatchOrder_eq_ok` — the debug-build check passes.
-/

namespace V2xw.Core

open MinQueue PendingSet

variable {E : Type}

/-! ## The heap and the live set -/

/-- The entries of the heap that are still scheduled. -/
def liveEntries (heap : List (Entry E)) (live : Finset ℕ) : Set (Entry E) :=
  {e | e ∈ heap ∧ e.key.seq ∈ live}

/-- The heap, the live set and the dead counter fit together. -/
structure HeapInv (heap : List (Entry E)) (live : Finset ℕ) (dead nextSeq : ℕ) : Prop where
  /-- Sequence numbers are unique. -/
  nodup : (heap.map (·.key.seq)).Nodup
  /-- Every live sequence number has its entry. -/
  live_mem : ∀ q ∈ live, ∃ e ∈ heap, e.key.seq = q
  /-- The dead counter counts the entries that are not live. -/
  dead_add : dead + live.card = heap.length
  /-- Sequence numbers come from the counter. -/
  seq_lt : ∀ e ∈ heap, e.key.seq < nextSeq

namespace HeapInv

variable {heap rest : List (Entry E)} {live : Finset ℕ} {dead nextSeq : ℕ} {e : Entry E}

lemma eq_of_seq_eq (h : HeapInv heap live dead nextSeq) {a b : Entry E} (ha : a ∈ heap)
    (hb : b ∈ heap) (hab : a.key.seq = b.key.seq) : a = b :=
  List.inj_on_of_nodup_map h.nodup ha hb hab

lemma injOn_key (h : HeapInv heap live dead nextSeq) :
    Set.InjOn Entry.key (liveEntries heap live) := fun _ ha _ hb hab =>
  h.eq_of_seq_eq ha.1 hb.1 (congrArg EventKey.seq hab)

lemma perm (h : HeapInv heap live dead nextSeq) (hp : heap.Perm rest) :
    HeapInv rest live dead nextSeq where
  nodup := (hp.map _).nodup_iff.1 h.nodup
  live_mem q hq := by
    obtain ⟨e, he, hs⟩ := h.live_mem q hq
    exact ⟨e, hp.mem_iff.1 he, hs⟩
  dead_add := h.dead_add.trans hp.length_eq
  seq_lt e he := h.seq_lt e (hp.mem_iff.2 he)

lemma live_eq_image (h : HeapInv heap live dead nextSeq) :
    live = ((heap.filter (fun e => e.key.seq ∈ live)).map (·.key.seq)).toFinset := by
  ext q
  simp only [List.mem_toFinset, List.mem_map, List.mem_filter, decide_eq_true_eq]
  constructor
  · intro hq
    obtain ⟨e, he, rfl⟩ := h.live_mem q hq
    exact ⟨e, ⟨he, hq⟩, rfl⟩
  · rintro ⟨e, ⟨-, hl⟩, rfl⟩
    exact hl

lemma length_filter (h : HeapInv heap live dead nextSeq) :
    (heap.filter (fun e => e.key.seq ∈ live)).length = live.card := by
  have hnd : ((heap.filter (fun e => e.key.seq ∈ live)).map (·.key.seq)).Nodup :=
    h.nodup.sublist (List.filter_sublist.map _)
  conv_rhs => rw [h.live_eq_image, List.toFinset_card_of_nodup hnd, List.length_map]

lemma ncard_liveEntries (h : HeapInv heap live dead nextSeq) :
    (liveEntries heap live).ncard = live.card := by
  classical
  have hset : liveEntries heap live =
      ((heap.filter (fun e => e.key.seq ∈ live)).toFinset : Set (Entry E)) := by
    ext e
    simp [liveEntries]
  have hnd : (heap.filter (fun e => e.key.seq ∈ live)).Nodup :=
    (List.Nodup.of_map _ h.nodup).filter _
  rw [hset, Set.ncard_coe_finset, List.toFinset_card_of_nodup hnd, h.length_filter]

/-! ### Single steps -/

/-- A fresh event joins the heap. -/
lemma insert (h : HeapInv heap live dead nextSeq) (hs : e.key.seq = nextSeq) :
    HeapInv (e :: heap) (insert nextSeq live) dead (nextSeq + 1) where
  nodup := by
    rw [List.map_cons, List.nodup_cons]
    refine ⟨?_, h.nodup⟩
    intro hmem
    obtain ⟨x, hx, hxs⟩ := List.mem_map.1 hmem
    have := h.seq_lt x hx
    omega
  live_mem q hq := by
    rcases Finset.mem_insert.1 hq with rfl | hq
    · exact ⟨e, List.mem_cons_self, hs⟩
    · obtain ⟨x, hx, hxs⟩ := h.live_mem q hq
      exact ⟨x, List.mem_cons_of_mem _ hx, hxs⟩
  dead_add := by
    have hnot : nextSeq ∉ live := by
      intro hq
      obtain ⟨x, hx, hxs⟩ := h.live_mem _ hq
      have := h.seq_lt x hx
      omega
    have := h.dead_add
    rw [Finset.card_insert_of_notMem hnot, List.length_cons]
    omega
  seq_lt x hx := by
    rcases List.mem_cons.1 hx with rfl | hx
    · omega
    · exact (h.seq_lt x hx).trans (Nat.lt_succ_self _)

lemma cancel (h : HeapInv heap live dead nextSeq) {q : ℕ} (hq : q ∈ live) :
    HeapInv heap (live.erase q) (dead + 1) nextSeq where
  nodup := h.nodup
  live_mem r hr := h.live_mem r (Finset.mem_of_mem_erase hr)
  dead_add := by
    have hcard := Finset.card_erase_add_one hq
    have := h.dead_add
    omega
  seq_lt := h.seq_lt

lemma compact (h : HeapInv heap live dead nextSeq) :
    HeapInv (heap.filter (fun e => e.key.seq ∈ live)) live 0 nextSeq where
  nodup := h.nodup.sublist (List.filter_sublist.map _)
  live_mem q hq := by
    obtain ⟨e, he, rfl⟩ := h.live_mem q hq
    exact ⟨e, List.mem_filter.2 ⟨he, by simpa using hq⟩, rfl⟩
  dead_add := by rw [h.length_filter, Nat.zero_add]
  seq_lt e he := h.seq_lt e (List.mem_of_mem_filter he)

/-- Dropping a dead entry from the head: the counter is positive, and the rest of the heap still
holds every live one. -/
lemma dropDead (h : HeapInv heap live dead nextSeq)
    (hx : extractMin Entry.key heap = some (e, rest)) (he : e.key.seq ∉ live) :
    dead ≠ 0 ∧ HeapInv rest live (dead - 1) nextSeq ∧
      liveEntries rest live = liveEntries heap live := by
  have hp := extractMin_perm Entry.key hx
  have h' := h.perm hp
  have hmem : ∀ q ∈ live, ∃ x ∈ rest, x.key.seq = q := by
    intro q hq
    obtain ⟨x, hxm, rfl⟩ := h'.live_mem q hq
    rcases List.mem_cons.1 hxm with rfl | hxm
    · exact absurd hq he
    · exact ⟨x, hxm, rfl⟩
  -- the live numbers all have their entry in `rest`, so there are at most `rest.length` of them
  have hcard : live.card ≤ rest.length := by
    have hsub : live ⊆ (rest.map (·.key.seq)).toFinset := by
      intro q hq
      obtain ⟨x, hxm, rfl⟩ := hmem q hq
      exact List.mem_toFinset.2 (List.mem_map.2 ⟨x, hxm, rfl⟩)
    calc live.card ≤ (rest.map (·.key.seq)).toFinset.card := Finset.card_le_card hsub
      _ ≤ (rest.map (·.key.seq)).length := List.toFinset_card_le _
      _ = rest.length := List.length_map _
  have hlen := h'.dead_add
  rw [List.length_cons] at hlen
  refine ⟨by omega, ⟨(List.nodup_cons.1 h'.nodup).2, hmem, by omega, fun x hxm => ?_⟩, ?_⟩
  · exact h'.seq_lt x (List.mem_cons_of_mem _ hxm)
  · ext x
    simp only [liveEntries, Set.mem_ofPred_eq, hp.mem_iff, List.mem_cons]
    constructor
    · rintro ⟨hxm, hl⟩
      exact ⟨Or.inr hxm, hl⟩
    · rintro ⟨rfl | hxm, hl⟩
      · exact absurd hl he
      · exact ⟨hxm, hl⟩

/-- The head entry is live: it is the first pending event, and taking it out removes exactly it. -/
lemma takeLive (h : HeapInv heap live dead nextSeq)
    (hx : extractMin Entry.key heap = some (e, rest)) (he : e.key.seq ∈ live) :
    IsFirst (liveEntries heap live) e ∧ HeapInv rest (live.erase e.key.seq) dead nextSeq ∧
      liveEntries rest (live.erase e.key.seq) = liveEntries heap live \ {e} := by
  have hp := extractMin_perm Entry.key hx
  have h' := h.perm hp
  have hnd := List.nodup_cons.1 h'.nodup
  have hne : ∀ x ∈ rest, x.key.seq ≠ e.key.seq := by
    intro x hxm heq
    exact hnd.1 (List.mem_map.2 ⟨x, hxm, heq⟩)
  have hlen := h'.dead_add
  rw [List.length_cons] at hlen
  have hcard := Finset.card_erase_add_one he
  refine ⟨⟨⟨hp.mem_iff.2 List.mem_cons_self, he⟩, fun x hxm =>
    extractMin_le Entry.key hx x hxm.1⟩, ⟨hnd.2, ?_, by omega, fun x hxm => ?_⟩, ?_⟩
  · intro q hq
    obtain ⟨hqe, hq⟩ := Finset.mem_erase.1 hq
    obtain ⟨x, hxm, rfl⟩ := h'.live_mem q hq
    rcases List.mem_cons.1 hxm with rfl | hxm
    · exact absurd rfl hqe
    · exact ⟨x, hxm, rfl⟩
  · exact h'.seq_lt x (List.mem_cons_of_mem _ hxm)
  · ext x
    simp only [liveEntries, Set.mem_ofPred_eq, Finset.mem_erase, Set.mem_sdiff,
      Set.mem_singleton_iff, hp.mem_iff, List.mem_cons]
    constructor
    · rintro ⟨hxm, hse, hl⟩
      exact ⟨⟨Or.inr hxm, hl⟩, fun hxe => hse (congrArg (·.key.seq) hxe)⟩
    · rintro ⟨⟨rfl | hxm, hl⟩, hxe⟩
      · exact absurd rfl hxe
      · exact ⟨hxm, hne x hxm, hl⟩

end HeapInv

/-! ## The dispatch order -/

/-- The order of the pending events relative to the clock and the last key. -/
structure OrderInv (pending : Set (Entry E)) (nextSeq : ℕ) (now : SimTime)
    (lastKey : Option EventKey) (debt : ℕ) : Prop where
  /-- No pending event is in the past. -/
  now_le : ∀ e ∈ pending, now ≤ e.key.time
  /-- A pending event follows the last key, or the debt accounts for it. -/
  order : ∀ k, lastKey = some k → ∀ e ∈ pending, k < e.key ∨ (e.key < k ∧ 1 ≤ debt)
  /-- The last key carries the current time and an earlier sequence number, and the debt counts
  events scheduled after it. -/
  last : ∀ k, lastKey = some k → k.time = now ∧ k.seq < nextSeq ∧ debt + 1 ≤ nextSeq
  /-- There is no debt before the first dispatch. -/
  fresh : lastKey = none → debt = 0

namespace OrderInv

variable {pending pending' : Set (Entry E)} {nextSeq debt : ℕ} {now : SimTime}
  {lastKey : Option EventKey} {e : Entry E}

lemma mono (h : OrderInv pending nextSeq now lastKey debt) (hsub : pending' ⊆ pending) :
    OrderInv pending' nextSeq now lastKey debt where
  now_le e he := h.now_le e (hsub he)
  order k hk e he := h.order k hk e (hsub he)
  last := h.last
  fresh := h.fresh

lemma lt_of_not_precedes {k key : EventKey} (hp : ¬ EventKey.Precedes key.time key.priority k)
    (hs : k.seq < key.seq) : k < key := by
  rw [EventKey.lt_iff]
  simp only [EventKey.Precedes, not_or, not_and, not_lt] at hp
  rcases lt_trichotomy k.time key.time with ht | ht | ht
  · exact Or.inl ht
  · rcases lt_or_eq_of_le (hp.2 ht.symm) with hpr | hpr
    · exact Or.inr ⟨ht, Or.inl hpr⟩
    · exact Or.inr ⟨ht, Or.inr ⟨hpr, hs⟩⟩
  · exact absurd ht (not_lt.2 hp.1)

/-- A fresh event that does not precede the last key joins the pending ones. -/
lemma insert (h : OrderInv pending nextSeq now lastKey debt) (hs : e.key.seq = nextSeq)
    (hnow : now ≤ e.key.time)
    (hlast : ∀ k, lastKey = some k → ¬ EventKey.Precedes e.key.time e.key.priority k) :
    OrderInv (insert e pending) (nextSeq + 1) now lastKey debt where
  now_le x hx := by
    rcases Set.mem_insert_iff.1 hx with rfl | hx
    · exact hnow
    · exact h.now_le x hx
  order k hk x hx := by
    rcases Set.mem_insert_iff.1 hx with rfl | hx
    · exact Or.inl (lt_of_not_precedes (hlast k hk) (hs ▸ (h.last k hk).2.1))
    · exact h.order k hk x hx
  last k hk := by
    obtain ⟨ht, hq, hd⟩ := h.last k hk
    exact ⟨ht, by omega, by omega⟩
  fresh := h.fresh

/-- A fresh event that precedes the last key joins the pending ones and adds to the debt. -/
lemma insertReentrant (h : OrderInv pending nextSeq now lastKey debt) {k : EventKey}
    (hk : lastKey = some k) (hnow : now ≤ e.key.time)
    (hlast : EventKey.Precedes e.key.time e.key.priority k) :
    OrderInv (Insert.insert e pending) (nextSeq + 1) now lastKey (debt + 1) where
  now_le x hx := by
    rcases Set.mem_insert_iff.1 hx with rfl | hx
    · exact hnow
    · exact h.now_le x hx
  order k' hk' x hx := by
    obtain rfl : k' = k := Option.some.inj (hk'.symm.trans hk)
    rcases Set.mem_insert_iff.1 hx with rfl | hx
    · refine Or.inr ⟨EventKey.lt_iff.2 ?_, by omega⟩
      rcases hlast with ht | ⟨ht, hp⟩
      · exact Or.inl ht
      · exact Or.inr ⟨ht, Or.inl hp⟩
    · rcases h.order k' hk x hx with hlt | ⟨hlt, -⟩
      · exact Or.inl hlt
      · exact Or.inr ⟨hlt, by omega⟩
  last k' hk' := by
    obtain ⟨ht, hq, hd⟩ := h.last k' hk'
    exact ⟨ht, by omega, by omega⟩
  fresh hn := by simp [hk] at hn

/-- The first event is dispatched: no other pending event precedes it. -/
lemma dispatch (h : OrderInv pending nextSeq now lastKey debt) (hinj : Set.InjOn Entry.key pending)
    (he : IsFirst pending e) (hseq : e.key.seq < nextSeq) {debt' : ℕ} (hd : debt' ≤ debt) :
    OrderInv (pending \ {e}) nextSeq e.key.time (some e.key) debt' where
  now_le x hx := by
    rcases EventKey.lt_iff.1 (lt_of_le_of_ne (he.2 x hx.1) fun hk =>
      hx.2 (hinj hx.1 he.1 hk.symm)) with ht | ⟨ht, -⟩
    · exact ht.le
    · exact ht.le
  order k hk x hx := by
    obtain rfl : e.key = k := Option.some.inj hk
    exact Or.inl (lt_of_le_of_ne (he.2 x hx.1) fun hk => hx.2 (hinj hx.1 he.1 hk.symm))
  last k hk := by
    obtain rfl : e.key = k := Option.some.inj hk
    refine ⟨rfl, hseq, ?_⟩
    cases hl : lastKey with
    | none =>
      have := h.fresh hl
      omega
    | some k' =>
      have := (h.last k' hl).2.2
      omega
  fresh hn := by simp at hn

end OrderInv

/-- **The debug-build check passes** on the first pending event, and touches nothing but the debt,
which does not grow. -/
theorem checkDispatchOrder_eq_ok (dbg : Bool) (s : Scheduler E) {pending : Set (Entry E)}
    {e : Entry E} (h : OrderInv pending s.nextSeq s.now s.lastKey s.reentrantDebt)
    (he : e ∈ pending) :
    ∃ debt ≤ s.reentrantDebt,
      s.checkDispatchOrder dbg e.key = .ok { s with reentrantDebt := debt } := by
  rw [Scheduler.checkDispatchOrder]
  cases dbg with
  | false => exact ⟨s.reentrantDebt, le_rfl, rfl⟩
  | true =>
    rw [if_pos rfl, if_neg (not_lt.2 (h.now_le e he))]
    cases hl : s.lastKey with
    | none => exact ⟨s.reentrantDebt, le_rfl, by simp [← hl]⟩
    | some k =>
      dsimp only
      split_ifs with hlt hd
      · exact ⟨s.reentrantDebt - 1, Nat.sub_le _ _, by simp [← hl]⟩
      · rcases h.order k hl e he with hlt' | ⟨-, hd'⟩
        · exact absurd hlt (lt_asymm hlt')
        · exact absurd hd' hd
      · exact ⟨s.reentrantDebt, le_rfl, by simp [← hl]⟩

end V2xw.Core
