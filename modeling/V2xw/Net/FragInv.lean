import Mathlib.Data.Finset.Image
import V2xw.Net.Frag

/-!
# What one arriving fragment does to the reassembly buffer

The set of arrived indices as a finite set, everything a call of `accept` can do, and the
invariant of the buffer that follows from it.

## Main definitions

* `IndexSet.toFinset` — the indices marked in the four words.
* `ReassemblyBuffer.AcceptStep` — the outcomes of `accept` after its purge, one
  constructor each.
* `ReassemblyBuffer.Inv` — the capacity bounds and the counters of the open entries.

## Main results

* `ReassemblyBuffer.accept_step` — `accept` does one of these.
* `ReassemblyBuffer.Inv.accept`, `ReassemblyBuffer.Inv.purge` — the invariant.
-/

namespace V2xw.Net

open V2xw.Core MinQueue

/-! ## The set of arrived indices -/

namespace IndexSet

/-- The indices marked in the words. -/
def toFinset (s : IndexSet) : Finset ℕ :=
  (Finset.range 256).filter (fun i => (s.words[i / 64]!).getLsbD (i % 64))

lemma mem_toFinset {s : IndexSet} {i : ℕ} :
    i ∈ s.toFinset ↔ i < 256 ∧ (s.words[i / 64]!).getLsbD (i % 64) = true := by
  simp [toFinset]

@[simp]
lemma toFinset_empty : empty.toFinset = ∅ := by
  ext i
  simp only [mem_toFinset, empty, Finset.notMem_empty, iff_false, not_and]
  intro hi
  have hw : i / 64 < 4 := by omega
  simp [hw]

/-- The mask test of the source reads the bit. -/
private lemma and_mask_ne_zero (x : BitVec 64) {b : ℕ} (hb : b < 64) :
    (x &&& 1#64 <<< b != 0) = x.getLsbD b := by
  rw [← BitVec.twoPow_eq, BitVec.and_twoPow]
  split_ifs with hx
  · have hne : BitVec.twoPow 64 b ≠ 0#64 := by
      intro h0
      have := congrArg (fun y => BitVec.getLsbD y b) h0
      simp [hb] at this
    simp [hx, hne]
  · simp [hx]

lemma mark_fst (s : IndexSet) {i : ℕ} (hi : i < 256) :
    (s.mark i).1 = decide (i ∉ s.toFinset) := by
  simp only [mark, and_mask_ne_zero _ (Nat.mod_lt i (by decide : 0 < 64)), mem_toFinset, hi,
    true_and, Bool.not_eq_true]
  cases (s.words[i / 64]!).getLsbD (i % 64) <;> rfl

/-- The words after `mark`. -/
private lemma getLsbD_mark (s : IndexSet) {i j : ℕ} (hi : i < 256) (hj : j < 256) :
    (((s.mark i).2.words)[j / 64]!).getLsbD (j % 64) =
      (decide (i = j) || (s.words[j / 64]!).getLsbD (j % 64)) := by
  have hiw : i / 64 < 4 := by omega
  have hjw : j / 64 < 4 := by omega
  have hjm : j % 64 < 64 := Nat.mod_lt j (by decide)
  simp only [mark]
  by_cases hw : i / 64 = j / 64
  · have hset : (s.words.set! (i / 64) (s.words[i / 64]! ||| 1#64 <<< (i % 64)))[j / 64]! =
        s.words[j / 64]! ||| 1#64 <<< (i % 64) := by
      simp [hw, hjw]
    rw [hset, BitVec.getLsbD_or, ← BitVec.twoPow_eq, BitVec.getLsbD_twoPow, Bool.or_comm]
    congr 1
    by_cases hij : i = j
    · simp [hij, hjm]
    · have hm : i % 64 ≠ j % 64 := by omega
      simp [hij, hm]
  · have hset : (s.words.set! (i / 64) (s.words[i / 64]! ||| 1#64 <<< (i % 64)))[j / 64]! =
        s.words[j / 64]! := by
      simp [hw, hjw]
    have hij : i ≠ j := fun h => hw (by rw [h])
    rw [hset]
    simp [hij]

/-- `mark` adds the index. -/
lemma mark_snd (s : IndexSet) {i : ℕ} (hi : i < 256) :
    (s.mark i).2.toFinset = insert i s.toFinset := by
  ext j
  rw [Finset.mem_insert, mem_toFinset, mem_toFinset]
  constructor
  · rintro ⟨hj, hbit⟩
    rw [getLsbD_mark s hi hj] at hbit
    rcases Bool.or_eq_true_iff.1 hbit with hij | hbit
    · exact Or.inl (of_decide_eq_true hij).symm
    · exact Or.inr ⟨hj, hbit⟩
  · rintro (rfl | ⟨hj, hbit⟩)
    · exact ⟨hi, by rw [getLsbD_mark s hi hi]; simp⟩
    · exact ⟨hj, by rw [getLsbD_mark s hi hj, hbit, Bool.or_true]⟩

/-- Marking an index again changes nothing. -/
lemma mark_snd_of_mem (s : IndexSet) {i : ℕ} (h : i ∈ s.toFinset) : (s.mark i).2 = s := by
  obtain ⟨hi, hbit⟩ := mem_toFinset.1 h
  have hw : i / 64 < 4 := by omega
  have hm : i % 64 < 64 := Nat.mod_lt i (by decide)
  have hor : s.words[i / 64]! ||| 1#64 <<< (i % 64) = s.words[i / 64]! := by
    ext j hj
    rw [BitVec.getElem_or, ← BitVec.twoPow_eq, BitVec.getElem_twoPow]
    by_cases hij : j = i % 64
    · subst hij
      rw [← BitVec.getLsbD_eq_getElem, hbit]
      rfl
    · simp [hij]
  simp only [mark, hor]
  have hset : s.words.set! (i / 64) s.words[i / 64]! = s.words := by
    rw [getElem!_pos s.words (i / 64) hw, Vector.set!_eq_setIfInBounds]
    ext j hj
    rw [Vector.getElem_setIfInBounds]
    split_ifs with hij
    · simp only [hij]
    · rfl
  rw [hset]

end IndexSet

namespace ReassemblyBuffer

/-! ## Retiring -/

lemma entries_purge (b : ReassemblyBuffer) (now : SimTime) (k : Key) :
    (b.purge now).entries[k]? = b.entries[k]?.filter (fun e => ¬ e.deadline ≤ now) := by
  rw [purge, OrdMap.get_filter]

lemma completed_purge (b : ReassemblyBuffer) (now : SimTime) (k : Key) :
    (b.purge now).completed[k]? = b.completed[k]?.filter (fun c => now < c.deadline) := by
  rw [purge, OrdMap.get_filter]

lemma mem_stale {b : ReassemblyBuffer} {now : SimTime} {k : Key} {e : Entry} :
    (k, e) ∈ b.stale now ↔ b.entries[k]? = some e ∧ e.deadline ≤ now := by
  rw [stale, List.mem_filter, OrdMap.mem_toList, decide_eq_true_eq]

/-! ## Everything `accept` can do -/

/-- The fragment is one of a split SDU that the buffer can track. -/
structure IsSplit (frag : FragmentDesc) : Prop where
  two_le : 2 ≤ frag.count
  le_max : frag.count ≤ 256
  index_lt : frag.index < frag.count

lemma IsSplit.isWhole_eq_false {frag : FragmentDesc} (h : IsSplit frag) :
    frag.isWhole = false := by
  have := h.two_le
  rw [FragmentDesc.isWhole, beq_eq_false_iff_ne]
  omega

/-- The outcome of an arriving fragment and the buffer it leaves, from the purged buffer `b`. -/
inductive AcceptStep (b : ReassemblyBuffer) (now : SimTime) (key : Key) (frag : FragmentDesc) :
    ReassemblyOutcome → ReassemblyBuffer → Prop
  /-- The descriptor is malformed or too large. -/
  | refused (cause : DropCause) : ¬ IsSplit frag →
    (∀ had saw, cause ≠ .fragmentCountMismatch had saw) →
      AcceptStep b now key frag (.failed frag.sdu cause) b
  | whole : frag.count = 1 → AcceptStep b now key frag (.complete frag.sdu frag.payloadBytes 1) b
  /-- The set is open under another count: it is dropped. -/
  | mismatch (e : Entry) : IsSplit frag → b.entries[key]? = some e → e.want ≠ frag.count →
      AcceptStep b now key frag
        (.failed frag.sdu (.fragmentCountMismatch e.want frag.count))
        { b with entries := b.entries.erase key }
  | again (e : Entry) : IsSplit frag → b.entries[key]? = some e → e.want = frag.count →
      frag.index ∈ e.seen.toFinset → AcceptStep b now key frag (.pending frag.sdu e.got e.want) b
  /-- The index is new and others are missing. -/
  | progress (e : Entry) (seen : IndexSet) : IsSplit frag → b.entries[key]? = some e →
      e.want = frag.count → frag.index ∉ e.seen.toFinset →
      seen.toFinset = insert frag.index e.seen.toFinset → e.got + 1 ≠ e.want →
      AcceptStep b now key frag (.pending frag.sdu (e.got + 1) e.want)
        { b with
          entries := b.entries.insert key
            { e with
              seen := seen, got := e.got + 1
              bytes := min (e.bytes + frag.payloadBytes) (2 ^ 32 - 1) } }
  /-- The index is new and the last one. -/
  | finish (e : Entry) : IsSplit frag → b.entries[key]? = some e → e.want = frag.count →
      frag.index ∉ e.seen.toFinset → e.got + 1 = e.want →
      AcceptStep b now key frag
        (.complete frag.sdu (min (e.bytes + frag.payloadBytes) (2 ^ 32 - 1)) e.want)
        ({ b with entries := b.entries.erase key }.remember key e.want now)
  /-- The SDU has been delivered. -/
  | repeated (c : Completed) : IsSplit frag → b.entries[key]? = none → b.completed[key]? = some c →
      c.segments = frag.count → AcceptStep b now key frag (.duplicate frag.sdu c.segments) b
  /-- The SDU has been delivered under another count: the memory of it is dropped. -/
  | contradicts (c : Completed) : IsSplit frag → b.entries[key]? = none →
      b.completed[key]? = some c → c.segments ≠ frag.count →
      AcceptStep b now key frag (.failed frag.sdu (.fragmentCountMismatch c.segments frag.count))
        { b with completed := b.completed.erase key }
  /-- There is no slot for a new set. -/
  | full : IsSplit frag → b.entries[key]? = none → b.completed[key]? = none →
      b.maxOpen ≤ b.entries.size →
      AcceptStep b now key frag
        (.failed frag.sdu (.reassemblyBufferFull b.entries.size b.maxOpen)) b
  | opens (seen : IndexSet) : IsSplit frag → b.entries[key]? = none → b.completed[key]? = none →
      b.entries.size < b.maxOpen → seen.toFinset = {frag.index} →
      AcceptStep b now key frag (.pending frag.sdu 1 frag.count)
        { b with
          entries := b.entries.insert key
            ⟨frag.count, 1, seen, frag.payloadBytes, b.timeout.after now⟩ }

/-- A fragment of an open set does one of the steps for it. -/
lemma acceptOpen_step {b : ReassemblyBuffer} (now : SimTime) {key : Key} {e : Entry}
    {frag : FragmentDesc} (hs : IsSplit frag) (he : b.entries[key]? = some e) :
    AcceptStep b now key frag (b.acceptOpen now key e frag).1
      (b.acceptOpen now key e frag).2 := by
  have hi : frag.index < 256 := lt_of_lt_of_le hs.index_lt hs.le_max
  rw [acceptOpen]
  split_ifs with hwant
  · exact .mismatch e hs he hwant
  · have hwant := not_not.1 hwant
    have hnew := e.seen.mark_fst hi
    by_cases hmem : frag.index ∈ e.seen.toFinset
    · have hseen := e.seen.mark_snd_of_mem hmem
      have hins : b.entries.insert key e = b.entries := OrdMap.insert_of_get he
      simp only [hnew, hmem, hseen, not_true_eq_false, decide_false, Bool.not_false, if_true, hins]
      exact .again e hs he hwant hmem
    · simp only [hnew, hmem, not_false_eq_true, decide_true, Bool.not_true, Bool.false_eq_true,
        if_false]
      split_ifs with hlast
      · exact .finish e hs he hwant hmem hlast
      · exact .progress e _ hs he hwant hmem (e.seen.mark_snd hi) hlast

/-- A fragment of a set that is not open does one of the steps for it. -/
lemma acceptNew_step {b : ReassemblyBuffer} (now : SimTime) {key : Key} {frag : FragmentDesc}
    (hs : IsSplit frag) (he : b.entries[key]? = none) :
    AcceptStep b now key frag (b.acceptNew now key frag).1 (b.acceptNew now key frag).2 := by
  have hi : frag.index < 256 := lt_of_lt_of_le hs.index_lt hs.le_max
  rw [acceptNew]
  cases hc : b.completed[key]? with
  | some c =>
    dsimp only
    split_ifs with hseg
    · exact .repeated c hs he hc hseg
    · exact .contradicts c hs he hc hseg
  | none =>
    dsimp only
    split_ifs with hfull
    · exact .full hs he hc hfull
    · refine .opens _ hs he hc (not_le.1 hfull) ?_
      rw [IndexSet.mark_snd _ hi, IndexSet.toFinset_empty]
      rfl

/-- **Everything `accept` can do**, from the purged buffer. -/
theorem accept_step (b : ReassemblyBuffer) (now : SimTime) (sender : NodeId)
    (frag : FragmentDesc) :
    AcceptStep (b.purge now) now (toLex (sender, frag.sdu)) frag (b.accept now sender frag).1
      (b.accept now sender frag).2 := by
  rw [accept]
  dsimp only
  split_ifs with hbad hbig hone
  · refine .refused _ (fun hs => ?_) (by simp)
    have := hs.two_le
    have := hs.index_lt
    omega
  · refine .refused _ (fun hs => ?_) (by simp)
    have := hs.le_max
    simp only [reassemblyMaxFragments] at hbig
    omega
  · exact .whole hone
  · have hs : IsSplit frag := by
      simp only [reassemblyMaxFragments] at hbig
      exact ⟨by omega, by omega, by omega⟩
    cases he : (b.purge now).entries[(toLex (sender, frag.sdu) : Key)]? with
    | some e => exact acceptOpen_step now hs he
    | none => exact acceptNew_step now hs he

/-! ## The memory of completions -/

lemma deadline_le_of_oldest {b : ReassemblyBuffer} {old k : Key} {c d : Completed}
    (h : b.oldest = some old) (hc : b.completed[old]? = some c) (hd : b.completed[k]? = some d) :
    c.deadline ≤ d.deadline := by
  obtain ⟨⟨⟨k', c'⟩, rest⟩, hx, hk⟩ := Option.map_eq_some_iff.1 h
  obtain rfl : k' = old := hk
  have hmem : (k', c') ∈ b.completed.toList :=
    (extractMin_perm _ hx).mem_iff.2 List.mem_cons_self
  obtain rfl : c' = c := Option.some.inj ((OrdMap.mem_toList.1 hmem).symm.trans hc)
  have hle := extractMin_le _ hx (k, d) (OrdMap.mem_toList.2 hd)
  rcases (Prod.Lex.toLex_le_toLex).1 hle with hlt | ⟨heq, -⟩
  · exact hlt.le
  · exact heq.le

/-- Making room for `key` changes nothing, or forgets the oldest completion of a full memory. -/
lemma evictOldest_cases (b : ReassemblyBuffer) (key : Key) :
    (b.evictOldest key = b ∧
        (b.completed.size < b.maxOpen ∨ b.completed[key]? ≠ none ∨ b.completed.size = 0)) ∨
      ∃ old c, b.maxOpen ≤ b.completed.size ∧ b.completed[key]? = none ∧ b.oldest = some old ∧
        b.completed[old]? = some c ∧
        b.evictOldest key = { b with completed := b.completed.erase old } := by
  rw [evictOldest]
  split_ifs with hfull
  · cases ho : b.oldest with
    | none =>
      refine Or.inl ⟨rfl, Or.inr (Or.inr ?_)⟩
      rw [oldest, Option.map_eq_none_iff, extractMin_eq_none] at ho
      rw [← Std.ExtTreeMap.length_toList, ho, List.length_nil]
    | some old =>
      obtain ⟨⟨⟨k, c⟩, rest⟩, hx, hk⟩ := Option.map_eq_some_iff.1 ho
      obtain rfl : k = old := hk
      have hmem : (k, c) ∈ b.completed.toList :=
        (extractMin_perm _ hx).mem_iff.2 List.mem_cons_self
      exact Or.inr ⟨k, c, hfull.1, hfull.2, rfl, OrdMap.mem_toList.1 hmem, rfl⟩
  · rw [not_and_or, not_le] at hfull
    refine Or.inl ⟨rfl, ?_⟩
    rcases hfull with hlt | hmem
    · exact Or.inl hlt
    · exact Or.inr (Or.inl hmem)

lemma evictOldest_frame (b : ReassemblyBuffer) (key : Key) :
    (b.evictOldest key).entries = b.entries ∧ (b.evictOldest key).expired = b.expired ∧
      (b.evictOldest key).maxOpen = b.maxOpen ∧ (b.evictOldest key).timeout = b.timeout := by
  rcases b.evictOldest_cases key with ⟨h, -⟩ | ⟨old, c, -, -, -, -, h⟩
  · rw [h]
    exact ⟨rfl, rfl, rfl, rfl⟩
  · rw [h]
    exact ⟨rfl, rfl, rfl, rfl⟩

lemma remember_frame (b : ReassemblyBuffer) (key : Key) (segments : ℕ) (now : SimTime) :
    (b.remember key segments now).entries = b.entries ∧
      (b.remember key segments now).expired = b.expired ∧
      (b.remember key segments now).maxOpen = b.maxOpen ∧
      (b.remember key segments now).timeout = b.timeout :=
  b.evictOldest_frame key

lemma completed_remember (b : ReassemblyBuffer) (key k : Key) (segments : ℕ) (now : SimTime) :
    (b.remember key segments now).completed[k]? =
      if key = k then some ⟨segments, b.timeout.after now⟩ else
          (b.evictOldest key).completed[k]? := by
  rw [remember, OrdMap.get_insert, (b.evictOldest_frame key).2.2.2]

/-- The memory stays within its bound. -/
lemma size_remember_le {b : ReassemblyBuffer} (key : Key) (segments : ℕ) (now : SimTime)
    (hle : b.completed.size ≤ b.maxOpen) (hpos : 0 < b.maxOpen) :
    (b.remember key segments now).completed.size ≤ b.maxOpen := by
  rw [remember]
  rcases b.evictOldest_cases key with ⟨h, hroom⟩ | ⟨old, c, hfull, -, -, hold, h⟩
  · rw [h]
    rcases hroom with hlt | hmem | hzero
    · exact (OrdMap.size_insert_le _ _ _).trans hlt
    · obtain ⟨d, hd⟩ := Option.ne_none_iff_exists'.1 hmem
      exact (OrdMap.size_insert_of_some hd _).trans_le hle
    · have := OrdMap.size_insert_le b.completed key ⟨segments, b.timeout.after now⟩
      dsimp only
      omega
  · rw [h]
    have hsize := OrdMap.size_erase_add_one hold
    have := OrdMap.size_insert_le (b.completed.erase old) key ⟨segments, b.timeout.after now⟩
    dsimp only
    omega

/-! ## The invariant -/

/-- The counters of an open entry: `got` is the number of distinct indices, and some are
missing. -/
structure EntryOk (e : Entry) : Prop where
  got_eq : e.got = e.seen.toFinset.card
  got_pos : 1 ≤ e.got
  got_lt : e.got < e.want
  want_le : e.want ≤ 256
  seen_lt : ∀ i ∈ e.seen.toFinset, i < e.want

/-- The capacity bounds and the counters of the open entries. -/
structure Inv (b : ReassemblyBuffer) : Prop where
  opened_le : b.opened ≤ b.maxOpen
  remembered_le : b.remembered ≤ b.maxOpen
  entry : ∀ (k : Key) (e : Entry), b.entries[k]? = some e → EntryOk e

lemma inv_new (maxOpen : ℕ) (timeout : Duration) : (new maxOpen timeout).Inv where
  opened_le := by simp [opened, new]
  remembered_le := by simp [remembered, new]
  entry k e he := by simp [new] at he

lemma Inv.purge {b : ReassemblyBuffer} (h : b.Inv) (now : SimTime) : (b.purge now).Inv where
  opened_le := Std.ExtTreeMap.size_filter_le_size.trans h.opened_le
  remembered_le := Std.ExtTreeMap.size_filter_le_size.trans h.remembered_le
  entry k e he := by
    rw [entries_purge] at he
    exact h.entry k e (Option.filter_eq_some_iff.1 he).1

/-- Each step of `accept` keeps the invariant. -/
lemma Inv.acceptStep {b b' : ReassemblyBuffer} {now : SimTime} {key : Key}
    {frag : FragmentDesc} {o : ReassemblyOutcome} (h : b.Inv)
    (hstep : AcceptStep b now key frag o b') : b'.Inv := by
  cases hstep with
  | refused _ => exact h
  | whole => exact h
  | mismatch e _ he _ =>
    refine ⟨(OrdMap.size_erase_le _ _).trans h.opened_le, h.remembered_le, fun k e' hk => ?_⟩
    rw [OrdMap.get_erase] at hk
    split_ifs at hk
    exact h.entry k e' hk
  | again => exact h
  | progress e seen hs he hwant hnew hseen hlast =>
    have hok := h.entry key e he
    refine ⟨(OrdMap.size_insert_of_some he _).trans_le h.opened_le, h.remembered_le,
      fun k e' hk => ?_⟩
    rw [OrdMap.get_insert] at hk
    split_ifs at hk with hkey
    · obtain rfl := Option.some.inj hk
      have hlt := hok.got_lt
      refine ⟨?_, by simp, ?_, hok.want_le, ?_⟩
      · rw [hseen, Finset.card_insert_of_notMem hnew, hok.got_eq]
      · dsimp only
        omega
      · intro i hi
        rw [hseen] at hi
        rcases Finset.mem_insert.1 hi with rfl | hi
        · exact hwant ▸ hs.index_lt
        · exact hok.seen_lt i hi
    · exact h.entry k e' hk
  | finish e hs he hwant hnew hlast =>
    have hpos : 0 < b.maxOpen := by
      have hsize := OrdMap.size_erase_add_one he
      have := h.opened_le
      simp only [opened] at this
      omega
    obtain ⟨hent, -, hmax, -⟩ :=
      remember_frame { b with entries := b.entries.erase key } key e.want now
    refine ⟨?_, ?_, fun k e' hk => ?_⟩
    · rw [opened, hent, hmax]
      exact (OrdMap.size_erase_le _ _).trans h.opened_le
    · rw [hmax]
      exact size_remember_le (b := { b with entries := b.entries.erase key }) key e.want now
        h.remembered_le hpos
    · rw [hent, OrdMap.get_erase] at hk
      split_ifs at hk
      exact h.entry k e' hk
  | repeated => exact h
  | contradicts => exact ⟨h.opened_le, (OrdMap.size_erase_le _ _).trans h.remembered_le, h.entry⟩
  | full => exact h
  | opens seen hs he hc hroom hseen =>
    refine ⟨(OrdMap.size_insert_le _ _ _).trans hroom, h.remembered_le, fun k e' hk => ?_⟩
    rw [OrdMap.get_insert] at hk
    split_ifs at hk with hkey
    · obtain rfl := Option.some.inj hk
      refine ⟨by simp [hseen], le_rfl, hs.two_le, hs.le_max, ?_⟩
      intro i hi
      rw [hseen] at hi
      exact (Finset.mem_singleton.1 hi) ▸ hs.index_lt
    · exact h.entry k e' hk

/-! ## Arrivals by the state of their key -/

/-- A fragment that agrees with its open set: a repeat, a new index, or the last one. -/
lemma AcceptStep.of_open {b b' : ReassemblyBuffer} {now : SimTime} {key : Key}
    {frag : FragmentDesc} {o : ReassemblyOutcome} {e : Entry}
    (hstep : AcceptStep b now key frag o b') (hs : IsSplit frag) (he : b.entries[key]? = some e)
    (hwant : e.want = frag.count) :
    (frag.index ∈ e.seen.toFinset ∧ o = .pending frag.sdu e.got e.want ∧ b' = b) ∨
    (frag.index ∉ e.seen.toFinset ∧ e.got + 1 ≠ e.want ∧
      o = .pending frag.sdu (e.got + 1) e.want ∧
      ∃ seen : IndexSet, seen.toFinset = insert frag.index e.seen.toFinset ∧
        b'.entries[key]? = some { e with
          seen := seen, got := e.got + 1
          bytes := min (e.bytes + frag.payloadBytes) (2 ^ 32 - 1) }) ∨
    (frag.index ∉ e.seen.toFinset ∧ e.got + 1 = e.want ∧
      o = .complete frag.sdu (min (e.bytes + frag.payloadBytes) (2 ^ 32 - 1)) e.want ∧
      b'.entries[key]? = none ∧ b'.completed[key]? = some ⟨e.want, b.timeout.after now⟩) := by
  have hinj : ∀ e', b.entries[key]? = some e' → e = e' := fun e' he' =>
    Option.some.inj (he.symm.trans he')
  cases hstep with
  | refused _ hns => exact absurd hs hns
  | whole hone => exact absurd hs.two_le (by omega)
  | mismatch e' _ he' hne =>
    obtain rfl := hinj e' he'
    exact absurd hwant hne
  | again e' _ he' _ hmem =>
    obtain rfl := hinj e' he'
    exact Or.inl ⟨hmem, rfl, rfl⟩
  | progress e' seen _ he' _ hnew hseen hlast =>
    obtain rfl := hinj e' he'
    exact Or.inr (Or.inl ⟨hnew, hlast, rfl, seen, hseen, by rw [OrdMap.get_insert, if_pos rfl]⟩)
  | finish e' _ he' _ hnew hlast =>
    obtain rfl := hinj e' he'
    refine Or.inr (Or.inr ⟨hnew, hlast, rfl, ?_, ?_⟩)
    · rw [(remember_frame _ _ _ _).1, OrdMap.get_erase, if_pos rfl]
    · rw [completed_remember, if_pos rfl]
  | repeated c _ hnone => exact absurd (hnone.symm.trans he) (by simp)
  | contradicts c _ hnone => exact absurd (hnone.symm.trans he) (by simp)
  | full _ hnone => exact absurd (hnone.symm.trans he) (by simp)
  | opens seen _ hnone => exact absurd (hnone.symm.trans he) (by simp)

/-- A fragment of a key neither open nor remembered opens a set if there is a slot. -/
lemma AcceptStep.of_fresh {b b' : ReassemblyBuffer} {now : SimTime} {key : Key}
    {frag : FragmentDesc} {o : ReassemblyOutcome} (hstep : AcceptStep b now key frag o b')
    (hs : IsSplit frag) (he : b.entries[key]? = none) (hc : b.completed[key]? = none)
    (hroom : b.entries.size < b.maxOpen) :
    o = .pending frag.sdu 1 frag.count ∧ ∃ seen : IndexSet, seen.toFinset = {frag.index} ∧
      b'.entries[key]? =
        some ⟨frag.count, 1, seen, frag.payloadBytes, b.timeout.after now⟩ := by
  cases hstep with
  | refused _ hns => exact absurd hs hns
  | whole hone => exact absurd hs.two_le (by omega)
  | mismatch e' _ he' => exact absurd (he.symm.trans he') (by simp)
  | again e' _ he' => exact absurd (he.symm.trans he') (by simp)
  | progress e' _ _ he' => exact absurd (he.symm.trans he') (by simp)
  | finish e' _ he' => exact absurd (he.symm.trans he') (by simp)
  | repeated c _ _ hc' => exact absurd (hc.symm.trans hc') (by simp)
  | contradicts c _ _ hc' => exact absurd (hc.symm.trans hc') (by simp)
  | full _ _ _ hfull => exact absurd hroom (not_lt.2 hfull)
  | opens seen _ _ _ _ hseen => exact ⟨rfl, seen, hseen, by rw [OrdMap.get_insert, if_pos rfl]⟩

/-- A fragment of a remembered key that agrees with it is a duplicate and changes nothing. -/
lemma AcceptStep.of_remembered {b b' : ReassemblyBuffer} {now : SimTime} {key : Key}
    {frag : FragmentDesc} {o : ReassemblyOutcome} {c : Completed}
    (hstep : AcceptStep b now key frag o b') (hs : IsSplit frag) (he : b.entries[key]? = none)
    (hc : b.completed[key]? = some c) (hseg : c.segments = frag.count) :
    o = .duplicate frag.sdu c.segments ∧ b' = b := by
  have hinj : ∀ c', b.completed[key]? = some c' → c = c' := fun c' hc' =>
    Option.some.inj (hc.symm.trans hc')
  cases hstep with
  | refused _ hns => exact absurd hs hns
  | whole hone => exact absurd hs.two_le (by omega)
  | mismatch e' _ he' => exact absurd (he.symm.trans he') (by simp)
  | again e' _ he' => exact absurd (he.symm.trans he') (by simp)
  | progress e' _ _ he' => exact absurd (he.symm.trans he') (by simp)
  | finish e' _ he' => exact absurd (he.symm.trans he') (by simp)
  | repeated c' _ _ hc' _ =>
    obtain rfl := hinj c' hc'
    exact ⟨rfl, rfl⟩
  | contradicts c' _ _ hc' hne =>
    obtain rfl := hinj c' hc'
    exact absurd hseg hne
  | full _ _ hc' _ => exact absurd (hc'.symm.trans hc) (by simp)
  | opens seen _ _ hc' _ _ => exact absurd (hc'.symm.trans hc) (by simp)

/-! ## What an arrival leaves alone -/

lemma AcceptStep.frame {b b' : ReassemblyBuffer} {now : SimTime} {key : Key}
    {frag : FragmentDesc} {o : ReassemblyOutcome} (hstep : AcceptStep b now key frag o b') :
    b'.maxOpen = b.maxOpen ∧ b'.timeout = b.timeout ∧ b'.expired = b.expired := by
  cases hstep with
  | finish e =>
    obtain ⟨-, hexp, hmax, htime⟩ :=
      remember_frame { b with entries := b.entries.erase key } key e.want now
    exact ⟨hmax, htime, hexp⟩
  | _ => exact ⟨rfl, rfl, rfl⟩

lemma AcceptStep.entries_of_ne {b b' : ReassemblyBuffer} {now : SimTime} {key k : Key}
    {frag : FragmentDesc} {o : ReassemblyOutcome} (hstep : AcceptStep b now key frag o b')
    (hk : key ≠ k) : b'.entries[k]? = b.entries[k]? := by
  cases hstep with
  | mismatch => rw [OrdMap.get_erase, if_neg hk]
  | progress => rw [OrdMap.get_insert, if_neg hk]
  | finish e =>
    rw [(remember_frame { b with entries := b.entries.erase key } key e.want now).1,
      OrdMap.get_erase, if_neg hk]
  | opens => rw [OrdMap.get_insert, if_neg hk]
  | _ => rfl

/-- An arrival leaves the memory of another key alone, unless it completes a set and evicts that
key as the oldest of a full memory. -/
lemma AcceptStep.completed_of_ne {b b' : ReassemblyBuffer} {now : SimTime} {key k : Key}
    {frag : FragmentDesc} {o : ReassemblyOutcome} (hstep : AcceptStep b now key frag o b')
    (hk : key ≠ k) :
    b'.completed[k]? = b.completed[k]? ∨
      (IsSplit frag ∧ (∃ bytes segments, o = .complete frag.sdu bytes segments) ∧
        b.maxOpen ≤ b.completed.size ∧ b.completed[key]? = none ∧
        ∃ c, b.completed[k]? = some c ∧
          ∀ (k' : Key) (d : Completed), b.completed[k']? = some d → c.deadline ≤ d.deadline) := by
  cases hstep with
  | finish e hs he hwant hnew hlast =>
    rw [completed_remember, if_neg hk]
    rcases evictOldest_cases { b with entries := b.entries.erase key } key with
      ⟨h, -⟩ | ⟨old, c, hfull, hnone, hold, hc, h⟩
    · rw [h]
      exact Or.inl rfl
    · rw [h]
      dsimp only
      rw [OrdMap.get_erase]
      split_ifs with hko
      · subst hko
        exact Or.inr ⟨hs, ⟨_, _, rfl⟩, hfull, hnone, c, hc,
          fun k' d hd => deadline_le_of_oldest hold hc hd⟩
      · exact Or.inl rfl
  | contradicts => exact Or.inl (by rw [OrdMap.get_erase, if_neg hk])
  | _ => exact Or.inl rfl

end ReassemblyBuffer

end V2xw.Net
