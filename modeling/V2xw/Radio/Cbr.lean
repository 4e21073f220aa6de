import Mathlib.Data.List.TakeWhile
import V2xw.Lib.Spans
import V2xw.Radio.Edca

/-!
# The channel-busy meter

The meter of `crates/v2xw-radio/src/mac.rs`. It forgets a busy interval once another has been
recorded that ends a window later, be that end in the future. So what it measures is what it still
holds, and that is all the busy time of the window exactly where nothing forgotten is missing there.
Instants are in nanoseconds.

## Main definitions

* `CbrMeter.busyNs` — what the meter measures.
* `Occupied` — every interval recorded, and the one that is open.
* `CbrMeter.Missing` — an instant of the window that only forgotten intervals cover.

## Main results

* `CbrMeter.busyNs_eq` — the meter measures the union of what it holds.
* `CbrMeter.held_after` — what it holds was recorded, and what it forgot ended a window
  before another interval.
* `CbrMeter.busyNs_eq_iff` — the meter measures the busy time exactly where no instant is
  missing.
* `CbrMeter.forgotten_early` — an interval that is forgotten inside the window.
-/

namespace V2xw.Radio

open Core (Duration)

/-! ## The meter -/

namespace CbrMeter

/-- A meter over a caller-chosen window. -/
def withWindow (window : Duration) : CbrMeter := ⟨window, [], none⟩

/-- The closed intervals, and the open one up to `now`. -/
def held (m : CbrMeter) (now : ℕ) : List (ℕ × ℕ) :=
  m.busy ++ (m.opened.map fun o => (o, now)).toList

/-- The busy time inside the window ending at `now`, in nanoseconds: the intervals are clipped to
the window, sorted, and joined where they overlap. -/
def busyNs (m : CbrMeter) (now : ℕ) : ℕ :=
  let spans := (m.held now).filterMap (Spans.clip (now - m.window.ns) now)
  Spans.joined (spans.mergeSort before) 0 none

end CbrMeter

/-! ## What was recorded -/

/-- A call that records. -/
inductive MeterCall
  | noteBusy (since till : ℕ)
  | busyFrom (t : ℕ)
  | idleAt (t : ℕ)
  deriving DecidableEq, Repr

/-- Every interval recorded, and the one that is open. -/
structure Occupied where
  spans : List (ℕ × ℕ) := []
  since : Option ℕ := none

namespace Occupied

/-- One more call. -/
def record (o : Occupied) : MeterCall → Occupied
  | .noteBusy since till => { o with spans := o.spans ++ [(since, till)] }
  | .busyFrom t => { o with since := o.since.or (some t) }
  | .idleAt t => { spans := o.spans ++ (o.since.map fun since => (since, t)).toList, since := none }

/-- What a history of calls records. -/
def of (calls : List MeterCall) : Occupied := calls.foldl record {}

/-- The instants at which the medium was busy, the open interval ending at `now`. -/
def instants (o : Occupied) (now : ℕ) : Finset ℕ :=
  Spans.covered (o.spans ++ (o.since.map fun since => (since, now)).toList)

end Occupied

namespace CbrMeter

/-- One call on the meter. -/
def call (m : CbrMeter) : MeterCall → CbrMeter
  | .noteBusy since till => m.noteBusy since till
  | .busyFrom t => m.busyFrom t
  | .idleAt t => m.idleAt t

/-- The meter after a history of calls. -/
def after (window : Duration) (calls : List MeterCall) : CbrMeter :=
  calls.foldl call (withWindow window)

/-- The instants of the window ending at `now`. -/
def inWindow (window : Duration) (now : ℕ) : Finset ℕ := Finset.Ico (now - window.ns) now

/-- The instant `t` of the window is missing: an interval that covers it was recorded and is held no
more, and none that is held covers it. -/
def Missing (window : Duration) (calls : List MeterCall) (now t : ℕ) : Prop :=
  t ∈ inWindow window now ∧ t ∉ Spans.covered ((after window calls).held now) ∧
    ∃ x ∈ (Occupied.of calls).spans, x ∉ (after window calls).busy ∧ x.1 ≤ t ∧ t < x.2

/-! ## What the meter measures -/

lemma before_iff {x y : ℕ × ℕ} :
    before x y = true ↔ x.1 < y.1 ∨ x.1 = y.1 ∧ x.2 ≤ y.2 := decide_eq_true_iff

lemma pairwise_mergeSort (l : List (ℕ × ℕ)) :
    (l.mergeSort before).Pairwise fun x y => x.1 ≤ y.1 := by
  refine (List.pairwise_mergeSort (fun x y z hxy hyz => ?_) (fun x y => ?_) l).imp fun hxy => ?_
  · rw [before_iff] at hxy hyz ⊢
    omega
  · rw [Bool.or_eq_true, before_iff, before_iff]
    omega
  · rw [before_iff] at hxy
    omega

/-- **The meter measures the union of what it holds**, in the window. -/
theorem busyNs_eq (m : CbrMeter) (now : ℕ) :
    m.busyNs now = (Spans.covered (m.held now) ∩ inWindow m.window now).card := by
  unfold busyNs inWindow
  rw [Spans.joined_eq (pairwise_mergeSort _), ← Spans.covered_clip]
  exact congrArg Finset.card (Spans.covered_congr fun x => (List.mergeSort_perm _ _).mem_iff)

lemma busyNs_le (m : CbrMeter) (now : ℕ) : m.busyNs now ≤ m.window.ns := by
  rw [busyNs_eq]
  refine (Finset.card_le_card Finset.inter_subset_right).trans ?_
  rw [inWindow, Nat.card_Ico]
  omega

/-! ## What the meter holds -/

/-- What a history holds of what it recorded. -/
structure Holds (m : CbrMeter) (o : Occupied) : Prop where
  opened : m.opened = o.since
  held : ∀ x ∈ m.busy, x ∈ o.spans
  forgotten : ∀ x ∈ o.spans, x ∉ m.busy → x.1 < x.2 → ∃ y ∈ o.spans, x.2 + m.window.ns ≤ y.2

lemma mem_prune {m : CbrMeter} {now : ℕ} {x : ℕ × ℕ} :
    (x ∈ (m.prune now).busy → x ∈ m.busy) ∧
      (x ∈ m.busy → x ∉ (m.prune now).busy → x.2 ≤ now - m.window.ns) := by
  have hsplit := List.takeWhile_append_dropWhile (p := fun x : ℕ × ℕ =>
    decide (x.2 ≤ now - m.window.ns)) (l := m.busy)
  refine ⟨fun h => (List.dropWhile_suffix _).subset h, fun h hnot => ?_⟩
  rw [← hsplit, List.mem_append] at h
  have htake := h.resolve_right hnot
  simpa using List.mem_takeWhile_imp htake

/-- A recorded interval is held, until the next one's end prunes it. -/
lemma Holds.record {m : CbrMeter} {o : Occupied} (h : m.Holds o) {since till : ℕ}
    {next : CbrMeter} {o' : Occupied} (hwindow : next.window = m.window)
    (hbusy : ∀ x, x ∈ next.busy ↔ x ∈ m.busy ∨ x = (since, till))
    (hspans : o'.spans = o.spans ++ [(since, till)]) (hopened : next.opened = o'.since) :
    (next.prune till).Holds o' := by
  have hspans' : ∀ x, x ∈ o'.spans ↔ x ∈ o.spans ∨ x = (since, till) := by
    intro x
    rw [hspans, List.mem_append, List.mem_singleton]
  refine ⟨hopened, fun x hx => ?_, fun x hx hnot hne => ?_⟩
  · exact (hspans' x).2 (((hbusy x).1 (mem_prune.1 hx)).imp_left (h.held x))
  · change ∃ y ∈ o'.spans, x.2 + next.window.ns ≤ y.2
    by_cases hin : x ∈ next.busy
    · have hend := mem_prune.2 hin hnot
      exact ⟨(since, till), (hspans' _).2 (.inr rfl), by simp only; omega⟩
    · rw [hbusy, not_or] at hin
      obtain ⟨y, hy, hle⟩ := h.forgotten x (((hspans' x).1 hx).resolve_right hin.2) hin.1 hne
      exact ⟨y, (hspans' y).2 (.inl hy), hwindow ▸ hle⟩

/-- An empty interval is recorded and not held. -/
lemma Holds.skip {m next : CbrMeter} {o o' : Occupied} (h : m.Holds o) {since till : ℕ}
    (hle : till ≤ since) (hbusy : next.busy = m.busy) (hwindow : next.window = m.window)
    (hspans : o'.spans = o.spans ++ [(since, till)]) (hopened : next.opened = o'.since) :
    next.Holds o' := by
  refine ⟨hopened, fun x hx => ?_, fun x hx hnot hne => ?_⟩
  · rw [hspans]
    exact List.mem_append_left _ (h.held x (hbusy ▸ hx))
  · rw [hspans, List.mem_append, List.mem_singleton] at hx
    obtain hx | rfl := hx
    · obtain ⟨y, hy, hend⟩ := h.forgotten x hx (hbusy ▸ hnot) hne
      rw [hspans, hwindow]
      exact ⟨y, List.mem_append_left _ hy, hend⟩
    · exact absurd hne (Nat.not_lt.2 hle)

/-- One call keeps the window, and what is held of what was recorded. -/
lemma Holds.step {m : CbrMeter} {o : Occupied} (h : m.Holds o) (i : MeterCall) :
    (m.call i).Holds (o.record i) ∧ (m.call i).window = m.window := by
  cases i with
  | noteBusy since till =>
    unfold call noteBusy
    dsimp only
    split_ifs with hlt
    · refine ⟨h.record rfl (fun x => ?_) rfl h.opened, rfl⟩
      simp only [List.mem_mergeSort, List.mem_append, List.mem_singleton]
    · exact ⟨h.skip (Nat.not_lt.1 hlt) rfl rfl rfl h.opened, rfl⟩
  | busyFrom t =>
    unfold call busyFrom
    cases ho : m.opened with
    | none =>
      refine ⟨⟨?_, h.held, h.forgotten⟩, rfl⟩
      have hsince := h.opened.symm.trans ho
      simp [Occupied.record, hsince]
    | some since =>
      refine ⟨⟨?_, h.held, h.forgotten⟩, rfl⟩
      have hsince := h.opened.symm.trans ho
      simp [Occupied.record, hsince, ho]
  | idleAt t =>
    unfold call idleAt
    have hopened := h.opened
    cases ho : m.opened with
    | none =>
      rw [ho] at hopened
      refine ⟨⟨ho, fun x hx => ?_, fun x hx hnot hne => ?_⟩, rfl⟩
      · simpa [Occupied.record, ← hopened] using h.held x hx
      · simpa [Occupied.record, ← hopened] using
          h.forgotten x (by simpa [Occupied.record, ← hopened] using hx) hnot hne
    | some since =>
      rw [ho] at hopened
      have hspans : (o.record (.idleAt t)).spans = o.spans ++ [(since, t)] := by
        simp [Occupied.record, ← hopened]
      dsimp only
      split_ifs with hlt
      · refine ⟨h.record rfl (fun x => ?_) hspans rfl, rfl⟩
        simp only [List.mem_append, List.mem_singleton]
      · exact ⟨h.skip (Nat.not_lt.1 hlt) rfl rfl hspans rfl, rfl⟩

/-- **What the meter holds** was recorded, and what it forgot ended a window before the end of
another interval. -/
theorem held_after (window : Duration) (calls : List MeterCall) :
    (after window calls).Holds (Occupied.of calls) ∧ (after window calls).window = window := by
  induction calls using List.reverseRecOn with
  | nil => exact ⟨⟨rfl, fun _ hx => hx, fun x hx => absurd hx List.not_mem_nil⟩, rfl⟩
  | append_singleton calls i ih =>
    obtain ⟨hholds, hwindow⟩ := ih
    obtain ⟨hnext, hsame⟩ := hholds.step i
    unfold after Occupied.of
    rw [List.foldl_concat, List.foldl_concat]
    exact ⟨hnext, hsame.trans hwindow⟩

/-! ## What is missing -/

/-- The busy time of the window, less the instants that are missing, is what the meter measures. -/
lemma held_or_missing (window : Duration) (calls : List MeterCall) (now : ℕ) (t : ℕ) :
    t ∈ (Occupied.of calls).instants now ∩ inWindow window now ↔
      t ∈ Spans.covered ((after window calls).held now) ∩ inWindow window now ∨
        Missing window calls now t := by
  obtain ⟨hholds, -⟩ := held_after window calls
  unfold Missing held Occupied.instants
  rw [← hholds.opened, Finset.mem_inter, Finset.mem_inter]
  simp only [Spans.mem_covered, List.mem_append]
  constructor
  · rintro ⟨⟨x, hx, hcovers⟩, hin⟩
    by_cases hheld : ∃ x, (x ∈ (after window calls).busy ∨
        x ∈ ((after window calls).opened.map fun o => (o, now)).toList) ∧ x.1 ≤ t ∧ t < x.2
    · exact .inl ⟨hheld, hin⟩
    · refine .inr ⟨hin, hheld, ?_⟩
      obtain hx | hx := hx
      · exact ⟨x, hx, fun hbusy => hheld ⟨x, .inl hbusy, hcovers⟩, hcovers⟩
      · exact absurd ⟨x, .inr hx, hcovers⟩ hheld
  · rintro (⟨⟨x, hx, hcovers⟩, hin⟩ | ⟨hin, -, x, hx, -, hcovers⟩)
    · exact ⟨⟨x, hx.imp_left (hholds.held x), hcovers⟩, hin⟩
    · exact ⟨⟨x, .inl hx, hcovers⟩, hin⟩

/-- **The busy meter**, after any calls and at any instant: it never measures more than the window,
and it measures the busy time of the window if and only if no instant is missing. None is, where no
recorded interval ends a window after another that reaches into the window of the query. -/
theorem busyNs_eq_iff (window : Duration) (calls : List MeterCall) (now : ℕ) :
    (after window calls).busyNs now ≤ window.ns ∧
      ((after window calls).busyNs now =
          ((Occupied.of calls).instants now ∩ inWindow window now).card ↔
        ∀ t, ¬ Missing window calls now t) ∧
      ((∀ x ∈ (Occupied.of calls).spans, ∀ y ∈ (Occupied.of calls).spans,
          x.2 + window.ns ≤ y.2 → x.2 + window.ns ≤ now) → ∀ t, ¬ Missing window calls now t) := by
  obtain ⟨hholds, hwindow⟩ := held_after window calls
  have hle := (after window calls).busyNs_le now
  have hmeasure := (after window calls).busyNs_eq now
  rw [hwindow] at hle hmeasure
  have hmem := held_or_missing window calls now
  have hsub : Spans.covered ((after window calls).held now) ∩ inWindow window now ⊆
      (Occupied.of calls).instants now ∩ inWindow window now :=
    fun t ht => (hmem t).2 (.inl ht)
  refine ⟨hle, ?_, ?_⟩
  · rw [hmeasure]
    constructor
    · rintro hcard t hmissing
      have hsame := Finset.eq_of_subset_of_card_le hsub hcard.ge
      have ht := (hmem t).2 (.inr hmissing)
      rw [← hsame, Finset.mem_inter] at ht
      exact hmissing.2.1 ht.1
    · intro hnone
      refine congrArg Finset.card (Finset.Subset.antisymm hsub fun t ht => ?_)
      exact ((hmem t).1 ht).resolve_right (hnone t)
  · rintro hends t ⟨hin, -, x, hx, hnot, hfrom, hto⟩
    obtain ⟨y, hy, hend⟩ := hholds.forgotten x hx hnot (hfrom.trans_lt hto)
    rw [hwindow] at hend
    have hout := hends x hx y hy hend
    rw [inWindow, Finset.mem_Ico] at hin
    omega

/-- **Forgotten early**: an interval recorded ahead, from 50 ms to 115 ms, prunes one of the first
10 ms, which at 60 ms is still inside the window of 100 ms. -/
theorem forgotten_early :
    let calls : List MeterCall := [.noteBusy 0 10000000, .noteBusy 50000000 115000000]
    (∀ x ∈ (Occupied.of calls).spans, x.1 ≤ 60000000) ∧
      (after ⟨100000000⟩ calls).busyNs 60000000 = 10000000 ∧
      ((Occupied.of calls).instants 60000000 ∩ inWindow ⟨100000000⟩ 60000000).card = 20000000 := by
  have hafter : after ⟨100000000⟩ [.noteBusy 0 10000000, .noteBusy 50000000 115000000] =
      ⟨⟨100000000⟩, [(50000000, 115000000)], none⟩ := by
    simp [after, call, noteBusy, withWindow, prune, List.mergeSort, before]
  refine ⟨by decide, ?_, ?_⟩
  · rw [hafter]
    simp [busyNs, held, Spans.clip, Spans.joined]
  have hinstants : (Occupied.of [.noteBusy 0 10000000, .noteBusy 50000000 115000000]).instants
      60000000 ∩ inWindow ⟨100000000⟩ 60000000 =
        Finset.Ico 0 10000000 ∪ Finset.Ico 50000000 60000000 := by
    ext t
    simp only [Occupied.instants, Occupied.of, Occupied.record, inWindow, Finset.mem_inter,
      Finset.mem_union, Finset.mem_Ico, Spans.mem_covered, List.foldl_cons, List.foldl_nil]
    simp
    omega
  rw [hinstants, Finset.card_union_of_disjoint, Nat.card_Ico, Nat.card_Ico]
  rw [Finset.disjoint_left]
  intro t ht ht'
  rw [Finset.mem_Ico] at ht ht'
  omega

end CbrMeter

end V2xw.Radio
