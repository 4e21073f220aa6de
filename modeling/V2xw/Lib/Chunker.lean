import Mathlib.Algebra.BigOperators.Group.List.Basic
import Mathlib.Algebra.Order.Ring.Nat
import Mathlib.Data.List.Basic

/-!
# Cutting a log into chunks

Items of different sizes are put into a log that is cut into chunks. Some items are keys: what
follows a key is read together with it, so a chunk is best cut before a key. A chunk is cut before
an item that finds the target reached, but a run of items behind a key is left whole as long as it
is smaller than the target itself. A chunk may also be closed from outside, at any time.

## Main definitions

* `Chunker` — the chunks and the counters by which they are cut.
* `Chunker.put`, `Chunker.close` — what happens to it.
* `Chunker.Counted`, `Chunker.Bounded` — the invariants of the counters and the sizes.
* `Chunker.Kept` — no run is cut apart.

## Main results

* `Chunker.Bounded.put` — a chunk has less than twice the target and an item.
* `Chunker.Kept.put` — runs smaller than the target are not cut apart.
-/

/-- The chunks of a log: the closed ones, the open one, the sizes since the last cut and since the
last key, the keys in the open chunk, the number of closed chunks and the size of the largest. -/
structure Chunker (α : Type*) where
  closed : List (List α) := []
  opened : List α := []
  sinceCut : ℕ := 0
  sinceKey : ℕ := 0
  keys : ℕ := 0
  count : ℕ := 0
  largest : ℕ := 0

namespace Chunker

variable {α : Type*} (size : α → ℕ) (key : α → Bool) (target : ℕ)

/-- The size of some items. -/
def total (as : List α) : ℕ := (as.map size).sum

/-- Ends the open chunk. -/
def cut (c : Chunker α) : Chunker α :=
  { c with
    closed := if c.opened.isEmpty then c.closed else c.closed ++ [c.opened]
    opened := []
    sinceCut := 0
    keys := 0 }

/-- Ends the open chunk and counts it. -/
def endChunk (c : Chunker α) : Chunker α := { c.cut with count := c.count + 1 }

/-- The open chunk is ended from outside. -/
def close (c : Chunker α) : Chunker α :=
  { c.cut with count := if 0 < c.sinceCut then c.count + 1 else c.count }

/-- The rule by which a chunk is ended before an item. -/
def Ends (c : Chunker α) (isKey : Bool) : Prop :=
  (isKey ∧ 0 < c.sinceCut ∧ target ≤ c.sinceKey) ∨
    (target ≤ c.sinceCut ∧ (isKey ∨ ¬ (0 < c.keys ∧ c.sinceKey < target)))

instance (c : Chunker α) (isKey : Bool) : Decidable (c.Ends target isKey) :=
  inferInstanceAs (Decidable (_ ∨ _))

/-- A key starts a run. -/
def startRun (c : Chunker α) (isKey : Bool) : Chunker α :=
  if isKey then { c with keys := c.keys + 1, sinceKey := 0 } else c

/-- Appends an item to the open chunk. -/
def append (c : Chunker α) (a : α) : Chunker α :=
  { c with
    opened := c.opened ++ [a]
    sinceCut := c.sinceCut + size a
    sinceKey := c.sinceKey + size a
    largest := max c.largest (c.sinceCut + size a) }

/-- Puts an item into the log. -/
def put (c : Chunker α) (a : α) : Chunker α :=
  let c := if c.Ends target (key a) then c.endChunk else c
  (c.startRun (key a)).append size a

/-- The items in the order they were put. -/
def stored (c : Chunker α) : List α := c.closed.flatten ++ c.opened

variable {size key target} {c : Chunker α} {a : α}

lemma total_append (as bs : List α) : total size (as ++ bs) = total size as + total size bs := by
  rw [total, List.map_append, List.sum_append]
  rfl

lemma total_singleton (a : α) : total size [a] = size a := by
  rw [total, List.map_singleton, List.sum_singleton]

lemma stored_cut : c.cut.stored = c.stored := by
  unfold stored cut
  by_cases h : c.opened = []
  · simp only [h, List.isEmpty_nil, if_true, List.append_nil]
  · simp only [List.isEmpty_eq_false_iff.2 h, Bool.false_eq_true, if_false, List.flatten_append,
      List.flatten_singleton, List.append_nil]

@[simp] lemma stored_endChunk : c.endChunk.stored = c.stored := stored_cut

@[simp] lemma stored_close : c.close.stored = c.stored := stored_cut

/-! ## Putting an item -/

lemma put_cases (htarget : 1 ≤ target) :
    (c.Ends target (key a) ∧ 0 < c.sinceCut ∧
        c.put size key target a = (c.endChunk.startRun (key a)).append size a) ∨
      (¬ c.Ends target (key a) ∧
        c.put size key target a = (c.startRun (key a)).append size a) := by
  by_cases h : c.Ends target (key a)
  · refine .inl ⟨h, ?_, by rw [put, if_pos h]⟩
    obtain ⟨_, hpos, _⟩ | ⟨hle, _⟩ := h
    · exact hpos
    · exact Nat.lt_of_lt_of_le htarget hle
  · exact .inr ⟨h, by rw [put, if_neg h]⟩

@[simp] lemma startRun_opened (isKey : Bool) : (c.startRun isKey).opened = c.opened := by
  cases isKey <;> rfl

@[simp] lemma startRun_closed (isKey : Bool) : (c.startRun isKey).closed = c.closed := by
  cases isKey <;> rfl

@[simp] lemma startRun_sinceCut (isKey : Bool) : (c.startRun isKey).sinceCut = c.sinceCut := by
  cases isKey <;> rfl

@[simp] lemma startRun_count (isKey : Bool) : (c.startRun isKey).count = c.count := by
  cases isKey <;> rfl

lemma stored_put : (c.put size key target a).stored = c.stored ++ [a] := by
  have happend : ∀ d : Chunker α,
      ((d.startRun (key a)).append size a).stored = d.stored ++ [a] := by
    intro d
    simp only [append, stored, startRun_closed, startRun_opened, List.append_assoc]
  rw [put]
  split_ifs
  · rw [happend, stored_endChunk]
  · exact happend c

/-! ## Counters -/

/-- The counters say what they are meant to: the size of the open chunk, the number of closed
chunks, none of which is empty. -/
structure Counted (size : α → ℕ) (c : Chunker α) : Prop where
  sinceCut_eq : c.sinceCut = total size c.opened
  count_eq : c.count = c.closed.length
  ne_nil : ∀ chunk ∈ c.closed, chunk ≠ []

lemma Counted.opened_ne_nil (h : c.Counted size) (hpos : 0 < c.sinceCut) : c.opened ≠ [] := by
  intro hnil
  rw [h.sinceCut_eq, hnil] at hpos
  exact Nat.lt_irrefl 0 hpos

lemma Counted.cut_eq (h : c.Counted size) (hpos : 0 < c.sinceCut) :
    c.cut.closed = c.closed ++ [c.opened] :=
  if_neg (by simpa using h.opened_ne_nil hpos)

lemma Counted.endChunk (h : c.Counted size) (hpos : 0 < c.sinceCut) :
    c.endChunk.Counted size where
  sinceCut_eq := rfl
  count_eq := by
    show c.count + 1 = c.cut.closed.length
    rw [h.cut_eq hpos, List.length_append, h.count_eq]
    rfl
  ne_nil := by
    intro chunk hchunk
    have hmem : chunk ∈ c.closed ++ [c.opened] := h.cut_eq hpos ▸ hchunk
    obtain hmem | hmem := List.mem_append.1 hmem
    · exact h.ne_nil chunk hmem
    · rw [List.mem_singleton.1 hmem]
      exact h.opened_ne_nil hpos

/-- An open chunk of items with a size is closed. -/
lemma Counted.close (h : c.Counted size) (hsize : ∀ a ∈ c.opened, 0 < size a) :
    c.close.Counted size := by
  by_cases hpos : 0 < c.sinceCut
  · have hclose : c.close = c.endChunk := by
      rw [Chunker.close, if_pos hpos]
      rfl
    exact hclose ▸ h.endChunk hpos
  · have hnil : c.opened = [] := by
      rcases hopened : c.opened with _ | ⟨a, as⟩
      · rfl
      · have ha := hsize a (hopened ▸ List.mem_cons_self)
        rw [h.sinceCut_eq, hopened, ← List.singleton_append, total_append, total_singleton] at hpos
        omega
    have hclosed : c.close.closed = c.closed := if_pos (by rw [hnil]; rfl)
    refine ⟨rfl, ?_, hclosed ▸ h.ne_nil⟩
    rw [hclosed, ← h.count_eq]
    exact if_neg hpos

lemma Counted.append (h : c.Counted size) (isKey : Bool) :
    ((c.startRun isKey).append size a).Counted size where
  sinceCut_eq := by
    show (c.startRun isKey).sinceCut + size a = total size ((c.startRun isKey).opened ++ [a])
    rw [startRun_sinceCut, startRun_opened, total_append, total_singleton, h.sinceCut_eq]
  count_eq := by
    show (c.startRun isKey).count = (c.startRun isKey).closed.length
    rw [startRun_count, startRun_closed, h.count_eq]
  ne_nil := by
    intro chunk hchunk
    exact h.ne_nil chunk (startRun_closed isKey ▸ hchunk)

lemma Counted.put (htarget : 1 ≤ target) (h : c.Counted size) :
    (c.put size key target a).Counted size := by
  obtain ⟨_, hpos, heq⟩ | ⟨_, heq⟩ := @put_cases _ size key _ c a htarget
  · exact heq ▸ (h.endChunk hpos).append (key a)
  · exact heq ▸ h.append (key a)

/-! ## Sizes -/

/-- A chunk has less than twice the target and one of its items, and `largest` is the size of the
largest. What precedes the last key of the open chunk is smaller than the target. -/
structure Bounded (size : α → ℕ) (target : ℕ) (c : Chunker α) : Prop where
  before_lt : 0 < c.keys → ∃ before, before < target ∧ c.sinceCut = before + c.sinceKey
  lt_of_mem : ∀ chunk ∈ c.closed ++ [c.opened], chunk ≠ [] →
    ∃ a ∈ chunk, total size chunk < 2 * target + size a
  le_largest : ∀ chunk ∈ c.closed ++ [c.opened], total size chunk ≤ c.largest
  largest_lt : ∀ most, (∀ a ∈ c.stored, size a ≤ most) → c.largest < 2 * target + most

lemma mem_cut {chunk : List α} (h : chunk ∈ c.cut.closed ++ [c.cut.opened]) :
    chunk ∈ c.closed ++ [c.opened] ∨ chunk = [] := by
  obtain h | h := List.mem_append.1 h
  · refine .inl ?_
    have hclosed : chunk ∈ (if c.opened.isEmpty then c.closed else c.closed ++ [c.opened]) := h
    split_ifs at hclosed
    · exact List.mem_append_left _ hclosed
    · exact hclosed
  · exact .inr (List.mem_singleton.1 h)

lemma Bounded.cut (h : c.Bounded size target) (n : ℕ) :
    ({ c.cut with count := n } : Chunker α).Bounded size target where
  before_lt hkeys := absurd hkeys (Nat.lt_irrefl 0)
  lt_of_mem chunk hchunk hne := by
    obtain hmem | hnil := mem_cut hchunk
    · exact h.lt_of_mem chunk hmem hne
    · exact absurd hnil hne
  le_largest chunk hchunk := by
    obtain hmem | rfl := mem_cut hchunk
    · exact h.le_largest chunk hmem
    · exact Nat.zero_le _
  largest_lt most hmost := h.largest_lt most fun a ha => hmost a (stored_cut (c := c) ▸ ha)

/-- An item is appended to a chunk below twice the target, a key to one below the target. -/
lemma Bounded.append (hcount : c.Counted size) (h : c.Bounded size target) {isKey : Bool}
    (hkey : isKey → c.sinceCut < target) (hlt : c.sinceCut < 2 * target) :
    ((c.startRun isKey).append size a).Bounded size target := by
  have hsize : total size (c.opened ++ [a]) = c.sinceCut + size a := by
    rw [total_append, total_singleton, hcount.sinceCut_eq]
  have hmem : ∀ chunk ∈ c.closed ++ [c.opened ++ [a]],
      chunk ∈ c.closed ++ [c.opened] ∨ chunk = c.opened ++ [a] := by
    intro chunk hchunk
    obtain hchunk | hchunk := List.mem_append.1 hchunk
    · exact .inl (List.mem_append_left _ hchunk)
    · exact .inr (List.mem_singleton.1 hchunk)
  have happend : (c.startRun isKey).append size a =
      { (c.startRun isKey) with
        opened := c.opened ++ [a]
        sinceCut := c.sinceCut + size a
        sinceKey := (c.startRun isKey).sinceKey + size a
        largest := max c.largest (c.sinceCut + size a) } := by
    cases isKey <;> rfl
  rw [happend]
  refine ⟨?_, ?_, ?_, ?_⟩
  · intro hkeys
    cases isKey with
    | true => exact ⟨c.sinceCut, hkey rfl, (congrArg _ (Nat.zero_add _)).symm⟩
    | false =>
      obtain ⟨before, hbefore, heq⟩ := h.before_lt hkeys
      refine ⟨before, hbefore, ?_⟩
      show c.sinceCut + size a = before + (c.sinceKey + size a)
      omega
  · intro chunk hchunk hne
    rw [startRun_closed] at hchunk
    obtain hold | rfl := hmem chunk hchunk
    · exact h.lt_of_mem chunk hold hne
    · exact ⟨a, List.mem_append_right _ List.mem_cons_self, by omega⟩
  · intro chunk hchunk
    rw [startRun_closed] at hchunk
    obtain hold | rfl := hmem chunk hchunk
    · exact Nat.le_trans (h.le_largest chunk hold) (Nat.le_max_left _ _)
    · exact hsize ▸ Nat.le_max_right _ _
  · intro most hmost
    have hstored : ∀ b ∈ c.stored ++ [a], size b ≤ most := by
      intro b hb
      refine hmost b ?_
      rw [stored, startRun_closed, ← List.append_assoc]
      exact hb
    have hold := h.largest_lt most fun b hb => hstored b (List.mem_append_left _ hb)
    have ha := hstored a (List.mem_append_right _ List.mem_cons_self)
    refine Nat.max_lt.2 ⟨hold, ?_⟩
    omega

/-- **A chunk has less than twice the target and an item**: putting an item keeps the sizes
bounded. -/
lemma Bounded.put (htarget : 1 ≤ target) (hcount : c.Counted size)
    (h : c.Bounded size target) : (c.put size key target a).Bounded size target := by
  obtain ⟨_, hpos, heq⟩ | ⟨hends, heq⟩ :=
    @put_cases _ size key _ c a htarget
  · rw [heq]
    have hzero : c.endChunk.sinceCut = 0 := rfl
    exact Bounded.append (hcount.endChunk hpos) (h.cut _) (fun _ => by omega) (by omega)
  · rw [heq]
    obtain ⟨hfirst, hsecond⟩ := not_or.1 hends
    refine Bounded.append hcount h ?_ ?_
    · intro hkey
      by_contra hle
      exact hsecond ⟨Nat.not_lt.1 hle, .inl hkey⟩
    · -- a run that is not ended at the target has less than the target itself
      by_contra hle
      have hopen : 0 < c.keys ∧ c.sinceKey < target := by
        by_contra hnot
        exact hsecond ⟨by omega, .inr hnot⟩
      obtain ⟨before, hbefore, hsum⟩ := h.before_lt hopen.1
      omega

lemma bounded_empty (htarget : 1 ≤ target) : ({} : Chunker α).Bounded size target where
  before_lt h := absurd h (Nat.lt_irrefl 0)
  lt_of_mem chunk hchunk hne := absurd (List.mem_singleton.1 hchunk) hne
  le_largest chunk hchunk := by
    rw [List.mem_singleton.1 hchunk]
    exact Nat.le_refl 0
  largest_lt most _ := by
    show 0 < 2 * target + most
    omega

/-! ## Runs -/

/-- Every run, from a key up to the next one or to the end, is smaller than the target. -/
def SmallRuns (size : α → ℕ) (key : α → Bool) (target : ℕ) (as : List α) : Prop :=
  ∀ pre k run suf, as = pre ++ k :: (run ++ suf) → key k → (∀ a ∈ run, key a = false) →
    total size (k :: run) < target

lemma SmallRuns.left {as bs : List α} (h : SmallRuns size key target (as ++ bs)) :
    SmallRuns size key target as := by
  intro pre k run suf has hk hrun
  refine h pre k run (suf ++ bs) ?_ hk hrun
  rw [has]
  simp only [List.append_assoc, List.cons_append]

/-- Behind the first key, every chunk starts with a key. -/
def HeadKey (key : α → Bool) (chunks : List (List α)) : Prop :=
  ∀ pre chunk suf, chunks = pre ++ chunk :: suf → (∃ a ∈ pre.flatten, key a = true) →
    ∃ k rest, chunk = k :: rest ∧ key k = true

lemma headKey_of_none {chunks : List (List α)} (h : ∀ a ∈ chunks.flatten, key a = false) :
    HeadKey key chunks := by
  rintro pre chunk suf rfl ⟨a, ha, hkey⟩
  have hmem : a ∈ (pre ++ chunk :: suf).flatten := by
    rw [List.flatten_append]
    exact List.mem_append_left _ ha
  rw [h a hmem] at hkey
  cases hkey

lemma HeadKey.left {chunks : List (List α)} {last : List α}
    (h : HeadKey key (chunks ++ [last])) : HeadKey key chunks := by
  rintro pre chunk suf rfl
  refine h pre chunk (suf ++ [last]) ?_
  simp only [List.append_assoc, List.cons_append]

lemma HeadKey.last {chunks : List (List α)} {last : List α}
    (h : HeadKey key (chunks ++ [last])) (hkey : ∃ a ∈ chunks.flatten, key a = true) :
    ∃ k rest, last = k :: rest ∧ key k = true :=
  h chunks last [] rfl hkey

lemma HeadKey.concat {chunks : List (List α)} {last : List α} (h : HeadKey key chunks)
    (hlast : (∃ a ∈ chunks.flatten, key a = true) → ∃ k rest, last = k :: rest ∧ key k = true) :
    HeadKey key (chunks ++ [last]) := by
  intro pre chunk suf heq hkey
  rcases List.eq_nil_or_concat suf with rfl | ⟨suf', x, rfl⟩
  · obtain ⟨rfl, hx⟩ := List.append_inj' heq rfl
    obtain rfl := List.singleton_inj.1 hx
    exact hlast hkey
  · have heq' : chunks ++ [last] = (pre ++ chunk :: suf') ++ [x] := by
      rw [heq, List.concat_eq_append]
      simp only [List.append_assoc, List.cons_append]
    exact h pre chunk suf' (List.append_inj' heq' rfl).1 hkey

/-- No run is cut apart, and the open chunk has the key of the last run. -/
structure Kept (size : α → ℕ) (key : α → Bool) (c : Chunker α) : Prop where
  headKey : HeadKey key (c.closed ++ [c.opened])
  run_open : (∃ a ∈ c.stored, key a = true) → 0 < c.keys ∧
    ∃ pre k run, c.stored = pre ++ k :: run ∧ key k = true ∧ (∀ a ∈ run, key a = false) ∧
      c.sinceKey = total size (k :: run)

lemma stored_eq_flatten : c.stored = (c.closed ++ [c.opened]).flatten := by
  rw [List.flatten_append, List.flatten_singleton]
  rfl

lemma kept_of_none (h : ∀ a ∈ c.stored, key a = false) : c.Kept size key where
  headKey := headKey_of_none fun a ha => h a (stored_eq_flatten ▸ ha)
  run_open := by
    rintro ⟨a, ha, hkey⟩
    rw [h a ha] at hkey
    cases hkey

/-- The key of a run opens a chunk or is appended to the open one. -/
lemma Kept.put_key (htarget : 1 ≤ target) (hcount : c.Counted size) (h : c.Kept size key)
    (ha : key a = true) : (c.put size key target a).Kept size key := by
  have hstored := @stored_put _ size key target c a
  have hrun : ∃ pre k run, (c.put size key target a).stored = pre ++ k :: run ∧ key k = true ∧
      (∀ b ∈ run, key b = false) ∧ size a = total size (k :: run) :=
    ⟨c.stored, a, [], hstored, ha, fun b hb => absurd hb List.not_mem_nil,
      (total_singleton a).symm⟩
  obtain ⟨_, hpos, heq⟩ | ⟨_, heq⟩ :=
    @put_cases _ size key _ c a htarget
  all_goals
    rw [ha] at heq
    rw [heq] at hrun ⊢
  · refine ⟨?_, fun _ => ⟨Nat.succ_pos _, by simpa [append, startRun] using hrun⟩⟩
    show HeadKey key (c.cut.closed ++ [[a]])
    rw [hcount.cut_eq hpos]
    exact h.headKey.concat fun _ => ⟨a, [], rfl, ha⟩
  · refine ⟨?_, fun _ => ⟨Nat.succ_pos _, by simpa [append, startRun] using hrun⟩⟩
    refine h.headKey.left.concat fun hkey => ?_
    obtain ⟨k, rest, hopened, hk⟩ := h.headKey.last hkey
    exact ⟨k, rest ++ [a], congrArg (· ++ [a]) hopened, hk⟩

/-- An item behind a key is appended to the chunk of the key. -/
lemma Kept.put_run (h : c.Kept size key) (hseen : ∃ b ∈ c.stored, key b = true)
    (hruns : SmallRuns size key target (c.stored ++ [a])) (ha : key a = false) :
    (c.put size key target a).Kept size key := by
  obtain ⟨hkeys, pre, k, run, hrun, hk, hnone, hsince⟩ := h.run_open hseen
  have hsmall : c.sinceKey < target := by
    rw [hsince]
    refine hruns pre k run [a] ?_ hk hnone
    rw [hrun]
    simp only [List.append_assoc, List.cons_append]
  have hends : ¬ c.Ends target false := by
    rintro (⟨hfalse, _⟩ | ⟨_, hfalse | hnot⟩)
    · cases hfalse
    · cases hfalse
    · exact hnot ⟨hkeys, hsmall⟩
  have heq : c.put size key target a = c.append size a := by
    rw [put, ha, if_neg hends]
    rfl
  rw [heq]
  refine ⟨?_, fun _ => ⟨hkeys, pre, k, run ++ [a], ?_, hk, ?_, ?_⟩⟩
  · refine h.headKey.left.concat fun hkey => ?_
    obtain ⟨k, rest, hopened, hk⟩ := h.headKey.last hkey
    exact ⟨k, rest ++ [a], congrArg (· ++ [a]) hopened, hk⟩
  · rw [← heq, stored_put, hrun]
    simp only [List.append_assoc, List.cons_append]
  · intro b hb
    obtain hb | hb := List.mem_append.1 hb
    · exact hnone b hb
    · rw [List.mem_singleton.1 hb, ha]
  · show c.sinceKey + size a = total size ((k :: run) ++ [a])
    rw [total_append, total_singleton, hsince]

/-- **Runs smaller than the target are not cut apart.** -/
lemma Kept.put (htarget : 1 ≤ target) (hcount : c.Counted size) (h : c.Kept size key)
    (hruns : SmallRuns size key target (c.stored ++ [a])) :
    (c.put size key target a).Kept size key := by
  cases ha : key a with
  | true => exact h.put_key htarget hcount ha
  | false =>
    by_cases hseen : ∃ b ∈ c.stored, key b = true
    · exact h.put_run hseen hruns ha
    · refine kept_of_none fun b hb => ?_
      rw [stored_put] at hb
      obtain hb | hb := List.mem_append.1 hb
      · exact eq_false_of_ne_true fun hkey => hseen ⟨b, hb, hkey⟩
      · rw [List.mem_singleton.1 hb, ha]

end Chunker
