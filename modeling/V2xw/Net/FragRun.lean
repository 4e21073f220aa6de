import Mathlib.Algebra.BigOperators.Group.Finset.Basic
import Mathlib.Data.Set.Card
import V2xw.Net.FragInv

/-!
# Runs of the reassembly buffer

Sequences of `accept` and `expire` calls on one buffer, and what a run has received: the fragments
of a key in order of arrival, their distinct indices, one payload per index, and which keys
completed when.

## Main definitions

* `Call`, `ReassemblyBuffer.exec` — calls and runs.
* `frags`, `indices`, `payloadSum` — what arrived for a key.
* `ReassemblyBuffer.CompletedAt` — a key completed at an instant of a run.

## Main results

* `ReassemblyBuffer.inv_exec` — the invariant holds along every run.
* `ReassemblyBuffer.completedAt_of_get` — every remembered completion happened.
-/

namespace V2xw.Net

open V2xw.Core

/-- A call on the buffer. -/
inductive Call
  | accept (now : SimTime) (sender : NodeId) (frag : FragmentDesc)
  | expire (now : SimTime)
  deriving DecidableEq

/-- When a call is made. -/
def Call.time : Call → SimTime
  | accept now _ _ => now
  | expire now => now

/-- What a call returns. -/
inductive Reply
  | outcome (o : ReassemblyOutcome)
  | expired (os : List ReassemblyOutcome)
  deriving DecidableEq

/-! ## What has arrived -/

/-- The fragment a call delivers for a key. -/
def Call.fragOf (key : Key) : Call → Option FragmentDesc
  | accept _ sender frag => if toLex (sender, frag.sdu) = key then some frag else none
  | expire _ => none

/-- The fragments of a key that a run received, in order of arrival. -/
def frags (key : Key) (cs : List Call) : List FragmentDesc := cs.filterMap (Call.fragOf key)

/-- The distinct indices among some fragments. -/
def indices (l : List FragmentDesc) : Finset ℕ := (l.map FragmentDesc.index).toFinset

/-- The payload of the first arrival of each index, added up. -/
def payloadSum (l : List FragmentDesc) : ℕ :=
  ∑ i ∈ indices l, ((l.find? (fun f => f.index = i)).elim 0 FragmentDesc.payloadBytes)

lemma frags_append (key : Key) (cs ds : List Call) :
    frags key (cs ++ ds) = frags key cs ++ frags key ds := List.filterMap_append

lemma frags_singleton (key : Key) (c : Call) : frags key [c] = (c.fragOf key).toList := by
  cases h : c.fragOf key with
  | none => simp [frags, h]
  | some f => simp [frags, h]

lemma indices_append (l m : List FragmentDesc) : indices (l ++ m) = indices l ∪ indices m := by
  simp [indices]

@[simp]
lemma indices_singleton (f : FragmentDesc) : indices [f] = {f.index} := by simp [indices]

lemma indices_snoc (l : List FragmentDesc) (f : FragmentDesc) :
    indices (l ++ [f]) = insert f.index (indices l) := by
  rw [indices_append, indices_singleton, Finset.union_comm, ← Finset.insert_eq]

/-- A fragment's payload counts when its index is new. -/
lemma payloadSum_snoc (l : List FragmentDesc) (f : FragmentDesc) :
    payloadSum (l ++ [f]) =
      payloadSum l + if f.index ∈ indices l then 0 else f.payloadBytes := by
  have hold : ∀ i ∈ indices l,
      ((l ++ [f]).find? (fun g => g.index = i)).elim 0 FragmentDesc.payloadBytes =
        (l.find? (fun g => g.index = i)).elim 0 FragmentDesc.payloadBytes := by
    intro i hi
    obtain ⟨g, hg, hgi⟩ := List.mem_map.1 (List.mem_toFinset.1 hi)
    have hsome : (l.find? (fun g => g.index = i)).isSome := by
      rw [List.find?_isSome]
      exact ⟨g, hg, by simpa using hgi⟩
    obtain ⟨x, hx⟩ := Option.isSome_iff_exists.1 hsome
    rw [List.find?_append, hx, Option.some_or]
  split_ifs with hmem
  · rw [payloadSum, indices_snoc, Finset.insert_eq_self.2 hmem, Finset.sum_congr rfl hold,
      Nat.add_zero, payloadSum]
  · have hnone : l.find? (fun g => g.index = f.index) = none := by
      rw [List.find?_eq_none]
      intro g hg
      simp only [decide_eq_true_eq]
      intro hgi
      exact hmem (List.mem_toFinset.2 (List.mem_map.2 ⟨g, hg, hgi⟩))
    rw [payloadSum, indices_snoc, Finset.sum_insert hmem, Finset.sum_congr rfl hold, payloadSum,
      List.find?_append, hnone, Nat.add_comm]
    simp

lemma payloadSum_le_append (l m : List FragmentDesc) : payloadSum l ≤ payloadSum (l ++ m) := by
  induction m using List.reverseRecOn with
  | nil => simp
  | append_singleton m f ih =>
    rw [← List.append_assoc, payloadSum_snoc]
    exact ih.trans (Nat.le_add_right _ _)

namespace ReassemblyBuffer

/-! ## Runs -/

/-- One call: what it returns and the buffer it leaves. -/
def step (b : ReassemblyBuffer) : Call → Reply × ReassemblyBuffer
  | .accept now sender frag => Prod.map .outcome id (b.accept now sender frag)
  | .expire now => Prod.map .expired id (b.expire now)

/-- The buffer after some calls. -/
def exec (b : ReassemblyBuffer) (cs : List Call) : ReassemblyBuffer :=
  cs.foldl (fun b c => (b.step c).2) b

/-- What a call returns after some others. -/
def answer (b : ReassemblyBuffer) (cs : List Call) (c : Call) : Reply := ((b.exec cs).step c).1

@[simp]
lemma exec_nil (b : ReassemblyBuffer) : b.exec [] = b := rfl

lemma exec_append (b : ReassemblyBuffer) (cs ds : List Call) :
    b.exec (cs ++ ds) = (b.exec cs).exec ds := List.foldl_append

lemma exec_snoc (b : ReassemblyBuffer) (cs : List Call) (c : Call) :
    b.exec (cs ++ [c]) = ((b.exec cs).step c).2 := by
  rw [exec_append]
  rfl

lemma step_cases (b : ReassemblyBuffer) (c : Call) :
    (∃ now sender frag o, c = .accept now sender frag ∧ (b.step c).1 = .outcome o ∧
      AcceptStep (b.purge c.time) now (toLex (sender, frag.sdu)) frag o (b.step c).2) ∨
    (∃ now, c = .expire now ∧ (b.step c).2 = { b.purge c.time with expired := [] }) := by
  cases c with
  | accept now sender frag =>
    exact Or.inl ⟨now, sender, frag, _, rfl, rfl, b.accept_step now sender frag⟩
  | expire now => exact Or.inr ⟨now, rfl, rfl⟩

lemma inv_exec (maxOpen : ℕ) (timeout : Duration) (cs : List Call) :
    ((new maxOpen timeout).exec cs).Inv := by
  induction cs using List.reverseRecOn with
  | nil => exact inv_new maxOpen timeout
  | append_singleton cs c ih =>
    rw [exec_snoc]
    rcases step_cases ((new maxOpen timeout).exec cs) c with
      ⟨now, sender, frag, o, -, -, hstep⟩ | ⟨now, -, heq⟩
    · exact (ih.purge c.time).acceptStep hstep
    · rw [heq]
      have h := ih.purge c.time
      exact ⟨h.opened_le, h.remembered_le, h.entry⟩

/-- The capacity and the timeout are those the buffer was built with. -/
lemma exec_frame (maxOpen : ℕ) (timeout : Duration) (cs : List Call) :
    ((new maxOpen timeout).exec cs).maxOpen = maxOpen ∧
      ((new maxOpen timeout).exec cs).timeout = timeout := by
  induction cs using List.reverseRecOn with
  | nil => exact ⟨rfl, rfl⟩
  | append_singleton cs c ih =>
    rw [exec_snoc]
    rcases step_cases ((new maxOpen timeout).exec cs) c with
      ⟨now, sender, frag, o, -, -, hstep⟩ | ⟨now, -, heq⟩
    · obtain ⟨hmax, htime, -⟩ := hstep.frame
      exact ⟨hmax.trans ih.1, htime.trans ih.2⟩
    · rw [heq]
      exact ih

/-! ## Completions -/

/-- A split SDU completed at an instant of the run. -/
def CompletedAt (b : ReassemblyBuffer) (cs : List Call) (key : Key) (t : SimTime) : Prop :=
  ∃ pre frag post bytes segments, cs = pre ++ .accept t (ofLex key).1 frag :: post ∧
    frag.sdu = (ofLex key).2 ∧ frag.count ≠ 1 ∧
    b.answer pre (.accept t (ofLex key).1 frag) = .outcome (.complete frag.sdu bytes segments)

/-- The keys other than `key` that completed at or after an instant. -/
def othersCompleted (b : ReassemblyBuffer) (cs : List Call) (key : Key) (t : SimTime) : Set Key :=
  {k | k ≠ key ∧ ∃ s, t ≤ s ∧ b.CompletedAt cs k s}

lemma CompletedAt.append {b : ReassemblyBuffer} {cs : List Call} {key : Key} {t : SimTime}
    (h : b.CompletedAt cs key t) (ds : List Call) : b.CompletedAt (cs ++ ds) key t := by
  obtain ⟨pre, frag, post, bytes, segments, rfl, hrest⟩ := h
  exact ⟨pre, frag, post ++ ds, bytes, segments, by simp, hrest⟩

lemma othersCompleted_append (b : ReassemblyBuffer) (cs ds : List Call) (key : Key)
    (t : SimTime) : b.othersCompleted cs key t ⊆ b.othersCompleted (cs ++ ds) key t := by
  rintro k ⟨hk, s, hs, hc⟩
  exact ⟨hk, s, hs, hc.append ds⟩

/-- A step of `accept` remembers its own key only on a completion, and other keys not at all. -/
lemma AcceptStep.completed_eq_some {b b' : ReassemblyBuffer} {now : SimTime} {key k : Key}
    {frag : FragmentDesc} {o : ReassemblyOutcome} {c : Completed}
    (hstep : AcceptStep b now key frag o b') (hc : b'.completed[k]? = some c) :
    b.completed[k]? = some c ∨
      (key = k ∧ IsSplit frag ∧ (∃ bytes segments, o = .complete frag.sdu bytes segments) ∧
        c.deadline = b.timeout.after now) := by
  by_cases hk : key = k
  · cases hstep with
    | finish e hs he =>
      rw [completed_remember, if_pos hk] at hc
      obtain rfl := Option.some.inj hc
      exact Or.inr ⟨hk, hs, ⟨_, _, rfl⟩, rfl⟩
    | contradicts =>
      rw [OrdMap.get_erase, if_pos hk] at hc
      exact absurd hc (by simp)
    | _ => exact Or.inl hc
  · cases hstep with
    | finish e hs he =>
      rw [completed_remember, if_neg hk] at hc
      rcases evictOldest_cases { b with entries := b.entries.erase key } key with
        ⟨h, -⟩ | ⟨old, d, -, -, -, -, h⟩
      · rw [h] at hc
        exact Or.inl hc
      · rw [h, OrdMap.get_erase] at hc
        split_ifs at hc
        exact Or.inl hc
    | contradicts =>
      rw [OrdMap.get_erase, if_neg hk] at hc
      exact Or.inl hc
    | _ => exact Or.inl hc

/-- Every remembered completion happened, one timeout before its deadline.

**Proof sketch.** Induction on the run from its end: a purge only forgets, and a step adds nothing
but the key it completes. -/
lemma completedAt_of_get (maxOpen : ℕ) (timeout : Duration) (cs : List Call) :
    ∀ (k : Key) (c : Completed), ((new maxOpen timeout).exec cs).completed[k]? = some c →
      ∃ s, (new maxOpen timeout).CompletedAt cs k s ∧ c.deadline = timeout.after s := by
  induction cs using List.reverseRecOn with
  | nil =>
    intro k c hc
    simp [new] at hc
  | append_singleton cs c ih =>
    intro k d hd
    rw [exec_snoc] at hd
    have hold : (((new maxOpen timeout).exec cs).purge c.time).completed[k]? = some d →
        ∃ s, (new maxOpen timeout).CompletedAt (cs ++ [c]) k s ∧ d.deadline = timeout.after s := by
      intro hd
      rw [completed_purge] at hd
      obtain ⟨s, hs, hdl⟩ := ih k d (Option.filter_eq_some_iff.1 hd).1
      exact ⟨s, hs.append [c], hdl⟩
    rcases step_cases ((new maxOpen timeout).exec cs) c with
      ⟨now, sender, frag, o, rfl, ho, hstep⟩ | ⟨now, rfl, heq⟩
    · rcases hstep.completed_eq_some hd with hd | ⟨rfl, hs, ⟨bytes, segments, rfl⟩, hdl⟩
      · exact hold hd
      · refine ⟨now, ⟨cs, frag, [], bytes, segments, rfl, rfl, ?_, ho⟩, ?_⟩
        · have := hs.two_le
          omega
        · rw [hdl]
          exact congrArg (fun T => Duration.after T now) (exec_frame maxOpen timeout cs).2
    · rw [heq] at hd
      exact hold hd

end ReassemblyBuffer

end V2xw.Net
