import Mathlib.Algebra.Order.Monoid.Prod
import V2xw.Net.FragDelivery

/-!
# What a reassembly buffer may deliver

Whatever a channel and a scheduler do with the fragments of a key, no more bytes are delivered for
the key than its fragments brought, and no fragment is delivered twice: the segments of the
completions are fragments that have arrived and have not been counted before.

## Main definitions

* `ReassemblyBuffer.delivered`, `ReassemblyBuffer.held`, `received` — bytes and segments that were
  delivered, are held, and have arrived.

## Main results

* `ReassemblyBuffer.delivered_le_received` — every run.
-/

namespace V2xw.Net

open V2xw.Core

/-- The bytes and the segments an answer delivers. -/
def Reply.delivered : Reply → ℕ × ℕ
  | .outcome (.complete _ bytes segments) => (bytes, segments)
  | _ => 0

/-- The bytes and the number of some fragments. -/
def received (fs : List FragmentDesc) : ℕ × ℕ := (fs.map fun f => (f.payloadBytes, 1)).sum

namespace ReassemblyBuffer

/-- The bytes and the segments delivered for a key along a run. -/
def delivered (key : Key) : ReassemblyBuffer → List Call → ℕ × ℕ
  | _, [] => 0
  | b, c :: cs =>
    (if (c.fragOf key).isSome then (b.step c).1.delivered else 0) + delivered key (b.step c).2 cs

/-- The bytes and the segments of the open set of a key. -/
def held (key : Key) (b : ReassemblyBuffer) : ℕ × ℕ :=
  (b.entries[key]?).elim 0 fun e => (e.bytes, e.got)

variable {b b' : ReassemblyBuffer} {key : Key}

lemma held_purge_le (now : SimTime) : (b.purge now).held key ≤ b.held key := by
  unfold held
  rw [entries_purge]
  cases b.entries[key]? with
  | none => exact le_rfl
  | some e =>
    rw [Option.filter_some]
    split_ifs
    · exact le_rfl
    · exact zero_le

/-- A fragment that is accepted is held, delivered with those held before it, or lost. -/
lemma AcceptStep.delivered_add_held_le {now : SimTime} {frag : FragmentDesc}
    {o : ReassemblyOutcome} (h : AcceptStep b now key frag o b') :
    (Reply.outcome o).delivered + b'.held key ≤ b.held key + (frag.payloadBytes, 1) := by
  have hlost : b.held key ≤ b.held key + (frag.payloadBytes, 1) := le_self_add
  cases h with
  | whole => exact (add_comm _ _).le
  | mismatch e hs he =>
    have hgone : held key { b with entries := b.entries.erase key } = 0 := by
      rw [held, OrdMap.get_erase, if_pos rfl]
      rfl
    rw [hgone]
    exact zero_le
  | progress e seen hs he =>
    rw [held, OrdMap.get_insert, if_pos rfl, held, he]
    exact (zero_add _).trans_le (Prod.mk_le_mk.2 ⟨Nat.min_le_left _ _, le_rfl⟩)
  | finish e hs he hwant hnew hlast =>
    have hgone : held key ({ b with entries := b.entries.erase key }.remember key e.want now) =
        0 := by
      rw [held, (remember_frame _ _ _ _).1, OrdMap.get_erase, if_pos rfl]
      rfl
    rw [hgone, held, he]
    exact (add_zero _).trans_le (Prod.mk_le_mk.2 ⟨Nat.min_le_left _ _, hlast.ge⟩)
  | opens seen hs he =>
    rw [held, OrdMap.get_insert, if_pos rfl, held, he]
    exact le_rfl
  | _ => exact (zero_add _).trans_le hlost

/-- **No more is delivered than has arrived.** In every run, with calls in any order of time, what
is delivered for a key and held for it comes from what was held before and the fragments of the key
that have arrived. -/
theorem delivered_le_received (key : Key) (cs : List Call) : ∀ b : ReassemblyBuffer,
    b.delivered key cs + (b.exec cs).held key ≤ b.held key + received (frags key cs) := by
  induction cs with
  | nil => exact fun b => (zero_add _).trans_le le_self_add
  | cons c cs ih =>
    intro b
    have hpurge : (b.purge c.time).held key ≤ b.held key := held_purge_le c.time
    have hstep : (if (c.fragOf key).isSome then (b.step c).1.delivered else 0) +
        (b.step c).2.held key ≤ b.held key + received (c.fragOf key).toList := by
      cases hfrag : c.fragOf key with
      | none =>
        refine (zero_add _).trans_le (le_add_right ?_)
        rw [held, step_entries_of_fragOf_none b hfrag]
        exact hpurge
      | some f =>
        rcases step_cases b c with ⟨now, sender, frag, o, rfl, hreply, h⟩ | ⟨now, rfl, -⟩
        · rw [Call.fragOf] at hfrag
          split_ifs at hfrag with hkey
          obtain rfl := Option.some.inj hfrag
          subst hkey
          rw [hreply]
          exact h.delivered_add_held_le.trans (add_le_add_left hpurge _)
        · cases hfrag
    calc _ = (if (c.fragOf key).isSome then (b.step c).1.delivered else 0) +
          ((b.step c).2.delivered key cs + ((b.step c).2.exec cs).held key) := add_assoc _ _ _
      _ ≤ (if (c.fragOf key).isSome then (b.step c).1.delivered else 0) +
          ((b.step c).2.held key + received (frags key cs)) := add_le_add_right (ih _) _
      _ ≤ b.held key + received (c.fragOf key).toList + received (frags key cs) := by
        rw [← add_assoc]
        exact add_le_add_left hstep _
      _ = b.held key + received (frags key (c :: cs)) := by
        rw [add_assoc, received, received, received, ← List.sum_append, ← List.map_append, frags,
          frags, List.filterMap_cons]
        cases c.fragOf key <;> rfl

end ReassemblyBuffer

end V2xw.Net
