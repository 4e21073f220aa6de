import V2xw.Core.EventRefine

/-!
# The dispatch order of the event scheduler

The clock never goes back, the dispatched keys are strictly increasing as long as no caller asks
for an exception, and the debug-build check of `pop` is one that cannot fail.

## Main definitions

* `poppedKeys` — the keys a run dispatched, in order.
* `Scheduler.Settled` — every pending event follows the last key.

## Main results

* `Scheduler.steps_now_le` — the clock along a run.
* `Scheduler.poppedKeys_pairwise` — the keys of a run without reentrant scheduling.
* `Scheduler.one_le_reentrantDebt` — a key that goes back has been announced.
-/

namespace V2xw.Core

open PendingSet

variable {E : Type}

/-- The key a call dispatched, if it was a `pop` that found one. -/
def Ret.poppedKey : Ret E → Option EventKey
  | .popped (some (k, _)) => some k
  | _ => none

/-- The keys dispatched by a run, in order. -/
def poppedKeys (os : List (Obs E)) : List EventKey := os.filterMap (·.ret.poppedKey)

/-- The call is a `schedule_reentrant`. -/
def Op.isReentrant : Op E → Bool
  | .scheduleReentrant _ _ _ => true
  | _ => false

namespace Scheduler

variable {dbg : Bool} {s s' : Scheduler E}

/-- A successful step keeps the invariant and is a call of the set of pending events. -/
lemma step_eq_ok {op : Op E} {o : Obs E} (h : s.Inv)
    (hstep : (machine E dbg).step s op = .ok (o, s')) :
    s'.Inv ∧ s.toPendingSet.call op = .ok (o.ret, s'.toPendingSet) ∧ o.now = s'.now := by
  obtain ⟨⟨r, t⟩, hcall, hr⟩ := Fallible.map_eq_ok.1 hstep
  obtain ⟨rfl, rfl⟩ := Prod.mk.inj hr
  have hagree := call_agree dbg h op
  rw [hcall] at hagree
  cases hp : s.toPendingSet.call op with
  | error e => rw [hp] at hagree; exact hagree.elim
  | ok q =>
    obtain ⟨r', p'⟩ := q
    rw [hp] at hagree
    obtain ⟨rfl, hinv, rfl⟩ := hagree
    exact ⟨hinv, rfl, rfl⟩

/-! ## The clock -/

lemma step_now_le {op : Op E} {o : Obs E} (h : s.Inv)
    (hstep : (machine E dbg).step s op = .ok (o, s')) : s.now ≤ s'.now := by
  obtain ⟨-, hcall, -⟩ := step_eq_ok h hstep
  rcases call_cases hcall with ⟨t, cls, x, ⟨-, -, hp⟩, -⟩ | ⟨q, -, hp, -⟩ | ⟨e, he, -, hp⟩
  · exact (congrArg PendingSet.now hp).ge
  · exact (congrArg PendingSet.now hp).ge
  · calc s.now ≤ e.key.time := h.order.now_le e he.1
      _ = s'.now := (congrArg PendingSet.now hp).symm

/-- The clock readings after the calls of a run are non-decreasing, and none is before the clock
at its start.

**Proof sketch.** Induction on the run with `step_now_le`. -/
lemma steps_now_le {ops : List (Op E)} {os : List (Obs E)} (h : s.Inv)
    (hrun : (machine E dbg).Steps s ops os s') :
    (os.map (·.now)).Pairwise (· ≤ ·) ∧ ∀ t ∈ os.map (·.now), s.now ≤ t := by
  induction hrun with
  | nil s => simp
  | @cons s t u op o ops os hstep _ ih =>
    have hle := step_now_le h hstep
    obtain ⟨hinv, -, hnow⟩ := step_eq_ok h hstep
    obtain ⟨hpair, hge⟩ := ih hinv
    rw [List.map_cons, List.pairwise_cons, hnow]
    refine ⟨⟨hge, hpair⟩, ?_⟩
    intro t' ht'
    rcases List.mem_cons.1 ht' with rfl | ht'
    · exact hle
    · exact hle.trans (hge t' ht')

/-! ## The keys -/

/-- Every pending event follows the last key. -/
def Settled (s : Scheduler E) : Prop :=
  ∀ k, s.lastKey = some k → ∀ e ∈ s.pending, k < e.key

/-- A step other than `schedule_reentrant` keeps the scheduler settled; a key it dispatches becomes
the last key and follows the previous one. -/
lemma step_settled {op : Op E} {o : Obs E} (h : s.Inv) (hs : s.Settled)
    (hop : op.isReentrant = false) (hstep : (machine E dbg).step s op = .ok (o, s')) :
    s'.Settled ∧
      ((o.ret.poppedKey = none ∧ s'.lastKey = s.lastKey) ∨
        ∃ k, o.ret.poppedKey = some k ∧ s'.lastKey = some k ∧
          ∀ l, s.lastKey = some l → l < k) := by
  obtain ⟨hinv, hcall, -⟩ := step_eq_ok h hstep
  rcases call_cases hcall with ⟨t, cls, x, ⟨-, hr, hp⟩, hlast⟩ | ⟨q, hq, hp, hr⟩ | ⟨e, he, hr, hp⟩
  · -- an added event carries a fresh sequence number, so it follows the last key
    have hlast' : ∀ k, s.lastKey = some k → ¬ EventKey.Precedes t cls.priority k := by
      rcases hlast with rfl | hlast
      · exact absurd hop (by simp [Op.isReentrant])
      · exact hlast
    have hl : s'.lastKey = s.lastKey := congrArg PendingSet.lastKey hp
    have hpend : s'.pending = insert _ s.pending := congrArg PendingSet.pending hp
    refine ⟨fun k hk e he => ?_, Or.inl ⟨by simp [hr, Ret.poppedKey], hl⟩⟩
    rw [hl] at hk
    rw [hpend] at he
    rcases Set.mem_insert_iff.1 he with rfl | he
    · exact OrderInv.lt_of_not_precedes (hlast' k hk) (h.order.last k hk).2.1
    · exact hs k hk e he
  · have hl : s'.lastKey = s.lastKey := congrArg PendingSet.lastKey hp
    have hpend : s'.pending = q := congrArg PendingSet.pending hp
    refine ⟨fun k hk e he => hs k (hl ▸ hk) e (hq (hpend ▸ he)), Or.inl ⟨?_, hl⟩⟩
    cases hret : o.ret with
    | popped r =>
      cases r with
      | none => rfl
      | some x => exact absurd hret (hr x)
    | _ => rfl
  · have hl : s'.lastKey = some e.key := congrArg PendingSet.lastKey hp
    have hpend : s'.pending = s.pending \ {e} := congrArg PendingSet.pending hp
    refine ⟨fun k hk x hx => ?_, Or.inr ⟨e.key, by simp [hr, Ret.poppedKey], hl, ?_⟩⟩
    · obtain rfl : e.key = k := Option.some.inj (hl.symm.trans hk)
      rw [hpend] at hx
      exact lt_of_le_of_ne (he.2 x hx.1) fun hkey =>
        hx.2 (h.heap.injOn_key hx.1 he.1 hkey.symm)
    · exact fun l hlk => hs l hlk e he.1

/-- The keys dispatched by a run without `schedule_reentrant`, from a settled scheduler, are
strictly increasing and all follow the last key before it.

**Proof sketch.** Induction on the run with `step_settled`: a dispatched key is the last key for
the rest of the run. -/
lemma poppedKeys_pairwise {ops : List (Op E)} {os : List (Obs E)} (h : s.Inv) (hs : s.Settled)
    (hrun : (machine E dbg).Steps s ops os s') (hops : ∀ op ∈ ops, op.isReentrant = false) :
    (poppedKeys os).Pairwise (· < ·) ∧ ∀ l, s.lastKey = some l → ∀ k ∈ poppedKeys os, l < k := by
  induction hrun with
  | nil s => simp [poppedKeys]
  | @cons s t u op o ops os hstep _ ih =>
    obtain ⟨hset, hkey⟩ := step_settled h hs (hops op List.mem_cons_self) hstep
    obtain ⟨hpair, hgt⟩ := ih (step_eq_ok h hstep).1 hset
      (fun op hop => hops op (List.mem_cons_of_mem _ hop))
    rcases hkey with ⟨hnone, hl⟩ | ⟨k, hsome, hl, hlt⟩
    · have hkeys : poppedKeys (o :: os) = poppedKeys os := List.filterMap_cons_none hnone
      rw [hkeys]
      exact ⟨hpair, fun l hlk => hgt l (hl.trans hlk)⟩
    · have hkeys : poppedKeys (o :: os) = k :: poppedKeys os := List.filterMap_cons_some hsome
      rw [hkeys, List.pairwise_cons]
      refine ⟨⟨hgt k hl, hpair⟩, fun l hlk x hx => ?_⟩
      rcases List.mem_cons.1 hx with rfl | hx
      · exact hlt l hlk
      · exact (hlt l hlk).trans (hgt k hl x hx)

/-! ## The debug-build check -/

lemma pop_eq_ok (dbg : Bool) (h : s.Inv) :
    ∃ s', s.pop dbg = .ok (s.toPendingSet.pop.1, s') := by
  have hagree := popLoop_spec dbg s.heap.length s h le_rfl
  rw [pop]
  cases hp : popLoop dbg s.heap.length s with
  | error e => rw [hp] at hagree; exact hagree.elim
  | ok q =>
    obtain ⟨r, t⟩ := q
    rw [hp] at hagree
    have hr : r = s.toPendingSet.pop.1 := hagree.1
    exact ⟨t, by rw [hr]⟩

/-- A dispatched key that goes back has been announced: the reentrant debt is positive. -/
lemma one_le_reentrantDebt (h : s.Inv) {k l : EventKey} {x : E}
    (hpop : s.pop dbg = .ok (some (k, x), s')) (hl : s.lastKey = some l) (hlt : k < l) :
    1 ≤ s.reentrantDebt := by
  obtain ⟨t, ht⟩ := pop_eq_ok dbg h
  rw [hpop] at ht
  have hret : s.toPendingSet.pop.1 = some (k, x) := (Prod.mk.inj (Except.ok.inj ht)).1.symm
  have hcall : s.toPendingSet.call .pop =
      .ok (.popped s.toPendingSet.pop.1, s.toPendingSet.pop.2) := rfl
  rcases call_cases hcall with
    ⟨_, _, _, ⟨-, hr, -⟩, -⟩ | ⟨_, -, -, hr⟩ | ⟨e, he, hr, -⟩
  · simp at hr
  · exact absurd (congrArg Ret.popped hret) (hr (k, x))
  · have hek : (k, x) = (e.key, e.payload) :=
      Option.some.inj (hret.symm.trans (Ret.popped.inj hr))
    obtain ⟨rfl, -⟩ := Prod.mk.inj hek
    rcases h.order.order l hl e he.1 with hlt' | ⟨-, hdebt⟩
    · exact absurd hlt (lt_asymm hlt')
    · exact hdebt

/-- **The dispatch order.** In every run whose calls pass their assertions the clock never goes
back; without `schedule_reentrant` the dispatched keys are strictly increasing; and from the state
the run ends in `pop` returns without a panic, with a key below the last one only if the reentrant
debt is at least `1`. -/
theorem dispatch_order (dbg : Bool) {ops : List (Op E)} {os : List (Obs E)} {s : Scheduler E}
    (hrun : (machine E dbg).Steps new ops os s) :
    (os.map (·.now)).Pairwise (· ≤ ·) ∧
      ((∀ op ∈ ops, op.isReentrant = false) → (poppedKeys os).Pairwise (· < ·)) ∧
      ∃ r s', s.pop dbg = .ok (r, s') ∧
        ∀ k x l, r = some (k, x) → s.lastKey = some l → k < l → 1 ≤ s.reentrantDebt := by
  have hinv : s.Inv := inv_of_reachable ⟨ops, os, hrun⟩
  have hnew : (new : Scheduler E).Inv := refines_new.1
  refine ⟨(steps_now_le hnew hrun).1, fun hops => ?_, ?_⟩
  · refine (poppedKeys_pairwise hnew ?_ hrun hops).1
    intro k hk
    simp [new] at hk
  · obtain ⟨s', hs'⟩ := pop_eq_ok dbg hinv
    refine ⟨_, s', hs', fun k x l hr hl hlt => ?_⟩
    rw [hr] at hs'
    exact one_le_reentrantDebt hinv hs' hl hlt

/-- A reception outcome, an announced control event at the same instant, and the run just before
the control event is dispatched out of order. -/
theorem dispatch_order_reentrant :
    ∃ (os : List (Obs ℕ)) (s : Scheduler ℕ),
      (machine ℕ true).Steps new
        [.schedule 5 .phyEnd 1, .pop, .scheduleReentrant 5 .control 2] os s ∧
      (os.map (·.now)).Pairwise (· ≤ ·) ∧ s.lastKey = some ⟨5, 3, 0⟩ ∧
      ∃ s', s.pop true = .ok (some (⟨5, 0, 1⟩, 2), s') ∧ 1 ≤ s.reentrantDebt := by
  have hrun : (machine ℕ true).Steps new
      [.schedule 5 .phyEnd 1, .pop, .scheduleReentrant 5 .control 2] _ _ :=
    .cons rfl (.cons rfl (.cons rfl (.nil _)))
  obtain ⟨hnow, -, r, s', hpop, hdebt⟩ := dispatch_order true hrun
  exact ⟨_, _, hrun, hnow, rfl, _, rfl, hdebt _ _ _ (congrArg Prod.fst (Except.ok.inj hpop)).symm
    rfl (by decide)⟩

end Scheduler

end V2xw.Core
