import V2xw.Radio.EdcaPolls

/-!
# The discipline of the state machine

What holds of the four queues of `EdcaOcbMac` in `crates/v2xw-radio/src/mac.rs` after any calls:
each accepted frame is granted once and in order, countdowns run on a quiet medium and are there for
the queues that are not empty. A grant is never before the frame was enqueued as long as polls are
not so late that a frame starts its countdown in the past: the countdown of the frame behind a
granted one starts where the granted one would have ended, even if the frame behind came later.

## Main definitions

* `Watch` — what an observer of a node on a channel keeps.
* `watchStep` — one call, with what the observers of all nodes keep.
* `Orderly`, `Awaited` — the invariants.
* `Punctual` — no frame starts its countdown before it was enqueued.
* `Disciplined` — what is to hold of an access category.

## Main results

* `Orderly.call`, `Awaited.call` — one call keeps the invariants.
* `edca_discipline` — the discipline, after any calls.
* `granted_before_enqueued` — a poll that comes too late.
-/

namespace V2xw.Radio

open Core (SimTime Duration u64Max)

/-! ## One node on one channel -/

/-- The channel of a call. -/
def MacCall.channel : MacCall → ℕ
  | .enqueue sdu _ => sdu.frame.channel
  | .onCca channel _ | .onTxDone channel _ _ | .poll channel => channel

/-- The node and the channel of a call. -/
def Timed.key (c : Timed) : ℕ × ℕ := (c.node, c.call.channel)

namespace EdcaState

/-- One call on a node on a channel. -/
def call (depth : ℕ) (now : SimTime) (draw : UInt64) (s : EdcaState) :
    MacCall → MacAnswer × EdcaState
  | .enqueue sdu ac =>
    if maxMsduBytes < sdu.frame.bytes then
      (.queued (.error (.tooLarge sdu.frame.bytes maxMsduBytes)), s)
    else (.queued (s.enqueue depth now draw sdu ac).1, (s.enqueue depth now draw sdu ac).2)
  | .onCca _ cca => (.none, s.onCca now cca)
  | .onTxDone _ start stop => (.none, s.onTxDone start stop)
  | .poll _ => (.polled (s.poll now draw).1, (s.poll now draw).2.2)

end EdcaState

/-- A call moves the node and the channel it is for, and no other. -/
lemma edcaStep_eq (depth : ℕ) (draws : ℕ → ℕ → UInt64) (s : Contention EdcaState) (c : Timed) :
    (edcaStep depth draws s c).1 =
        ((s.nodes c.key).call depth c.now (draws c.node (s.drawn c.node)) c.call).1 ∧
      (edcaStep depth draws s c).2.nodes = Function.update s.nodes c.key
        ((s.nodes c.key).call depth c.now (draws c.node (s.drawn c.node)) c.call).2 := by
  obtain ⟨now, node, call⟩ := c
  unfold edcaStep EdcaState.call Timed.key MacCall.channel
  cases call with
  | enqueue sdu ac =>
    dsimp only
    split_ifs
    · exact ⟨rfl, (Function.update_eq_self _ _).symm⟩
    · exact ⟨rfl, rfl⟩
  | onCca channel cca => exact ⟨rfl, rfl⟩
  | onTxDone channel start stop => exact ⟨rfl, rfl⟩
  | poll channel => exact ⟨rfl, rfl⟩

/-! ## Observers -/

/-- A grant, with what was reported of the medium when it was made. -/
structure WatchedGrant where
  grant : TxGrant
  busy : Bool
  /-- When the medium was last reported idle after it was busy. -/
  clearedAt : SimTime
  deriving DecidableEq

/-- What an observer of a node on a channel keeps. -/
structure Watch where
  /-- The frames of a category that were accepted, and when they were enqueued. -/
  accepted : AccessCategory → List (MacSdu × SimTime)
  grants : AccessCategory → List WatchedGrant
  /-- What was last reported of the medium. -/
  busy : Bool
  /-- When the medium was last reported idle after it was busy. -/
  clearedAt : SimTime

namespace Watch

/-- The medium is idle from the start. -/
def init : Watch := ⟨fun _ => [], fun _ => [], false, 0⟩

/-- What is kept of a call and its answer. -/
def note (a : Watch) (now : SimTime) (call : MacCall) (o : MacAnswer) : Watch :=
  match call, o with
  | .enqueue sdu ac, .queued (.ok ()) =>
    { a with accepted := Function.update a.accepted ac (a.accepted ac ++ [(sdu, now)]) }
  | .onCca _ .busy, _ => { a with busy := true }
  | .onCca _ .idle, _ =>
    { a with busy := false, clearedAt := if a.busy then now else a.clearedAt }
  | .poll _, .polled (some g) =>
    { a with
      grants := Function.update a.grants g.ac (a.grants g.ac ++ [⟨g, a.busy, a.clearedAt⟩]) }
  | _, _ => a

/-- The frames of a category that were accepted and not granted yet. -/
def waiting (a : Watch) (ac : AccessCategory) : List (MacSdu × SimTime) :=
  (a.accepted ac).drop (a.grants ac).length

end Watch

/-- One call, with what the observers of all nodes on all channels keep. -/
def watchStep (depth : ℕ) (draws : ℕ → ℕ → UInt64)
    (t : Contention EdcaState × (ℕ × ℕ → Watch)) (c : Timed) :
    MacAnswer × Contention EdcaState × (ℕ × ℕ → Watch) :=
  ((edcaStep depth draws t.1 c).1, (edcaStep depth draws t.1 c).2,
    Function.update t.2 c.key ((t.2 c.key).note c.now c.call (edcaStep depth draws t.1 c).1))

/-- Before the first call. -/
def watchInit : Contention EdcaState × (ℕ × ℕ → Watch) := (edcaInit, fun _ => Watch.init)

/-! ## Countdowns -/

/-- A countdown brought up to date starts no earlier, and runs if it did. -/
lemma Backoff.tick_resumeAt (now : SimTime) (b : Backoff) :
    (b.tick now).resumeAt.isSome = b.resumeAt.isSome ∧
      ∀ r' ∈ (b.tick now).resumeAt, ∃ r ∈ b.resumeAt, r ≤ r' := by
  unfold tick
  obtain ⟨remaining, drawn, resumeAt, aifsNs⟩ := b
  cases resumeAt with
  | none => exact ⟨rfl, fun r' h => ⟨r', h, le_refl _⟩⟩
  | some r =>
    dsimp only
    split_ifs
    · exact ⟨rfl, fun r' h => ⟨r', h, le_refl _⟩⟩
    · exact ⟨rfl, fun r' h => ⟨r', h, le_refl _⟩⟩
    · refine ⟨rfl, fun r' h => ⟨r, rfl, ?_⟩⟩
      obtain rfl := Option.some.inj h
      exact Nat.le_add_right _ _

namespace EdcaState

variable {s : EdcaState}

/-- No countdown of a category runs before an instant. -/
def NotBefore (s : EdcaState) (ac : AccessCategory) (t : SimTime) : Prop :=
  ∀ b ∈ s.backoff ac, ∀ r ∈ b.resumeAt, t ≤ r

/-- A new countdown runs on an idle medium. It starts no earlier than it is armed, and a waiting
time after the medium became idle. -/
lemma arm_spec (s : EdcaState) (now : SimTime) (ac : AccessCategory) (slots : ℕ) :
    (s.arm now ac slots).resumeAt.isSome = !s.busy ∧
      ∀ r ∈ (s.arm now ac slots).resumeAt, now ≤ r ∧ s.idleSince.getD 0 + ac.aifs.ns ≤ r := by
  have hpos : 0 < ac.aifs.ns := by cases ac <;> decide
  unfold arm
  cases hbusy : s.busy with
  | true => exact ⟨rfl, nofun⟩
  | false =>
    generalize s.idleSince.getD 0 = since
    dsimp only
    rw [if_neg Bool.false_ne_true, if_neg Bool.false_ne_true, Option.any_some]
    by_cases hmet : ac.aifs.ns ≤ now - since
    · rw [if_pos (decide_eq_true hmet)]
      refine ⟨rfl, fun r hr => ?_⟩
      obtain rfl := Option.some.inj hr
      exact ⟨le_refl _, Nat.add_le_of_le_sub' (Nat.le_of_lt (Nat.lt_of_sub_pos
        (Nat.lt_of_lt_of_le hpos hmet))) hmet⟩
    · rw [if_neg (by rwa [decide_eq_true_eq])]
      refine ⟨rfl, fun r hr => ?_⟩
      obtain rfl := Option.some.inj hr
      exact ⟨le_trans (Nat.sub_le_iff_le_add.1 (le_refl _))
        (Nat.add_le_add_right (Nat.le_max_right _ _) _),
        Nat.add_le_add_right (Nat.le_max_left _ _) _⟩

lemma of_mem_ticked {now : SimTime} {ac : AccessCategory} {b' : Backoff}
    (h : b' ∈ s.ticked now ac) :
    ∃ b ∈ s.backoff ac, b'.resumeAt.isSome = b.resumeAt.isSome ∧
      ∀ r' ∈ b'.resumeAt, ∃ r ∈ b.resumeAt, r ≤ r' := by
  unfold ticked at h
  split_ifs at h
  · exact ⟨b', h, rfl, fun r' hr => ⟨r', hr, le_refl _⟩⟩
  · obtain ⟨b, hb, rfl⟩ := Option.map_eq_some_iff.1 h
    exact ⟨b, hb, b.tick_resumeAt now⟩

lemma NotBefore.ticked {ac : AccessCategory} {t : SimTime} (h : s.NotBefore ac t)
    (now : SimTime) : ({ s with backoff := s.ticked now } : EdcaState).NotBefore ac t := by
  intro b' hb' r' hr'
  obtain ⟨b, hb, -, hstart⟩ := of_mem_ticked hb'
  obtain ⟨r, hr, hle⟩ := hstart r' hr'
  exact le_trans (h b hb r hr) hle

lemma isSome_ticked (s : EdcaState) (now : SimTime) (ac : AccessCategory) :
    (s.ticked now ac).isSome = (s.backoff ac).isSome := by
  unfold ticked
  split_ifs
  · rfl
  · rw [Option.isSome_map]

/-- The category that comes first has a frame, and a countdown that started before it was over. -/
lemma of_front {now due : SimTime} {ac : AccessCategory} (h : s.front now = some (ac, due)) :
    s.queues ac ≠ [] ∧ ∀ t, s.NotBefore ac t → t ≤ due := by
  unfold front at h
  obtain ⟨ac', -, hwon⟩ := List.exists_of_findSome?_eq_some h
  obtain ⟨due', hdue, heq⟩ := Option.map_eq_some_iff.1 hwon
  obtain ⟨rfl, rfl⟩ := Prod.mk.inj heq
  unfold dueNow at hdue
  split_ifs at hdue with hempty
  refine ⟨fun hnil => hempty (List.isEmpty_iff.2 hnil), fun t ht => ?_⟩
  obtain ⟨b, hb, hfilter⟩ := Option.bind_eq_some_iff.1 hdue
  obtain ⟨hdueAt, -⟩ := Option.filter_eq_some_iff.1 hfilter
  unfold Backoff.dueAt at hdueAt
  obtain ⟨r, hr, rfl⟩ := Option.map_eq_some_iff.1 hdueAt
  exact le_trans (ht b hb r hr) (Nat.le_add_right _ _)

/-- **What queueing a frame can do**: drop it, or append it and arm the category if it is not. -/
lemma enqueue_cases (s : EdcaState) (depth : ℕ) (now : SimTime) (draw : UInt64) (sdu : MacSdu)
    (ac : AccessCategory) :
    (∃ e, s.enqueue depth now draw sdu ac = (.error e, { s with dropped := s.dropped + 1 })) ∨
    s.enqueue depth now draw sdu ac = (.ok (), { s with
      queues := Function.update s.queues ac (s.queues ac ++ [sdu])
      backoff := Function.update s.backoff ac
        (some ((s.backoff ac).getD (s.arm now ac (below draw (ac.cwMin + 1))))) }) := by
  unfold enqueue
  dsimp only
  split_ifs
  · exact .inl ⟨_, rfl⟩
  · right
    cases hb : s.backoff ac with
    | none => rfl
    | some b =>
      dsimp only
      rw [Option.getD_some, ← hb, Function.update_eq_self]

/-- **What a poll can do**: nothing on a busy medium, bring the countdowns up to date, or grant the
first frame of the category that comes first and start the countdown of the next. -/
lemma poll_cases (s : EdcaState) (now : SimTime) (draw : UInt64) :
    (s.busy = true ∧ (s.poll now draw).1 = none ∧ (s.poll now draw).2.2 = s) ∨
    (s.busy = false ∧ (s.poll now draw).1 = none ∧
      (s.poll now draw).2.2 = { s with backoff := s.ticked now }) ∨
    ∃ ac due sdu queued, s.busy = false ∧ s.front now = some (ac, due) ∧
      s.queues ac = sdu :: queued ∧
      (∃ g, (s.poll now draw).1 = some g ∧ g.sdu = sdu ∧ g.ac = ac ∧ g.time = due) ∧
      (s.poll now draw).2.2 = { s with
        internalCollisions := s.internalCollisions + (s.eligible now - 1)
        queues := Function.update s.queues ac queued
        backoff := Function.update (s.ticked now) ac
          (if queued.isEmpty then none
          else some ⟨below draw (ac.cwMin + 1), below draw (ac.cwMin + 1),
            some ((airTime sdu.frame.bytes sdu.frame.mcs).after due + ac.aifs.ns), ac.aifs.ns⟩)
        granted := Function.update s.granted ac (s.granted ac + 1)
        grantedAirtimeNs :=
          s.grantedAirtimeNs + (airTime sdu.frame.bytes sdu.frame.mcs).ns } := by
  by_cases hbusy : s.busy = true
  · unfold poll
    rw [if_pos hbusy]
    exact .inl ⟨hbusy, rfl, rfl⟩
  · have hidle : s.busy = false := Bool.eq_false_iff.2 hbusy
    rw [poll_eq hidle]
    cases hfront : s.front now with
    | none => exact .inr (.inl ⟨hidle, rfl, rfl⟩)
    | some won =>
      obtain ⟨ac, due⟩ := won
      dsimp only
      cases hq : s.queues ac with
      | nil => exact absurd hq (of_front hfront).1
      | cons sdu queued =>
        exact .inr (.inr ⟨ac, due, sdu, queued, hidle, rfl, hq, ⟨_, rfl, rfl, rfl, rfl⟩, rfl⟩)

end EdcaState

/-! ## Order and countdowns -/

/-- The queue and the countdown of a category are in order. -/
structure OrderlyAt (s : EdcaState) (a : Watch) (ac : AccessCategory) : Prop where
  /-- What was accepted was granted or is queued. -/
  order : (a.accepted ac).map Prod.fst = (a.grants ac).map (fun g => g.grant.sdu) ++ s.queues ac
  count : s.granted ac = (a.grants ac).length
  /-- There is a countdown where there are frames. -/
  armed : (s.backoff ac).isSome = !(s.queues ac).isEmpty
  /-- It runs while the medium is idle. -/
  running : ∀ b ∈ s.backoff ac, b.resumeAt.isSome = !s.busy
  /-- It starts a waiting time after the medium became idle. -/
  cleared : s.NotBefore ac (a.clearedAt + ac.aifs.ns)
  /-- So do grants, all on an idle medium. -/
  quiet : ∀ g ∈ a.grants ac, g.busy = false ∧ g.clearedAt + ac.aifs.ns ≤ g.grant.time

/-- A node on a channel is in order. -/
structure Orderly (s : EdcaState) (a : Watch) : Prop where
  category : ∀ ac, OrderlyAt s a ac
  busy : s.busy = a.busy
  idle : s.busy = false → a.clearedAt ≤ s.idleSince.getD 0
  range : a.clearedAt ≤ u64Max

/-- A category that is not touched stays in order. -/
lemma OrderlyAt.congr {s s' : EdcaState} {a a' : Watch} {ac : AccessCategory}
    (h : OrderlyAt s a ac) (hqueue : s'.queues ac = s.queues ac)
    (hbackoff : s'.backoff ac = s.backoff ac) (hgranted : s'.granted ac = s.granted ac)
    (hbusy : s'.busy = s.busy) (haccepted : a'.accepted ac = a.accepted ac)
    (hgrants : a'.grants ac = a.grants ac) (hcleared : a'.clearedAt = a.clearedAt) :
    OrderlyAt s' a' ac := by
  obtain ⟨horder, hcount, harmed, hrunning, hstarts, hquiet⟩ := h
  unfold EdcaState.NotBefore at hstarts
  rw [← hqueue, ← haccepted, ← hgrants] at horder
  rw [← hgranted, ← hgrants] at hcount
  rw [← hqueue, ← hbackoff] at harmed
  rw [← hbackoff, ← hbusy] at hrunning
  rw [← hbackoff, ← hcleared] at hstarts
  rw [← hgrants] at hquiet
  exact ⟨horder, hcount, harmed, hrunning, hstarts, hquiet⟩

namespace Orderly

variable {s : EdcaState} {a : Watch}

/-- Queueing a frame. -/
lemma enqueue (h : Orderly s a) (now : SimTime) (sdu : MacSdu) (ac : AccessCategory) (slots : ℕ) :
    Orderly
      { s with
        queues := Function.update s.queues ac (s.queues ac ++ [sdu])
        backoff := Function.update s.backoff ac
          (some ((s.backoff ac).getD (s.arm now ac slots))) }
      { a with accepted := Function.update a.accepted ac (a.accepted ac ++ [(sdu, now)]) } := by
  refine ⟨fun ac' => ?_, h.busy, h.idle, h.range⟩
  obtain ⟨hruns, hstarts⟩ := s.arm_spec now ac slots
  by_cases hac : ac' = ac
  · subst hac
    have hat := h.category ac'
    refine ⟨?_, hat.count, ?_, fun b hb => ?_, fun b hb r hr => ?_, hat.quiet⟩
    · dsimp only
      rw [Function.update_self, Function.update_self, List.map_append, hat.order, List.append_assoc]
      rfl
    · dsimp only
      rw [Function.update_self, Function.update_self, List.isEmpty_eq_false_iff.2 (by simp)]
      rfl
    · dsimp only at hb ⊢
      rw [Function.update_self] at hb
      obtain rfl := Option.some.inj hb
      cases hold : s.backoff ac' with
      | none => exact hruns
      | some b => exact hat.running b hold
    · dsimp only at hb ⊢
      rw [Function.update_self] at hb
      obtain rfl := Option.some.inj hb
      cases hold : s.backoff ac' with
      | none =>
        rw [hold] at hr
        have hidle : s.busy = false := by
          have hsome : (s.arm now ac' slots).resumeAt.isSome = true := by
            rw [show (s.arm now ac' slots).resumeAt = some r from hr]
            rfl
          rw [hruns] at hsome
          simpa using hsome
        exact le_trans (Nat.add_le_add_right (h.idle hidle) _) (hstarts r hr).2
      | some b =>
        rw [hold] at hr
        exact hat.cleared b hold r hr
  · refine (h.category ac').congr ?_ ?_ rfl rfl ?_ rfl rfl
    · exact Function.update_of_ne hac ..
    · exact Function.update_of_ne hac ..
    · exact Function.update_of_ne hac ..

/-- The medium becomes busy or idle. -/
lemma onCca (h : Orderly s a) {now : SimTime} (hnow : now ≤ u64Max) (channel : ℕ)
    (cca : CcaState) :
    Orderly (s.onCca now cca) (a.note now (.onCca channel cca) .none) := by
  unfold EdcaState.onCca
  cases cca with
  | busy =>
    dsimp only
    by_cases hbusy : s.busy = true
    · rw [if_pos hbusy]
      refine ⟨fun ac => (h.category ac).congr rfl rfl rfl rfl rfl rfl rfl, hbusy, h.idle, h.range⟩
    · rw [if_neg hbusy]
      refine ⟨fun ac => ?_, rfl, nofun, h.range⟩
      have hat := h.category ac
      refine ⟨hat.order, hat.count, ?_, fun b hb => ?_, fun b hb r hr => ?_, hat.quiet⟩
      · dsimp only
        rw [Option.isSome_map]
        exact hat.armed
      · obtain ⟨b', -, rfl⟩ := Option.map_eq_some_iff.1 hb
        rfl
      · obtain ⟨b', -, rfl⟩ := Option.map_eq_some_iff.1 hb
        exact nomatch hr
  | idle =>
    dsimp only
    by_cases hbusy : s.busy = true
    · rw [if_pos hbusy]
      have habusy : a.busy = true := h.busy ▸ hbusy
      unfold Watch.note
      dsimp only
      rw [if_pos habusy]
      refine ⟨fun ac => ?_, rfl, fun _ => le_refl _, hnow⟩
      have hat := h.category ac
      refine ⟨hat.order, hat.count, ?_, fun b hb => ?_, fun b hb r hr => ?_, hat.quiet⟩
      · dsimp only
        rw [Option.isSome_map]
        exact hat.armed
      · obtain ⟨b', -, rfl⟩ := Option.map_eq_some_iff.1 hb
        rfl
      · obtain ⟨b', -, rfl⟩ := Option.map_eq_some_iff.1 hb
        obtain rfl := Option.some.inj hr
        exact le_refl _
    · rw [if_neg hbusy]
      have hidle : s.busy = false := Bool.eq_false_iff.2 hbusy
      have habusy : a.busy = false := h.busy ▸ hidle
      unfold Watch.note
      dsimp only
      rw [habusy, if_neg Bool.false_ne_true]
      have hsince := h.idle hidle
      cases hold : s.idleSince with
      | none =>
        rw [hold] at hsince
        refine ⟨fun ac => (h.category ac).congr rfl rfl rfl rfl rfl rfl rfl, hidle,
          fun _ => le_trans hsince (Nat.zero_le _), h.range⟩
      | some since =>
        exact ⟨fun ac => (h.category ac).congr rfl rfl rfl rfl rfl rfl rfl, hidle,
          fun _ => hsince, h.range⟩

lemma ticked (h : Orderly s a) (now : SimTime) :
    Orderly { s with backoff := s.ticked now } a := by
  refine ⟨fun ac => ?_, h.busy, h.idle, h.range⟩
  have hat := h.category ac
  refine ⟨hat.order, hat.count, ?_, fun b' hb' => ?_, hat.cleared.ticked now, hat.quiet⟩
  · exact (s.isSome_ticked now ac).trans hat.armed
  · obtain ⟨b, hb, hsome, -⟩ := EdcaState.of_mem_ticked hb'
    exact hsome.trans (hat.running b hb)

/-- A frame is granted, and the one behind it starts its countdown. -/
lemma granted (h : Orderly s a) {now due : SimTime} {ac : AccessCategory} {sdu : MacSdu}
    {queued : List MacSdu} {g : TxGrant} (hidle : s.busy = false)
    (hfront : s.front now = some (ac, due)) (hqueue : s.queues ac = sdu :: queued)
    (hsdu : g.sdu = sdu) (hac : g.ac = ac) (htime : g.time = due) (collisions airtime slots : ℕ)
    (air : Duration) :
    Orderly
      { s with
        internalCollisions := collisions
        queues := Function.update s.queues ac queued
        backoff := Function.update (s.ticked now) ac
          (if queued.isEmpty then none
          else some ⟨slots, slots, some (air.after due + ac.aifs.ns), ac.aifs.ns⟩)
        granted := Function.update s.granted ac (s.granted ac + 1)
        grantedAirtimeNs := airtime }
      { a with
        grants :=
          Function.update a.grants g.ac (a.grants g.ac ++ [⟨g, a.busy, a.clearedAt⟩]) } := by
  subst hsdu hac htime
  have hlate := (EdcaState.of_front hfront).2 _ (h.category g.ac).cleared
  refine ⟨fun ac => ?_, h.busy, h.idle, h.range⟩
  by_cases hac : ac = g.ac
  · subst hac
    have hat := h.category g.ac
    refine ⟨?_, ?_, ?_, fun b hb => ?_, fun b hb r hr => ?_, fun x hx => ?_⟩
    · dsimp only
      rw [Function.update_self, Function.update_self, List.map_append, hat.order, hqueue,
        List.append_assoc]
      rfl
    · dsimp only
      rw [Function.update_self, Function.update_self, List.length_append, hat.count]
      rfl
    · dsimp only
      rw [Function.update_self, Function.update_self]
      cases queued.isEmpty <;> rfl
    · dsimp only at hb ⊢
      rw [Function.update_self] at hb
      split_ifs at hb
      · exact nomatch hb
      · obtain rfl := Option.some.inj hb
        rw [hidle]
        rfl
    · dsimp only at hb ⊢
      rw [Function.update_self] at hb
      split_ifs at hb
      · exact nomatch hb
      · obtain rfl := Option.some.inj hb
        obtain rfl := Option.some.inj hr
        -- The end of the frame saturates, and so do the instants reported.
        have hafter : a.clearedAt ≤ air.after g.time := le_min
          (le_trans (Nat.le_of_add_right_le hlate) (Nat.le_add_right _ _)) h.range
        exact Nat.add_le_add_right hafter _
    · dsimp only at hx
      rw [Function.update_self] at hx
      rcases List.mem_append.1 hx with hx | hx
      · exact hat.quiet x hx
      · obtain rfl := List.mem_singleton.1 hx
        exact ⟨h.busy ▸ hidle, hlate⟩
  · refine ((h.ticked now).category ac).congr ?_ ?_ ?_ rfl rfl ?_ rfl
    · exact Function.update_of_ne hac ..
    · exact Function.update_of_ne hac ..
    · exact Function.update_of_ne hac ..
    · exact Function.update_of_ne hac ..

/-- **One call** keeps a node on a channel in order. -/
theorem call (h : Orderly s a) (depth : ℕ) {now : SimTime} (hnow : now ≤ u64Max)
    (draw : UInt64) (c : MacCall) :
    Orderly (s.call depth now draw c).2 (a.note now c (s.call depth now draw c).1) := by
  cases c with
  | enqueue sdu ac =>
    unfold EdcaState.call
    dsimp only
    split_ifs
    · exact h
    · rcases s.enqueue_cases depth now draw sdu ac with ⟨e, hcase⟩ | hcase
      · rw [hcase]
        exact ⟨fun ac => (h.category ac).congr rfl rfl rfl rfl rfl rfl rfl, h.busy, h.idle, h.range⟩
      · rw [hcase]
        exact h.enqueue now sdu ac _
  | onCca channel cca => exact h.onCca hnow channel cca
  | onTxDone channel start stop =>
    exact ⟨fun ac => (h.category ac).congr rfl rfl rfl rfl rfl rfl rfl, h.busy, h.idle, h.range⟩
  | poll channel =>
    unfold EdcaState.call
    dsimp only
    rcases s.poll_cases now draw with ⟨-, hgrant, hstate⟩ | ⟨-, hgrant, hstate⟩ |
      ⟨ac, due, sdu, queued, hidle, hfront, hqueue, ⟨g, hgrant, hsdu, hac, htime⟩, hstate⟩
    · rw [hgrant, hstate]
      exact h
    · rw [hgrant, hstate]
      exact h.ticked now
    · rw [hgrant, hstate]
      exact h.granted hidle hfront hqueue hsdu hac htime _ _ _ _

lemma init : Orderly EdcaState.default Watch.init :=
  ⟨fun _ => ⟨rfl, rfl, rfl, nofun, nofun, nofun⟩, rfl, fun _ => le_refl _, Nat.zero_le _⟩

end Orderly

/-! ## When frames were enqueued -/

/-- Nothing of a category starts, or was granted, before its frame was enqueued. -/
structure AwaitedAt (now : SimTime) (s : EdcaState) (a : Watch) (ac : AccessCategory) : Prop where
  past : ∀ f ∈ a.accepted ac, f.2 ≤ now
  head : ∀ f ∈ (a.waiting ac).head?, s.NotBefore ac f.2
  times : ∀ (i : ℕ) f g, (a.accepted ac)[i]? = some f → (a.grants ac)[i]? = some g →
    f.2 ≤ g.grant.time

/-- Nothing starts, or was granted, before its frame was enqueued. -/
def Awaited (now : SimTime) (s : EdcaState) (a : Watch) : Prop := ∀ ac, AwaitedAt now s a ac

/-- The frame behind one that a poll grants was enqueued before its countdown starts. -/
def PunctualAt (s : EdcaState) (a : Watch) (now : SimTime) : Prop :=
  s.busy = true ∨ ∀ w ∈ s.front now, ∀ f ∈ (a.waiting w.1)[0]?, ∀ f' ∈ (a.waiting w.1)[1]?,
    f'.2 ≤ (airTime f.1.frame.bytes f.1.frame.mcs).after w.2 + w.1.aifs.ns

instance (s : EdcaState) (a : Watch) (now : SimTime) : Decidable (PunctualAt s a now) :=
  inferInstanceAs (Decidable (_ ∨ _))

/-- The condition on the calls: polls are not so late that the countdown of the frame behind a
granted one starts before that frame was enqueued. -/
def Punctual (t : Contention EdcaState × (ℕ × ℕ → Watch)) (c : Timed) : Prop :=
  match c.call with
  | .poll _ => PunctualAt (t.1.nodes c.key) (t.2 c.key) c.now
  | _ => True

instance (t : Contention EdcaState × (ℕ × ℕ → Watch)) (c : Timed) : Decidable (Punctual t c) := by
  obtain ⟨now, node, call⟩ := c
  cases call <;> unfold Punctual <;> infer_instance

lemma OrderlyAt.waiting {s : EdcaState} {a : Watch} {ac : AccessCategory}
    (h : OrderlyAt s a ac) : (a.waiting ac).map Prod.fst = s.queues ac := by
  unfold Watch.waiting
  rw [List.map_drop, h.order, List.drop_left' (List.length_map _)]

lemma OrderlyAt.length_le {s : EdcaState} {a : Watch} {ac : AccessCategory}
    (h : OrderlyAt s a ac) : (a.grants ac).length ≤ (a.accepted ac).length := by
  have hlen := congrArg List.length h.order
  rw [List.length_map, List.length_append, List.length_map] at hlen
  omega

namespace Awaited

variable {s : EdcaState} {a : Watch} {t now : SimTime}

lemma mono (h : Awaited t s a) (ht : t ≤ now) : Awaited now s a := fun ac =>
  ⟨fun f hf => le_trans ((h ac).past f hf) ht, (h ac).head, (h ac).times⟩

lemma congr {s' : EdcaState} {a' : Watch} {ac : AccessCategory} (h : AwaitedAt t s a ac)
    (hbackoff : s'.backoff ac = s.backoff ac) (haccepted : a'.accepted ac = a.accepted ac)
    (hgrants : a'.grants ac = a.grants ac) : AwaitedAt t s' a' ac := by
  obtain ⟨hpast, hhead, htimes⟩ := h
  unfold Watch.waiting EdcaState.NotBefore at hhead
  rw [← haccepted] at hpast
  rw [← haccepted, ← hgrants, ← hbackoff] at hhead
  rw [← haccepted, ← hgrants] at htimes
  exact ⟨hpast, hhead, htimes⟩

/-- Queueing a frame. -/
lemma enqueue (h : Awaited now s a) (ho : Orderly s a) (sdu : MacSdu) (ac : AccessCategory)
    (slots : ℕ) :
    Awaited now
      { s with
        queues := Function.update s.queues ac (s.queues ac ++ [sdu])
        backoff := Function.update s.backoff ac
          (some ((s.backoff ac).getD (s.arm now ac slots))) }
      { a with accepted := Function.update a.accepted ac (a.accepted ac ++ [(sdu, now)]) } := by
  intro ac'
  by_cases hac : ac' = ac
  · subst hac
    have hat := h ac'
    have hlen := (ho.category ac').length_le
    refine ⟨fun f hf => ?_, fun f hf b hb r hr => ?_, fun i f g hf hg => ?_⟩
    · dsimp only at hf
      rw [Function.update_self] at hf
      rcases List.mem_append.1 hf with hf | hf
      · exact hat.past f hf
      · obtain rfl := List.mem_singleton.1 hf
        exact le_refl _
    · dsimp only at hb
      rw [Function.update_self] at hb
      obtain rfl := Option.some.inj hb
      unfold Watch.waiting at hf
      dsimp only at hf
      rw [Function.update_self, List.drop_append_of_le_length hlen] at hf
      cases hold : s.backoff ac' with
      | none =>
        -- The frame is the only one of its category.
        rw [hold] at hr
        have hempty : a.waiting ac' = [] := by
          have harmed := (ho.category ac').armed
          rw [hold] at harmed
          have hq : s.queues ac' = [] := List.isEmpty_iff.1 (by simpa using harmed)
          rw [← (ho.category ac').waiting] at hq
          exact List.map_eq_nil_iff.1 hq
        unfold Watch.waiting at hempty
        rw [hempty] at hf
        obtain rfl := Option.some.inj hf
        exact ((s.arm_spec now ac' slots).2 r hr).1
      | some b =>
        rw [hold] at hr
        have hne : a.waiting ac' ≠ [] := by
          have harmed := (ho.category ac').armed
          rw [hold] at harmed
          intro hnil
          rw [← (ho.category ac').waiting, hnil] at harmed
          exact Bool.false_ne_true harmed.symm
        refine hat.head f ?_ b hold r hr
        unfold Watch.waiting at hne ⊢
        rwa [List.head?_append_of_ne_nil _ hne] at hf
    · dsimp only at hf hg
      rw [Function.update_self] at hf
      have hi : i < (a.grants ac').length := (List.getElem?_eq_some_iff.1 hg).1
      rw [List.getElem?_append_left (Nat.lt_of_lt_of_le hi hlen)] at hf
      exact hat.times i f g hf hg
  · refine congr (h ac') ?_ ?_ rfl
    · exact Function.update_of_ne hac ..
    · exact Function.update_of_ne hac ..

/-- The medium becomes busy or idle. -/
lemma onCca (h : Awaited now s a) (channel : ℕ) (cca : CcaState) :
    Awaited now (s.onCca now cca) (a.note now (.onCca channel cca) .none) := by
  intro ac
  have hat := h ac
  unfold EdcaState.onCca
  cases cca with
  | busy =>
    dsimp only
    split_ifs
    · exact congr hat rfl rfl rfl
    · refine ⟨hat.past, fun f hf b hb r hr => ?_, hat.times⟩
      obtain ⟨b', -, rfl⟩ := Option.map_eq_some_iff.1 hb
      exact nomatch hr
  | idle =>
    dsimp only
    split_ifs
    · refine ⟨hat.past, fun f hf b hb r hr => ?_, hat.times⟩
      obtain ⟨b', -, rfl⟩ := Option.map_eq_some_iff.1 hb
      obtain rfl := Option.some.inj hr
      have hmem : f ∈ a.accepted ac := List.mem_of_mem_drop (List.mem_of_mem_head? hf)
      exact le_trans (hat.past f hmem) (Nat.le_add_right _ _)
    · cases s.idleSince with
      | none => exact congr hat rfl rfl rfl
      | some since => exact congr hat rfl rfl rfl

lemma ticked (h : Awaited now s a) : Awaited now { s with backoff := s.ticked now } a :=
  fun ac => ⟨(h ac).past, fun f hf => ((h ac).head f hf).ticked now, (h ac).times⟩

/-- A frame is granted, and the one behind it starts its countdown. -/
lemma granted (h : Awaited now s a) (ho : Orderly s a) {due : SimTime} {ac : AccessCategory}
    {sdu : MacSdu} {queued : List MacSdu} {g : TxGrant} (hidle : s.busy = false)
    (hfront : s.front now = some (ac, due)) (hqueue : s.queues ac = sdu :: queued)
    (hac : g.ac = ac) (htime : g.time = due) (hpunctual : PunctualAt s a now)
    (collisions airtime slots : ℕ) :
    Awaited now
      { s with
        internalCollisions := collisions
        queues := Function.update s.queues ac queued
        backoff := Function.update (s.ticked now) ac
          (if queued.isEmpty then none
          else some ⟨slots, slots,
            some ((airTime sdu.frame.bytes sdu.frame.mcs).after due + ac.aifs.ns), ac.aifs.ns⟩)
        granted := Function.update s.granted ac (s.granted ac + 1)
        grantedAirtimeNs := airtime }
      { a with
        grants :=
          Function.update a.grants g.ac (a.grants g.ac ++ [⟨g, a.busy, a.clearedAt⟩]) } := by
  subst hac htime
  -- The first frame that waits is the one that is granted.
  obtain ⟨f, rest, hwaiting, hf⟩ : ∃ f rest, a.waiting g.ac = f :: rest ∧ f.1 = sdu := by
    have hmap := (ho.category g.ac).waiting
    rw [hqueue] at hmap
    cases hw : a.waiting g.ac with
    | nil => rw [hw] at hmap; exact nomatch hmap
    | cons f rest =>
      rw [hw] at hmap
      exact ⟨f, rest, rfl, (List.cons.inj hmap).1⟩
  have hfirst : (a.accepted g.ac)[(a.grants g.ac).length]? = some f := by
    have hhead : (a.waiting g.ac)[0]? = some f := by rw [hwaiting]; rfl
    unfold Watch.waiting at hhead
    rwa [List.getElem?_drop] at hhead
  intro ac
  by_cases hac : ac = g.ac
  · subst hac
    have hat := h g.ac
    refine ⟨hat.past, fun f' hf' b hb r hr => ?_, fun i f' x hf' hx => ?_⟩
    · dsimp only at hb
      rw [Function.update_self] at hb
      split_ifs at hb
      · exact nomatch hb
      · obtain rfl := Option.some.inj hb
        obtain rfl := Option.some.inj hr
        have hrest : (a.waiting g.ac)[1]? = some f' := by
          unfold Watch.waiting at hf' ⊢
          dsimp only at hf'
          rw [Function.update_self, List.length_append, List.head?_drop] at hf'
          rwa [List.getElem?_drop]
        rcases hpunctual with hbusy | hpunctual
        · exact absurd (hidle.symm.trans hbusy) Bool.false_ne_true
        · have hle := hpunctual _ hfront f (by rw [hwaiting]; rfl) f' hrest
          rwa [hf] at hle
    · dsimp only at hx
      rw [Function.update_self] at hx
      rcases Nat.lt_or_ge i (a.grants g.ac).length with hi | hi
      · rw [List.getElem?_append_left hi] at hx
        exact hat.times i f' x hf' hx
      · rw [List.getElem?_append_right hi] at hx
        obtain ⟨hlt, hx⟩ := List.getElem?_eq_some_iff.1 hx
        have hzero : i = (a.grants g.ac).length := by
          rw [List.length_singleton] at hlt
          omega
        subst hzero
        obtain rfl : f = f' := Option.some.inj (hfirst.symm.trans hf')
        rw [List.getElem_singleton] at hx
        rw [← hx]
        exact (EdcaState.of_front hfront).2 _ (hat.head f (by rw [hwaiting]; rfl))
  · refine congr (h.ticked ac) ?_ rfl ?_
    · exact Function.update_of_ne hac ..
    · exact Function.update_of_ne hac ..

/-- **One punctual call** starts and grants nothing before its frame was enqueued. -/
theorem call (h : Awaited t s a) (ho : Orderly s a) (ht : t ≤ now) (depth : ℕ) (draw : UInt64)
    (c : MacCall) (hpunctual : ∀ channel, c = .poll channel → PunctualAt s a now) :
    Awaited now (s.call depth now draw c).2 (a.note now c (s.call depth now draw c).1) := by
  have hnow : Awaited now s a := h.mono ht
  cases c with
  | enqueue sdu ac =>
    unfold EdcaState.call
    dsimp only
    split_ifs
    · exact hnow
    · rcases s.enqueue_cases depth now draw sdu ac with ⟨e, hcase⟩ | hcase
      · rw [hcase]
        exact fun ac => congr (hnow ac) rfl rfl rfl
      · rw [hcase]
        exact hnow.enqueue ho sdu ac _
  | onCca channel cca => exact hnow.onCca channel cca
  | onTxDone channel start stop => exact fun ac => congr (hnow ac) rfl rfl rfl
  | poll channel =>
    unfold EdcaState.call
    dsimp only
    rcases s.poll_cases now draw with ⟨-, hgrant, hstate⟩ | ⟨-, hgrant, hstate⟩ |
      ⟨ac, due, sdu, queued, hidle, hfront, hqueue, ⟨g, hgrant, -, hac, htime⟩, hstate⟩
    · rw [hgrant, hstate]
      exact hnow
    · rw [hgrant, hstate]
      exact hnow.ticked
    · rw [hgrant, hstate]
      exact hnow.granted ho hidle hfront hqueue hac htime (hpunctual channel rfl) _ _ _

lemma init : Awaited 0 EdcaState.default Watch.init :=
  fun _ => ⟨nofun, nofun, fun _ _ _ h _ => nomatch h⟩

end Awaited

/-! ## All nodes -/

/-- One call moves the node and the channel it is for, and what is kept of them. -/
lemma watchStep_at (depth : ℕ) (draws : ℕ → ℕ → UInt64)
    (t : Contention EdcaState × (ℕ × ℕ → Watch)) (c : Timed) {P : EdcaState → Watch → Prop}
    (key : ℕ × ℕ) (hself : ∀ draw, P ((t.1.nodes c.key).call depth c.now draw c.call).2
      ((t.2 c.key).note c.now c.call ((t.1.nodes c.key).call depth c.now draw c.call).1))
    (hother : P (t.1.nodes key) (t.2 key)) :
    P ((watchStep depth draws t c).2.1.nodes key) ((watchStep depth draws t c).2.2 key) := by
  obtain ⟨hanswer, hnodes⟩ := edcaStep_eq depth draws t.1 c
  unfold watchStep
  dsimp only
  rw [hnodes, hanswer]
  by_cases hkey : key = c.key
  · subst hkey
    rw [Function.update_self, Function.update_self]
    exact hself _
  · rw [Function.update_of_ne hkey, Function.update_of_ne hkey]
    exact hother

/-- **Every run keeps every node in order.** -/
lemma orderly_run (depth : ℕ) (draws : ℕ → ℕ → UInt64) {calls : List Timed}
    (hrange : ∀ c ∈ calls, c.now ≤ u64Max) (key : ℕ × ℕ) :
    Orderly ((Mealy.run (watchStep depth draws) watchInit calls).1.nodes key)
      ((Mealy.run (watchStep depth draws) watchInit calls).2 key) := by
  suffices hall : ∀ key, Orderly ((Mealy.run (watchStep depth draws) watchInit calls).1.nodes key)
      ((Mealy.run (watchStep depth draws) watchInit calls).2 key) from hall key
  induction calls using List.reverseRecOn with
  | nil => exact fun key => Orderly.init
  | append_singleton calls c ih =>
    intro key
    have hcalls := ih fun c hc => hrange c (List.mem_append_left _ hc)
    have hc := hrange c (List.mem_append_right _ List.mem_cons_self)
    rw [Mealy.run_concat]
    exact watchStep_at depth draws _ c key (fun draw => (hcalls c.key).call depth hc draw c.call)
      (hcalls key)

/-- **Punctual runs** start and grant nothing before its frame was enqueued. -/
lemma awaited_run (depth : ℕ) (draws : ℕ → ℕ → UInt64) {calls : List Timed}
    (hrange : ∀ c ∈ calls, c.now ≤ u64Max) (hsorted : calls.Pairwise fun c c' => c.now ≤ c'.now)
    (hpunctual : Mealy.Always (watchStep depth draws) Punctual watchInit calls) (key : ℕ × ℕ) :
    ∃ now, Awaited now ((Mealy.run (watchStep depth draws) watchInit calls).1.nodes key)
      ((Mealy.run (watchStep depth draws) watchInit calls).2 key) := by
  suffices hall : ∀ t, (∀ c ∈ calls, c.now ≤ t) → ∀ key,
      Awaited t ((Mealy.run (watchStep depth draws) watchInit calls).1.nodes key)
        ((Mealy.run (watchStep depth draws) watchInit calls).2 key) from
    ⟨u64Max, hall u64Max hrange key⟩
  induction calls using List.reverseRecOn with
  | nil => exact fun t _ key => Awaited.init.mono (Nat.zero_le _)
  | append_singleton calls c ih =>
    intro t ht key
    obtain ⟨hbefore, -, hlast⟩ := List.pairwise_append.1 hsorted
    obtain ⟨hcalls, hc, -⟩ := (Mealy.always_append calls [c] watchInit).1 hpunctual
    have hbound : ∀ c' ∈ calls, c'.now ≤ c.now := fun c' hc' =>
      hlast c' hc' c List.mem_cons_self
    have hleft : ∀ c' ∈ calls, c'.now ≤ u64Max := fun c' hc' =>
      hrange c' (List.mem_append_left _ hc')
    have hold := ih hleft hbefore hcalls c.now hbound
    rw [Mealy.run_concat]
    refine watchStep_at depth draws _ c key (fun draw => ?_) ((hold key).mono ?_)
    · refine ((hold c.key).call (orderly_run depth draws hleft c.key) (le_refl _) depth draw c.call
        fun channel heq => ?_).mono ?_
      · unfold Punctual at hc
        rwa [heq] at hc
      · exact ht c (List.mem_append_right _ List.mem_cons_self)
    · exact ht c (List.mem_append_right _ List.mem_cons_self)

/-! ## The discipline -/

/-- What is to hold of an access category of a node on a channel. -/
structure Disciplined (s : EdcaState) (a : Watch) (ac : AccessCategory) : Prop where
  /-- Each accepted frame is granted once, in order, or is queued. -/
  order : (a.accepted ac).map Prod.fst = (a.grants ac).map (fun g => g.grant.sdu) ++ s.queues ac
  conservation : (a.accepted ac).length = s.granted ac + (s.queues ac).length
  armed : (s.backoff ac).isSome = true ↔ s.queues ac ≠ []
  /-- Countdowns run while the medium is idle, and are frozen while it is busy. -/
  running : ∀ b ∈ s.backoff ac, b.resumeAt.isSome = true ↔ a.busy = false
  idle : ∀ g ∈ a.grants ac, g.busy = false
  /-- A grant is a waiting time after the medium became idle. -/
  aifs : ∀ g ∈ a.grants ac, g.clearedAt + ac.aifs.ns ≤ g.grant.time
  /-- The slots a poll takes off are no more than there are. -/
  fits : ∀ b ∈ s.backoff ac, ∀ resume ∈ b.resumeAt, ∀ now : SimTime, resume ≤ now →
    now < resume + b.remaining * slotNs → (now - resume) / slotNs ≤ b.remaining

/-- **The discipline.** After any calls, at non-decreasing instants, on all nodes and channels with
any draws: the frames accepted are those granted, in order, and those queued; queues have countdowns
where they have frames, and these run where the medium is idle; grants are on an idle medium and a
waiting time after it became idle; and the slots taken off are there. If the calls are punctual, no
grant is before its frame was enqueued. -/
theorem edca_discipline (depth : ℕ) (draws : ℕ → ℕ → UInt64) (calls : List Timed)
    (hrange : ∀ c ∈ calls, c.now ≤ u64Max) (hsorted : calls.Pairwise fun c c' => c.now ≤ c'.now)
    (key : ℕ × ℕ) (ac : AccessCategory) :
    Disciplined ((Mealy.run (watchStep depth draws) watchInit calls).1.nodes key)
        ((Mealy.run (watchStep depth draws) watchInit calls).2 key) ac ∧
      (Mealy.Always (watchStep depth draws) Punctual watchInit calls →
        ∀ (i : ℕ) f g,
          (((Mealy.run (watchStep depth draws) watchInit calls).2 key).accepted ac)[i]? = some f →
          (((Mealy.run (watchStep depth draws) watchInit calls).2 key).grants ac)[i]? = some g →
          f.2 ≤ g.grant.time) := by
  have ho := orderly_run depth draws hrange key
  have hat := ho.category ac
  refine ⟨⟨hat.order, ?_, ?_, fun b hb => ?_, fun g hg => (hat.quiet g hg).1,
    fun g hg => (hat.quiet g hg).2, fun b hb resume hr now hle hlt => ?_⟩, fun hpunctual => ?_⟩
  · have hlen := congrArg List.length hat.order
    rwa [List.length_map, List.length_append, List.length_map, ← hat.count] at hlen
  · rw [hat.armed, Bool.not_eq_true', List.isEmpty_eq_false_iff]
  · rw [hat.running b hb, ho.busy, Bool.not_eq_true']
  · exact Nat.div_le_of_le_mul (by rw [Nat.mul_comm]; exact Nat.sub_le_iff_le_add'.2 hlt.le)
  · obtain ⟨now, hawaited⟩ := awaited_run depth draws hrange hsorted hpunctual key
    exact (hawaited ac).times

/-- Two voice frames of a node, enqueued at two instants and polled at three. -/
def twoFrames (second first' second' : SimTime) : List Timed :=
  let frame (seq : ℕ) : MacSdu := ⟨⟨300, .r6Qpsk12, 178, ⟨seq, seq⟩⟩, 0⟩
  [⟨0, 5, .enqueue (frame 1) .vo⟩, ⟨second, 5, .enqueue (frame 2) .vo⟩,
   ⟨first', 5, .poll 178⟩, ⟨second', 5, .poll 178⟩]

theorem edca_discipline_twoFrames :
    let t := Mealy.run (watchStep 64 longest) watchInit (twoFrames 90000 97000 900000)
    Disciplined (t.1.nodes (5, 178)) (t.2 (5, 178)) .vo ∧
      ∀ (i : ℕ) f g, ((t.2 (5, 178)).accepted .vo)[i]? = some f →
        ((t.2 (5, 178)).grants .vo)[i]? = some g → f.2 ≤ g.grant.time :=
  have h := edca_discipline 64 longest (twoFrames 90000 97000 900000) (by decide) (by decide)
    (5, 178) .vo
  ⟨h.1, h.2 (by decide +kernel)⟩

/-- **Late polls.** Both frames are polled a while after the second one was enqueued: it is granted
before. -/
theorem granted_before_enqueued :
    let a := (Mealy.run (watchStep 64 longest) watchInit (twoFrames 10000000 10000000 10000000)).2
      (5, 178)
    (a.accepted .vo).map Prod.snd = [0, 10000000] ∧
      (a.grants .vo).map (fun g => g.grant.time) = [97000, 642000] := by
  decide +kernel

end V2xw.Radio
