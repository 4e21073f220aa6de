import V2xw.Radio.Blocks
import V2xw.Radio.EdcaPolls

/-!
# Wake-ups of queued frames

The engine arms its timer for a node from `next_poll_at`. The two contention models always have an
instant for a queued frame while the medium is not busy.

Sensing-based scheduling books a resource when it is polled, so a frame that was handed down since
the last poll may have none yet. After a poll every queued frame has one, unless the poll used up
what the UE had booked: the last transmission of a reservation, or an owed retransmission without
one.

## Main definitions

* `EdcaState.Armed` — every queued frame has a countdown, running unless the medium is busy.
* `Book.Covered` — a UE has a reservation or owes a retransmission.
* `Book.Lasting` — a poll does not use up what the UE has booked.

## Main results

* `edca_armed`, `Book.Covered.polled` — what the calls keep.
* `queued_frames_wake` — a queued frame has an instant to be polled for.
-/

namespace V2xw.Radio

open Core (SimTime Duration)

/-! ## The state machine with four categories -/

namespace EdcaState

variable {s : EdcaState} {now : SimTime} {draw : UInt64}

/-- Every queued frame has a countdown, and countdowns run unless the medium is busy. -/
structure Armed (s : EdcaState) : Prop where
  armed : ∀ ac, s.queues ac ≠ [] → (s.backoff ac).isSome
  running : s.busy = false → ∀ ac, ∀ b ∈ s.backoff ac, b.resumeAt.isSome

lemma isSome_earlier (a b : Option SimTime) :
    (earlier a b).isSome ↔ a.isSome ∨ b.isSome := by
  cases a <;> cases b <;> simp [earlier]

lemma isSome_foldl_earlier {α : Type} (f : α → Option SimTime) (l : List α) :
    ∀ a, (l.foldl (fun next x => earlier next (f x)) a).isSome ↔
      a.isSome ∨ ∃ x ∈ l, (f x).isSome := by
  induction l with
  | nil => simp
  | cons x l ih =>
    intro a
    rw [List.foldl_cons, ih, isSome_earlier]
    simp only [List.mem_cons, exists_eq_or_imp, or_assoc]

lemma Armed.nextPollAt (h : s.Armed) (hbusy : s.busy = false) {ac : AccessCategory}
    (hq : s.queues ac ≠ []) : s.nextPollAt.isSome := by
  obtain ⟨b, hb⟩ := Option.isSome_iff_exists.mp (h.armed ac hq)
  have hresume := h.running hbusy ac b hb
  unfold EdcaState.nextPollAt
  rw [if_neg (by rw [hbusy]; exact Bool.false_ne_true), isSome_foldl_earlier]
  refine .inr ⟨ac, List.mem_filter.mpr ⟨?_, ?_⟩, ?_⟩
  · cases ac <;> decide
  · simpa [List.isEmpty_iff] using hq
  · rw [hb, Option.bind_some, Backoff.dueAt, Option.isSome_map]
    exact hresume

lemma isSome_resumeAt_arm (hbusy : s.busy = false) (ac : AccessCategory) (slots : ℕ) :
    (s.arm now ac slots).resumeAt.isSome := by
  unfold arm
  simp only [hbusy, Bool.false_eq_true, if_false]
  split <;> rfl

lemma isSome_resumeAt_tick (b : Backoff) :
    (b.tick now).resumeAt.isSome ↔ b.resumeAt.isSome := by
  unfold Backoff.tick
  cases hb : b.resumeAt with
  | none => simp [hb]
  | some resume =>
    dsimp only
    split_ifs <;> simp [hb]

/-- A queued frame has a countdown. -/
lemma Armed.enqueue (h : s.Armed) (depth : ℕ) (sdu : MacSdu) (ac : AccessCategory) :
    (s.enqueue depth now draw sdu ac).2.Armed := by
  unfold EdcaState.enqueue
  dsimp only
  split
  · exact ⟨h.armed, h.running⟩
  · split
    · next b hb =>
      refine ⟨fun ac' hq => ?_, h.running⟩
      by_cases heq : ac' = ac
      · rw [heq]
        exact Option.isSome_iff_exists.mpr ⟨b, hb⟩
      · simp only [Function.update_of_ne heq] at hq
        exact h.armed ac' hq
    · refine ⟨fun ac' hq => ?_, fun hbusy ac' b hb' => ?_⟩
      · by_cases heq : ac' = ac
        · subst heq
          simp only [Function.update_self, Option.isSome_some]
        · simp only [Function.update_of_ne heq] at hq ⊢
          exact h.armed ac' hq
      · by_cases heq : ac' = ac
        · subst heq
          simp only [Function.update_self, Option.mem_def, Option.some.injEq] at hb'
          rw [← hb']
          exact isSome_resumeAt_arm hbusy ac' _
        · simp only [Function.update_of_ne heq] at hb'
          exact h.running hbusy ac' b hb'

/-- Countdowns are frozen while the medium is busy, and go on when it becomes idle. -/
lemma Armed.onCca (h : s.Armed) (cca : CcaState) : (s.onCca now cca).Armed := by
  unfold EdcaState.onCca
  cases cca with
  | busy =>
    dsimp only
    split
    · exact h
    · exact ⟨fun ac hq => by simpa using h.armed ac hq, fun hbusy => absurd hbusy (by simp)⟩
  | idle =>
    dsimp only
    split
    · refine ⟨fun ac hq => by simpa using h.armed ac hq, fun _ ac b hb => ?_⟩
      obtain ⟨b', -, rfl⟩ := Option.map_eq_some_iff.mp hb
      rfl
    · split <;> exact ⟨h.armed, h.running⟩

/-- A grant leaves the frames behind it a countdown. -/
lemma Armed.poll (h : s.Armed) : (s.poll now draw).2.2.Armed := by
  cases hbusy : s.busy with
  | true =>
    unfold EdcaState.poll
    rw [if_pos hbusy]
    exact h
  | false =>
    have harmed : ∀ ac, s.queues ac ≠ [] → (s.ticked now ac).isSome := by
      intro ac hq
      have := h.armed ac hq
      unfold ticked
      split
      · exact this
      · rwa [Option.isSome_map]
    have hrunning : ∀ ac, ∀ b ∈ s.ticked now ac, b.resumeAt.isSome := by
      intro ac b hb
      unfold ticked at hb
      split at hb
      · exact h.running hbusy ac b hb
      · obtain ⟨b', hb', rfl⟩ := Option.map_eq_some_iff.mp hb
        exact (isSome_resumeAt_tick b').mpr (h.running hbusy ac b' hb')
    rw [poll_eq hbusy]
    split
    · exact ⟨harmed, fun _ => hrunning⟩
    · next ac due _ =>
      split
      · exact ⟨harmed, fun _ => hrunning⟩
      · next sdu queued hqueue =>
        refine ⟨fun ac' hq => ?_, fun _ ac' b hb => ?_⟩
        · by_cases heq : ac' = ac
          · subst heq
            simp only [Function.update_self] at hq ⊢
            rw [if_neg (by simpa [List.isEmpty_iff] using hq)]
            rfl
          · simp only [Function.update_of_ne heq] at hq ⊢
            exact harmed ac' hq
        · by_cases heq : ac' = ac
          · subst heq
            simp only [Function.update_self] at hb
            split at hb
            · cases hb
            · exact Option.mem_some_iff.mp hb ▸ rfl
          · simp only [Function.update_of_ne heq] at hb
            exact hrunning ac' b hb

end EdcaState

/-- Every node on every channel is armed, whatever is called. -/
lemma edca_armed (depth : ℕ) (draws : ℕ → ℕ → UInt64) (calls : List Timed) :
    ∀ key, ((Mealy.run (edcaStep depth draws) edcaInit calls).nodes key).Armed := by
  refine Mealy.run_induction (P := fun s : Contention EdcaState => ∀ key, (s.nodes key).Armed)
    (fun s c h => ?_)
    (fun key => ⟨fun ac hq => absurd rfl hq, fun _ ac b hb => absurd hb (Option.not_mem_none b)⟩) calls
  have hupdate {key : ℕ × ℕ} {state : EdcaState} (hstate : state.Armed) :
      ∀ key', (Function.update s.nodes key state key').Armed := by
    intro key'
    by_cases heq : key' = key
    · subst heq
      rwa [Function.update_self]
    · rw [Function.update_of_ne heq]
      exact h key'
  unfold edcaStep
  cases c.call with
  | enqueue sdu ac =>
    dsimp only
    split
    · exact h
    · exact hupdate ((h _).enqueue depth sdu ac)
  | onCca channel cca => exact hupdate ((h _).onCca cca)
  | onTxDone channel start stop => exact hupdate ⟨(h _).armed, (h _).running⟩
  | poll channel => exact hupdate (h _).poll

/-! ## The slotted abstraction -/

lemma SlottedState.isSome_nextPollAt {s : SlottedState} (hq : s.queue ≠ [])
    (hbusy : s.busy = false) :
    s.nextPollAt.isSome := by
  unfold SlottedState.nextPollAt
  rw [if_neg (by rw [hbusy]; exact Bool.false_ne_true), Option.isSome_map, List.isSome_head?]
  simpa [List.isEmpty_iff] using hq

/-! ## Sensing-based scheduling -/

namespace Book

variable {e : SpsEngine} {now : SimTime} {nowSlot : ℕ} {b b' : Book}
  {g : Option (TxGrant × SlGrantInfo)}

/-- A UE has a reservation or owes a retransmission. -/
def Covered (b : Book) : Prop := b.reservation.isSome ∨ b.pendingRetx ≠ []

/-- A poll does not use up what the UE has booked: a frame that is queued when a retransmission is
due has a reservation or a later retransmission, and the last transmission of a reservation leaves
no other frame. -/
structure Lasting (nowSlot : ℕ) (b : Book) : Prop where
  retx : b.queue ≠ [] → (∃ p ∈ b.pendingRetx, p.resource.slot = nowSlot) →
    b.reservation.isSome ∨ ∃ p ∈ b.pendingRetx, nowSlot < p.resource.slot
  last : ∀ r ∈ b.reservation, r.fires nowSlot = true → r.rriSlots = 0 ∨ r.cResel ≤ 1 →
    b.queue.length ≤ 1

instance (nowSlot : ℕ) (b : Book) : Decidable (b.Lasting nowSlot) :=
  decidable_of_iff
    ((b.queue ≠ [] → (∃ p ∈ b.pendingRetx, p.resource.slot = nowSlot) →
      b.reservation.isSome ∨ ∃ p ∈ b.pendingRetx, nowSlot < p.resource.slot) ∧
      ∀ r ∈ b.reservation, r.fires nowSlot = true → r.rriSlots = 0 ∨ r.cResel ≤ 1 →
        b.queue.length ≤ 1)
    ⟨fun h => ⟨h.1, h.2⟩, fun h => ⟨h.retx, h.last⟩⟩

/-- A reservation that fires, and is not for the last time if it is the one that was there
before. -/
lemma Booked.lasts {reservation : Option Reservation} (h : Booked e nowSlot b reservation)
    (ht1 : 0 < e.params.t1Slots)
    (hlast : ∀ r ∈ b.reservation, r.fires nowSlot = true → ¬ (r.rriSlots = 0 ∨ r.cResel ≤ 1))
    {r : Reservation} (hr : r ∈ reservation) (hslot : r.nextSlot = nowSlot) :
    0 < r.rriSlots ∧ 2 ≤ r.cResel := by
  rcases h.origin r hr with ⟨r₀, hr₀, rfl | rfl⟩ | ⟨len, hsel⟩
  · have := hlast _ hr₀ (fires_of_eq hslot)
    omega
  · have := hlast r₀ hr₀ (fires_rolled r₀ ▸ fires_of_eq hslot)
    rw [r₀.rolled_eq]
    dsimp only
    omega
  · have := hsel.first_le
    omega

/-- **After a poll, a queued frame is covered**, unless the poll used up what the UE had booked. -/
lemma Polled.covered (h : Polled e now b g b') (hlasting : b.Lasting (e.pool.slotOf now))
    (ht1 : 0 < e.params.t1Slots) (hwindow : e.params.t1Slots ≤ e.params.t2Slots)
    (hfits : ∀ q ∈ b.queue, (e.pool.subchannelsFor q.1.frame.bytes).isSome) (hq : b'.queue ≠ []) :
    b'.Covered := by
  cases h with
  | @retransmitted p _ _ hdue _ =>
    obtain ⟨hreservation, hqueue⟩ := hdue.reservation_eq
    rw [hqueue] at hq
    cases hdue with
    | granted _ hp =>
      obtain ⟨hmem, hslot⟩ := mem_of_due hp
      rcases hlasting.retx hq ⟨p, (List.mem_filter.mp hmem).1, hslot⟩ with hres | ⟨q, hq', hlt⟩
      · exact .inl hres
      · refine .inr (List.ne_nil_of_mem (a := q) ?_)
        refine (List.mem_eraseP_of_neg (by simpa using Nat.ne_of_gt hlt)).mpr ?_
        refine List.mem_filter.mpr ⟨hq', ?_⟩
        simpa using le_of_lt hlt
  | @served b₁ _ n reservation _ hdue hbooked hfired =>
    obtain ⟨hreservation, hqueue⟩ := hdue.reservation_eq
    have hsub : ∀ q ∈ (b₁.expire n).queue, q ∈ b.queue := by
      intro q hq
      have := List.mem_of_mem_drop hq
      rw [hqueue] at this
      exact this
    have hlength : (b₁.expire n).queue.length ≤ b.queue.length := by
      have : b₁.queue.length = b.queue.length := congrArg List.length hqueue
      simp only [Book.expire, List.length_drop]
      omega
    -- a frame behind the first one makes the reservation last
    have hnext {r : Reservation} {q : MacSdu × Pppp} {queue : List (MacSdu × Pppp)}
        (hr : r ∈ reservation) (hslot : r.nextSlot = e.pool.slotOf now)
        (hfirst : (b₁.expire n).queue = q :: queue) (hrest : queue ≠ []) :
        0 < r.rriSlots ∧ 2 ≤ r.cResel := by
      have hpos := List.length_pos_iff.mpr hrest
      rw [hfirst, List.length_cons] at hlength
      refine hbooked.lasts ht1 (fun r₀ hr₀ hfires hend => ?_) hr hslot
      have := hlasting.last r₀ (hreservation ▸ hr₀) hfires hend
      omega
    cases hfired with
    | idle =>
      obtain ⟨q, queue, hcons⟩ := List.exists_cons_of_ne_nil hq
      have hhead : (b₁.expire n).queue = q :: queue := hcons
      have hmem : q ∈ (b₁.expire n).queue := hhead ▸ List.mem_cons_self ..
      exact .inl (hbooked.isSome q (by rw [hhead]; rfl) (hfits q (hsub q hmem)) hwindow)
    | dropped hr hslot hfirst _ hkept =>
      have hlasts := hnext hr hslot hfirst hq
      exact .inl (hkept hlasts.1 hlasts.2)
    | granted hr hslot hfirst _ hkept _ _ _ =>
      have hlasts := hnext hr hslot hfirst hq
      exact .inl (hkept hlasts.1 hlasts.2)

/-- A poll only takes frames out of the queue. -/
lemma Polled.mem_queue (h : Polled e now b g b') : ∀ q ∈ b'.queue, q ∈ b.queue := by
  intro q hq
  cases h with
  | retransmitted hdue _ =>
    rw [hdue.reservation_eq.2] at hq
    exact hq
  | @served b₁ _ n reservation _ hdue _ hfired =>
    have hsub : ∀ q ∈ b₁.queue.drop n, q ∈ b.queue := by
      intro q hq
      have := List.mem_of_mem_drop hq
      rw [hdue.reservation_eq.2] at this
      exact this
    cases hfired with
    | idle => exact hsub q hq
    | dropped _ _ hfirst _ _ =>
      have hfirst : b₁.queue.drop n = _ := hfirst
      exact hsub q (hfirst ▸ List.mem_cons_of_mem _ hq)
    | granted _ _ hfirst _ _ _ _ _ =>
      have hfirst : b₁.queue.drop n = _ := hfirst
      exact hsub q (hfirst ▸ List.mem_cons_of_mem _ hq)

end Book

namespace SpsEngine

open Book

variable {e : SpsEngine} {b b' : Book} {a a' : Account}

lemma isSome_nextGrantAt (u : UeState) :
    (e.nextGrantAt u).isSome ↔
      u.pendingRetx ≠ [] ∨ u.queue ≠ [] ∧ u.reservation.isSome := by
  unfold nextGrantAt
  rw [Option.isSome_map, Option.isSome_iff_ne_none, ne_eq, List.min?_eq_none_iff,
    List.append_eq_nil_iff, Option.toList_eq_nil_iff, Option.toList_eq_nil_iff,
      List.min?_eq_none_iff,
    List.map_eq_nil_iff, not_and_or]
  cases hq : u.queue with
  | nil => simp
  | cons q queue => cases u.reservation <;> simp

/-- A poll does not use up what the UE has booked. -/
def Spares (e : SpsEngine) (b : Book) (c : SpsTimed) : Prop :=
  c.call = .poll → b.Lasting (e.pool.slotOf c.now)

instance (e : SpsEngine) (b : Book) (c : SpsTimed) : Decidable (e.Spares b c) :=
  inferInstanceAs (Decidable (_ → _))

/-- Whether a frame was handed down since the last poll. -/
def awaitsPoll (cs : List SpsTimed) : Bool :=
  cs.foldl (fun awaits c =>
    match c.call with
    | .enqueue _ _ => true
    | .poll => false
    | _ => awaits) false

/-- A queued frame is covered or awaits a poll, and fits the pool. -/
structure Waking (e : SpsEngine) (cs : List SpsTimed) (b : Book) : Prop where
  fits : ∀ q ∈ b.queue, (e.pool.subchannelsFor q.1.frame.bytes).isSome
  covered : b.queue ≠ [] → b.Covered ∨ awaitsPoll cs = true

lemma awaitsPoll_concat {cs : List SpsTimed} {c : SpsTimed} (hc : c.call ≠ .poll)
    (h : awaitsPoll cs = true) : awaitsPoll (cs ++ [c]) = true := by
  rw [awaitsPoll, List.foldl_append, List.foldl_cons, List.foldl_nil]
  unfold awaitsPoll at h
  rw [h]
  cases hcall : c.call <;> first | rfl | exact absurd hcall hc

/-- A turn keeps queued frames covered, or waiting for a poll. -/
lemma Waking.turn {cs : List SpsTimed} {c : SpsTimed} (h : e.Waking cs b)
    (ht1 : 0 < e.params.t1Slots) (hwindow : e.params.t1Slots ≤ e.params.t2Slots)
    (hspares : e.Spares b c) (hturn : Turn e c.now b a c.call b' a') : e.Waking (cs ++ [c]) b' := by
  have hsame (hc : c.call ≠ .poll) (hq : b.queue ≠ []) :
      b.Covered ∨ awaitsPoll (cs ++ [c]) = true :=
    (h.covered hq).imp_right (awaitsPoll_concat hc)
  generalize hcall : c.call = call at hturn
  cases hturn with
  | still => exact ⟨h.fits, hsame (hcall ▸ by assumption)⟩
  | accepted sdu ac hfit =>
    refine ⟨fun q hq => ?_, fun _ => .inr ?_⟩
    · rcases List.mem_append.mp hq with hq | hq
      · exact h.fits q hq
      · exact List.mem_singleton.mp hq ▸ hfit
    · rw [awaitsPoll, List.foldl_append, List.foldl_cons, List.foldl_nil, hcall]
  | polled hpolled =>
    exact ⟨fun q hq => h.fits q (hpolled.mem_queue q hq),
      fun hq => .inl (hpolled.covered (hspares hcall) ht1 hwindow h.fits hq)⟩
  | tookExpired => exact ⟨h.fits, hsame (by rw [hcall]; simp)⟩
  | tookAbandoned => exact ⟨h.fits, hsame (by rw [hcall]; simp)⟩
  | tookCcDropped => exact ⟨h.fits, hsame (by rw [hcall]; simp)⟩

/-- A call that is not a poll takes no wake-up away. -/
lemma isSome_nextGrantAt_ueStep {draws : ℕ → UInt64} {node : ℕ} {u : UeState} {c : SpsTimed}
    (hc : c.call ≠ .poll) (h : (e.nextGrantAt u).isSome) :
    (e.nextGrantAt (e.ueStep draws node u c).2).isSome := by
  have hturn := turn draws node u c Account.empty (e := e)
  generalize Account.empty.note c (e.ueStep draws node u c).1 = a' at hturn
  rw [isSome_nextGrantAt] at h ⊢
  change u.book.pendingRetx ≠ [] ∨ u.book.queue ≠ [] ∧ u.book.reservation.isSome at h
  change (e.ueStep draws node u c).2.book.pendingRetx ≠ [] ∨
    (e.ueStep draws node u c).2.book.queue ≠ [] ∧ (e.ueStep draws node u c).2.book.reservation.isSome
  generalize (e.ueStep draws node u c).2.book = b' at hturn ⊢
  generalize c.call = call at hturn hc
  cases hturn with
  | still => exact h
  | accepted => exact h.imp_right fun h => ⟨by simp, h.2⟩
  | polled => exact absurd rfl hc
  | tookExpired => exact h
  | tookAbandoned => exact h
  | tookCcDropped => exact h

lemma isSome_nextGrantAt_run (e : SpsEngine) (draws : ℕ → ℕ → UInt64) (calls : List SpsTimed)
    (ht1 : 0 < e.params.t1Slots) (hwindow : e.params.t1Slots ≤ e.params.t2Slots)
    (hspares : Mealy.Always (e.step draws) (fun s c => e.Spares (s c.node).book c) e.init calls)
    (node : ℕ) (hq : (Mealy.run (e.step draws) e.init calls node).queue ≠ []) :
    (e.nextGrantAt (Mealy.run (e.step draws) e.init calls node)).isSome ∨
      awaitsPoll (callsOf node calls) = true := by
  have hrun := turn_induction (e := e) (G := e.Spares) (P := fun cs b _ => e.Waking cs b)
    (a := Account.empty)
    (fun cs c b a b' a' h hspares hturn => h.turn ht1 hwindow hspares hturn) node
    ⟨fun q hq => absurd hq (List.not_mem_nil), fun hq => absurd rfl hq⟩ calls hspares
  refine (hrun.covered hq).imp_left fun hcovered => isSome_nextGrantAt _ |>.mpr ?_
  exact hcovered.symm.imp_right fun hres => ⟨hq, hres⟩

end SpsEngine

/-! ## All three -/

/-- **Queued frames wake their node.** In every run of the contention models, a frame that is queued
while the medium is not busy has an instant to be polled for. In every run of sensing-based
scheduling whose polls do not use up what the UE has booked, a queued frame has one too, or it was
handed down since the last poll; and no call but a poll takes one away. -/
theorem queued_frames_wake :
    (∀ (depth : ℕ) (draws : ℕ → ℕ → UInt64) (calls : List Timed) (key : ℕ × ℕ) (ac : AccessCategory),
      let s := (Mealy.run (edcaStep depth draws) edcaInit calls).nodes key
      s.queues ac ≠ [] → s.busy = false → s.nextPollAt.isSome) ∧
    (∀ (depth : ℕ) (draws : ℕ → ℕ → UInt64) (calls : List Timed) (key : ℕ × ℕ),
      let s := (Mealy.run (slottedStep depth draws) ⟨fun _ => SlottedState.default, fun _ => 0⟩
        calls).nodes key
      s.queue ≠ [] → s.busy = false → s.nextPollAt.isSome) ∧
    ∀ (e : SpsEngine) (draws : ℕ → ℕ → UInt64) (calls : List SpsTimed), 0 < e.params.t1Slots →
      e.params.t1Slots ≤ e.params.t2Slots →
      Mealy.Always (e.step draws) (fun s c => e.Spares (s c.node).book c) e.init calls →
      ∀ node,
        let s := Mealy.run (e.step draws) e.init calls
        ((s node).queue ≠ [] → (e.nextGrantAt (s node)).isSome ∨
          SpsEngine.awaitsPoll (SpsEngine.callsOf node calls) = true) ∧
        ∀ c, c.call ≠ .poll → (e.nextGrantAt (s node)).isSome →
          (e.nextGrantAt ((e.step draws s c).2 node)).isSome := by
  refine ⟨fun depth draws calls key ac hq hbusy => ?_, fun depth draws calls key hq hbusy => ?_,
    fun e draws calls ht1 hwindow hspares node => ⟨fun hq => ?_, fun c hc hsome => ?_⟩⟩
  · exact (edca_armed depth draws calls key).nextPollAt hbusy hq
  · exact SlottedState.isSome_nextPollAt hq hbusy
  · exact SpsEngine.isSome_nextGrantAt_run e draws calls ht1 hwindow hspares node hq
  · unfold SpsEngine.step
    by_cases hnode : c.node = node
    · subst hnode
      rw [Mealy.family_self]
      exact SpsEngine.isSome_nextGrantAt_ueStep hc hsome
    · rw [Mealy.family_of_ne _ _ _ hnode]
      exact hsome

/-- Two frames are handed down, and the node is polled. -/
def twoQueued : List SpsTimed :=
  [⟨0, 0, .enqueue (SpsEngine.block 1 190 0) .vi⟩, ⟨0, 0, .enqueue (SpsEngine.block 2 190 0) .vi⟩,
    ⟨0, 0, .poll⟩, ⟨1000000, 0, .poll⟩]

/-- One of two frames is granted, and the other one has an instant. -/
theorem queued_frames_wake_two :
    ((SpsEngine.lteRetx.nextGrantAt (Mealy.run (SpsEngine.lteRetx.step SpsEngine.crossing)
        SpsEngine.lteRetx.init twoQueued 0)).isSome ∨
      SpsEngine.awaitsPoll (SpsEngine.callsOf 0 twoQueued) = true) ∧
      SpsEngine.awaitsPoll (SpsEngine.callsOf 0 twoQueued) = false :=
  ⟨(queued_frames_wake.2.2 SpsEngine.lteRetx SpsEngine.crossing twoQueued (by decide) (by decide)
    (by decide +kernel) 0).1 (by decide +kernel), by decide⟩

/-- A frame handed down to a node that has booked nothing has no instant before the next poll. -/
theorem not_waking_before_poll :
    let s := Mealy.run (SpsEngine.lteRetx.step SpsEngine.crossing) SpsEngine.lteRetx.init
      [⟨0, 0, .enqueue (SpsEngine.block 1 190 0) .vi⟩]
    (s 0).queue ≠ [] ∧ SpsEngine.lteRetx.nextGrantAt (s 0) = none := by
  decide +kernel

end V2xw.Radio
