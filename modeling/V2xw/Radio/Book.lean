import V2xw.Radio.Selection

/-!
# The books of a UE

Measurements decide *which* of its options a UE takes, not what the options are. Without them, a UE
is what it has queued, booked and owes, and a poll is a relation on these books. The model refines
it.

## Main definitions

* `Book` — what a UE has queued, booked, owes, and has to hand out.
* `Book.Due` — what a poll may do with a retransmission that is due.
* `Book.Fired` — what a poll may do with a reservation.
* `Book.Polled` — what a poll may do.
* `Account` — what the caller of a UE has been told.
* `Turn` — what a call may do to the books and the account.

## Main results

* `SpsEngine.polled` — a poll of the model is a poll of its books.
* `SpsEngine.turn` — a call on the model is a turn of its books and the account.
-/

namespace V2xw.Radio

open Core (SimTime Duration)

/-! ## Books -/

/-- What a UE has queued, booked, owes, and has to hand out. -/
structure Book where
  reservation : Option Reservation
  queue : List (MacSdu × Pppp)
  pendingRetx : List PendingRetx
  abandoned : List MacSdu
  ccDropped : List MacSdu
  expired : List MacSdu

/-- The books of a UE. -/
def UeState.book (u : UeState) : Book :=
  ⟨u.reservation, u.queue, u.pendingRetx, u.abandoned, u.ccDropped, u.expired⟩

/-- The reference of the transport block a retransmission is of. -/
def PendingRetx.ref (p : PendingRetx) : SduRef := p.sdu.frame.sduRef

/-- A reservation after it was used and kept. -/
def Reservation.Next (r r' : Reservation) : Prop :=
  0 < r.rriSlots ∧ ∃ cResel, r' = { r with nextSlot := r.nextSlot + r.rriSlots, cResel }

/-- A grant is of a transmission of a transport block on a resource. -/
structure Grants (now : SimTime) (sdu : MacSdu) (attempt : ℕ) (resource : SlResource)
    (g : TxGrant × SlGrantInfo) : Prop where
  sdu_eq : g.1.sdu = sdu
  time_eq : g.1.time = now
  attempt_eq : g.1.attempt = attempt
  resource_eq : g.2.resource = resource

namespace Book

/-- The blocks of which a retransmission is among some, each once. -/
def blocksOf (missed : List PendingRetx) : List MacSdu :=
  missed.foldl (fun (gone : List MacSdu) p =>
    if gone.any fun g => g.frame.sduRef == p.sdu.frame.sduRef then gone else gone ++ [p.sdu]) []

/-- Retransmissions whose slot has passed are given up. -/
def missed (nowSlot : ℕ) (b : Book) : Book :=
  { b with
    pendingRetx := b.pendingRetx.filter fun p => !decide (p.resource.slot < nowSlot)
    abandoned :=
      b.abandoned ++ blocksOf (b.pendingRetx.filter fun p => decide (p.resource.slot < nowSlot)) }

/-- The first retransmission that is due. -/
def due (nowSlot : ℕ) (b : Book) : Option PendingRetx :=
  b.pendingRetx.find? fun p => p.resource.slot == nowSlot

/-- The retransmissions without the first that is due. -/
def notDue (nowSlot : ℕ) (b : Book) : List PendingRetx :=
  b.pendingRetx.eraseP fun p => p.resource.slot == nowSlot

/-- What may happen to a retransmission that is due. -/
inductive Due (nowSlot : ℕ) (b : Book) : Option PendingRetx → Book → Prop
  | nothing : b.due nowSlot = none → Due nowSlot b none b
  | dropped (p : PendingRetx) : b.due nowSlot = some p → Due nowSlot b none { b with
      pendingRetx := (b.notDue nowSlot).filter fun q => q.ref != p.ref
      abandoned := b.abandoned ++ [p.sdu] }
  | granted (p : PendingRetx) : b.due nowSlot = some p →
      Due nowSlot b (some p) { b with pendingRetx := b.notDue nowSlot }

/-- Some of the oldest transport blocks are dropped for their age. -/
def expire (n : ℕ) (b : Book) : Book :=
  { b with queue := b.queue.drop n, expired := b.expired ++ (b.queue.take n).map Prod.fst }

/-- What may be booked for a transport block: what was booked, rolled forward, or what a selection
books. -/
structure Booked (e : SpsEngine) (nowSlot : ℕ) (b : Book) (reservation : Option Reservation) :
    Prop where
  origin : ∀ r ∈ reservation, (∃ r₀ ∈ b.reservation, r = r₀ ∨ r = r₀.rolled nowSlot) ∨
    ∃ len, e.Selected nowSlot len r
  isSome : ∀ q ∈ b.queue.head?, (e.pool.subchannelsFor q.1.frame.bytes).isSome →
    e.params.t1Slots ≤ e.params.t2Slots → reservation.isSome

/-- The retransmissions that a grant of a first transmission announces. -/
def owed (r : Reservation) (keep : ℕ) (sdu : MacSdu) (pppp : Pppp) : List PendingRetx :=
  ((r.periodResources.tail.take keep).zipIdx 2).map fun x => ⟨x.1, sdu, pppp, x.2, 1 + keep⟩

/-- What may happen where a reservation fires. -/
inductive Fired (now : SimTime) (nowSlot : ℕ) (b : Book) : Option (TxGrant × SlGrantInfo) → Book → Prop
  | idle : Fired now nowSlot b none b
  | dropped {r : Reservation} {q : MacSdu × Pppp} {queue : List (MacSdu × Pppp)}
      {next : Option Reservation} : b.reservation = some r → r.nextSlot = nowSlot →
      b.queue = q :: queue → (∀ r' ∈ next, r.Next r') →
      (0 < r.rriSlots → 2 ≤ r.cResel → next.isSome) →
      Fired now nowSlot b none { b with
        reservation := next, queue, ccDropped := b.ccDropped ++ [q.1] }
  | granted {r : Reservation} {q : MacSdu × Pppp} {queue : List (MacSdu × Pppp)}
      {next : Option Reservation} {g : TxGrant × SlGrantInfo} {keep : ℕ}
        {pending : List PendingRetx} :
      b.reservation = some r → r.nextSlot = nowSlot → b.queue = q :: queue →
        (∀ r' ∈ next, r.Next r') →
      (0 < r.rriSlots → 2 ≤ r.cResel → next.isSome) →
      Grants now q.1 1 r.resource g → g.2.announced = r.periodResources.take (1 + keep) →
      pending.Perm (b.pendingRetx ++ owed r keep q.1 q.2) →
      Fired now nowSlot b (some g) { b with reservation := next, queue, pendingRetx := pending }

/-- What a poll may do. -/
inductive Polled (e : SpsEngine) (now : SimTime) (b : Book) :
    Option (TxGrant × SlGrantInfo) → Book → Prop
  | retransmitted {p : PendingRetx} {g : TxGrant × SlGrantInfo} {b' : Book} :
      Due (e.pool.slotOf now) (b.missed (e.pool.slotOf now)) (some p) b' →
      Grants now p.sdu p.attempt p.resource g → Polled e now b (some g) b'
  | served {b₁ b' : Book} {n : ℕ} {reservation : Option Reservation}
      {g : Option (TxGrant × SlGrantInfo)} :
      Due (e.pool.slotOf now) (b.missed (e.pool.slotOf now)) none b₁ →
      Booked e (e.pool.slotOf now) (b₁.expire n) reservation →
      Fired now (e.pool.slotOf now) { b₁.expire n with reservation } g b' → Polled e now b g b'

end Book

/-! ## Rolling forward -/

lemma Reservation.rolled_eq (r : Reservation) (nowSlot : ℕ) :
    r.rolled nowSlot = { r with nextSlot := (r.rolled nowSlot).nextSlot } := by
  unfold rolled
  split <;> rfl

lemma Reservation.rolled_of_le {r : Reservation} {nowSlot : ℕ} (h : nowSlot ≤ r.nextSlot) :
    r.rolled nowSlot = r := by
  unfold rolled
  split
  · next hpos =>
    rw [(rollLoop r.rriSlots nowSlot hpos).run_of_none (if_neg (not_lt.mpr h))]
  · rfl

lemma Reservation.rolled_rolled (r : Reservation) (nowSlot : ℕ) :
    (r.rolled nowSlot).rolled nowSlot = r.rolled nowSlot := by
  by_cases hpos : 0 < r.rriSlots
  · refine rolled_of_le (not_lt.mp fun hlt => ?_)
    have hnone := (rollLoop r.rriSlots nowSlot hpos).step_run r.nextSlot
    simp only [rolled, dif_pos hpos] at hlt
    simp only [rollLoop, ite_eq_right_iff, reduceCtorEq, imp_false] at hnone
    exact hnone hlt
  · have hr : r.rolled nowSlot = r := dif_neg hpos
    rw [hr, hr]

namespace SpsEngine

variable {e : SpsEngine} {draws : ℕ → UInt64} {node : ℕ} {now : SimTime} {u : UeState}

/-! ## A poll -/

/-- What becomes of a reservation that was used. Nothing else changes but the draws. -/
lemma onTransmitted_eq (draws : ℕ → UInt64) {res : Reservation} (h : u.reservation = some res) :
    ∃ reservation drawn, e.onTransmitted draws u = { u with reservation, drawn } ∧
      (∀ r' ∈ reservation, res.Next r') ∧
      (0 < res.rriSlots → 2 ≤ res.cResel → reservation.isSome) := by
  unfold onTransmitted
  rw [h]
  dsimp only
  split
  · next h0 => exact ⟨none, u.drawn, rfl, fun r' hr' => absurd hr' (Option.not_mem_none r'),
      fun hpos => absurd h0 (Nat.ne_of_gt hpos)⟩
  · next h0 =>
    have hpos := Nat.pos_of_ne_zero h0
    split
    · next hlast =>
      split
      · exact ⟨_, _, rfl, fun r' hr' => ⟨hpos, _, (Option.mem_some_iff.mp hr').symm⟩,
          fun _ _ => rfl⟩
      · exact ⟨none, _, rfl, fun r' hr' => absurd hr' (Option.not_mem_none r'),
          fun _ hmore => absurd hlast (by omega)⟩
    · exact ⟨_, u.drawn, rfl, fun r' hr' => ⟨hpos, _, (Option.mem_some_iff.mp hr').symm⟩,
        fun _ _ => rfl⟩

lemma book_abandonMissed (nowSlot : ℕ) :
    (abandonMissed nowSlot u).book = u.book.missed nowSlot := rfl

/-- What a poll does with a retransmission that is due. -/
lemma retransmit_due (now : SimTime) (u : UeState) :
    ∃ p, Book.Due (e.pool.slotOf now) u.book p (e.retransmit now u).2.book ∧
      ((e.retransmit now u).1.isSome ↔ p.isSome) ∧
      ∀ g ∈ (e.retransmit now u).1, ∀ p' ∈ p, ∃ info, (e.retransmit now u).2.lastGrant = some info ∧
        Grants now p'.sdu p'.attempt p'.resource (g, info) := by
  unfold retransmit
  dsimp only
  split
  · next h =>
    exact ⟨none, .nothing h, Iff.rfl, fun g hg => absurd hg (Option.not_mem_none g)⟩
  · next p h =>
    split
    · exact ⟨none, .dropped p h, Iff.rfl, fun g hg => absurd hg (Option.not_mem_none g)⟩
    · refine ⟨some p, .granted p h, Iff.rfl, fun g hg p' hp' => ?_⟩
      obtain rfl := Option.mem_some_iff.mp hg
      obtain rfl := Option.mem_some_iff.mp hp'
      exact ⟨_, rfl, rfl, rfl, rfl, rfl⟩

lemma book_dropExpired (nowSlot : ℕ) (u : UeState) :
    ∃ n, (e.dropExpired nowSlot u).book = u.book.expire n := by
  refine ⟨(u.queue.takeWhile fun q =>
    decide (e.pool.slotOf q.1.enqueuedAt + e.latencyBudgetSlots < nowSlot)).length, ?_⟩
  have htake := List.prefix_iff_eq_take.mp (List.takeWhile_prefix (l := u.queue) fun q =>
    decide (e.pool.slotOf q.1.enqueuedAt + e.latencyBudgetSlots < nowSlot))
  simp only [dropExpired, UeState.book, Book.expire]
  rw [← htake]

lemma reservation_of_selectionReason {nowSlot len : ℕ} {sdu : MacSdu}
    (h : e.selectionReason nowSlot len sdu u = none) : u.reservation.isSome := by
  unfold selectionReason at h
  split at h
  · cases h
  · next hr => rw [hr]; rfl

/-- What is booked for a transport block. Nothing else changes but the last selection and the
draws. -/
lemma reselect_eq (draws : ℕ → UInt64) (node nowSlot len : ℕ) (sdu : MacSdu) (u : UeState) :
    ∃ reservation lastSelection drawn,
      e.reselect draws node nowSlot len sdu u = { u with reservation, lastSelection, drawn } ∧
        (∀ r ∈ reservation, u.reservation = some r ∨ e.Selected nowSlot len r) ∧
        (e.candidates nowSlot len ≠ [] → reservation.isSome) := by
  unfold reselect
  split
  · next h =>
    exact ⟨u.reservation, u.lastSelection, u.drawn, rfl, fun r hr => .inl hr,
      fun _ => reservation_of_selectionReason h⟩
  · next reason h =>
    obtain ⟨reservation, lastSelection, drawn, heq, hres⟩ :=
      select_eq (e := e) draws node nowSlot len reason { u with reservation := none }
    refine ⟨reservation, lastSelection, drawn, heq, fun r hr => .inr ?_, fun hne => ?_⟩
    · rcases hres with hnone | ⟨r', hr', hsel⟩
      · rw [hnone] at hr
        exact absurd hr (Option.not_mem_none r)
      · rw [hr', Option.mem_some_iff] at hr
        exact hr ▸ hsel
    · have hsome := select_isSome (e := e) draws node reason { u with reservation := none } hne
      rwa [heq] at hsome

/-- What a poll does where the reservation fires. -/
lemma transmit_fired (draws : ℕ → UInt64) {res : Reservation} {q : MacSdu × Pppp}
    {queue : List (MacSdu × Pppp)}
    (hres : u.reservation = some res) (hslot : res.nextSlot = e.pool.slotOf now)
    (hqueue : u.queue = q :: queue) :
    ∃ g, Book.Fired now (e.pool.slotOf now) u.book g (e.transmit draws now q.1 q.2 res u).2.book ∧
      g = (e.transmit draws now q.1 q.2 res u).1.bind fun grant =>
        (e.transmit draws now q.1 q.2 res u).2.lastGrant.map fun info => (grant, info) := by
  obtain rfl : u.queue.tail = queue := by rw [hqueue]; rfl
  unfold transmit
  dsimp only
  generalize e.retxKeep (e.pool.slotOf now) q.2 res u = keep
  split
  · obtain ⟨next, drawn, heq, hnext, hkept⟩ := onTransmitted_eq (e := e) draws (u := { u with
      ccDroppedRetx := u.ccDroppedRetx + (res.retxCount - keep)
      queue := u.queue.tail
      ccDroppedTb := u.ccDroppedTb + 1
      dropped := u.dropped + 1
      ccDropped := u.ccDropped ++ [q.1] }) hres
    rw [heq]
    exact ⟨none, .dropped hres hslot hqueue hnext hkept, rfl⟩
  · obtain ⟨next, drawn, heq, hnext, hkept⟩ := onTransmitted_eq (e := e) draws (u := { u with
      ccDroppedRetx := u.ccDroppedRetx + (res.retxCount - keep)
      granted := u.granted + 1
      queue := u.queue.tail
      occupancy := use u.occupancy res.resource (e.pool.slotOf now) q.2
      pendingRetx := (u.pendingRetx ++ Book.owed res keep q.1 q.2).insertionSort fun p q =>
        p.resource.slot ≤ q.resource.slot
      lastGrant := some ⟨res.resource, 1, 1 + keep, q.2, e.ccCbr u (e.pool.slotOf now),
        e.crFor (e.pool.slotOf now) q.2 res u keep,
        e.crLimit u (e.pool.slotOf now) q.2, res.periodResources.take (1 + keep)⟩ }) hres
    dsimp only [Book.owed] at heq
    rw [heq]
    exact ⟨_, .granted hres hslot hqueue hnext hkept ⟨rfl, rfl, rfl, rfl⟩ rfl
      (List.perm_insertionSort _ _), rfl⟩

lemma candidates_ne_nil_of_subchannelsFor {bytes len nowSlot : ℕ}
    (h : e.pool.subchannelsFor bytes = some len) (hwindow : e.params.t1Slots ≤ e.params.t2Slots) :
    e.candidates nowSlot len ≠ [] := by
  have hmem := List.mem_range'_1.mp (List.mem_of_find?_eq_some h)
  exact candidates_ne_nil hwindow (by omega) (by omega)

/-- **Refinement.** A poll of the model is a poll of its books. -/
theorem polled (draws : ℕ → UInt64) (node : ℕ) (now : SimTime) (u : UeState) :
    ∃ g, Book.Polled e now u.book g (e.poll draws node now u).2.book ∧
      g = (e.poll draws node now u).1.bind fun grant =>
        (e.poll draws node now u).2.lastGrant.map fun info => (grant, info) := by
  obtain ⟨p, hdue, hiff, hgrants⟩ :=
    retransmit_due (e := e) now (abandonMissed (e.pool.slotOf now) u)
  rw [book_abandonMissed] at hdue
  unfold poll
  dsimp only
  generalize e.retransmit now (abandonMissed (e.pool.slotOf now) u) = sent at hdue hiff hgrants ⊢
  rcases sent with ⟨_ | grant, u₁⟩
  case some =>
    obtain ⟨p', rfl⟩ := Option.isSome_iff_exists.mp (hiff.mp rfl)
    obtain ⟨info, hinfo, hgrant⟩ := hgrants grant rfl p' rfl
    refine ⟨_, .retransmitted hdue hgrant, ?_⟩
    dsimp only at hinfo ⊢
    rw [hinfo]
    rfl
  case none =>
    obtain rfl : p = none := Option.not_isSome_iff_eq_none.mp fun h => absurd (hiff.mpr h) (by simp)
    obtain ⟨n, hexpire⟩ := book_dropExpired (e := e) (e.pool.slotOf now) u₁
    dsimp only at hdue ⊢
    generalize e.dropExpired (e.pool.slotOf now) u₁ = u₂ at hexpire ⊢
    have hserved {reservation : Option Reservation} {g b'}
        (hbooked : Book.Booked e (e.pool.slotOf now) u₂.book reservation)
        (hfired : Book.Fired now (e.pool.slotOf now) { u₂.book with reservation } g b') :
        Book.Polled e now u.book g b' := by
      rw [hexpire] at hbooked hfired
      exact .served hdue hbooked hfired
    have hkept (hno : ∀ q ∈ u₂.queue.head?, ¬ (e.pool.subchannelsFor q.1.frame.bytes).isSome) :
        Book.Booked e (e.pool.slotOf now) u₂.book u₂.reservation :=
      ⟨fun r hr => .inl ⟨r, hr, .inl rfl⟩, fun q hq hfit => absurd hfit (hno q hq)⟩
    split
    · next hqueue =>
      refine ⟨none, hserved (hkept fun q hq => ?_) .idle, rfl⟩
      rw [hqueue] at hq
      cases hq
    · next sdu pppp queue hqueue =>
      split
      · next hfit =>
        refine ⟨none, hserved (hkept fun q hq => ?_) .idle, rfl⟩
        rw [hqueue, List.head?_cons, Option.mem_some_iff] at hq
        rw [← hq, hfit]
        exact Bool.false_ne_true
      · next len hfit =>
        obtain ⟨reservation, lastSelection, drawn, heq, horigin, hsome⟩ := reselect_eq (e := e) draws
          node (e.pool.slotOf now) len sdu (rollForward (e.pool.slotOf now) u₂)
        have hbooked : Book.Booked e (e.pool.slotOf now) u₂.book reservation := by
          refine ⟨fun r hr => ?_, fun _ _ _ hwindow =>
            hsome (candidates_ne_nil_of_subchannelsFor hfit hwindow)⟩
          refine (horigin r hr).imp (fun hold => ?_) fun hsel => ⟨len, hsel⟩
          obtain ⟨r₀, hr₀, rfl⟩ := Option.map_eq_some_iff.mp hold
          exact ⟨r₀, hr₀, .inr rfl⟩
        rw [heq]
        dsimp only
        cases reservation with
        | none => exact ⟨none, hserved hbooked .idle, rfl⟩
        | some res =>
          dsimp only
          split
          · next hslot =>
            obtain ⟨g, hfired, hg⟩ := transmit_fired (e := e) draws (q := (sdu, pppp)) (u := {
              rollForward (e.pool.slotOf now) u₂ with
                reservation := some res, lastSelection, drawn })
              rfl hslot hqueue
            exact ⟨g, hserved hbooked hfired, hg⟩
          · exact ⟨none, hserved hbooked .idle, rfl⟩

end SpsEngine

/-! ## Accounts -/

/-- What the caller of a UE has been told: what was accepted, what was granted, and what was handed
out. -/
structure Account where
  accepted : List MacSdu
  grants : List (TxGrant × SlGrantInfo)
  expired : List MacSdu
  abandoned : List MacSdu
  ccDropped : List MacSdu
  deriving DecidableEq

namespace Account

/-- Nothing told yet. -/
def empty : Account := ⟨[], [], [], [], []⟩

/-- A call was answered. -/
def note (a : Account) (c : SpsTimed) (answer : SpsAnswer) : Account :=
  match c.call, answer with
  | .enqueue sdu _, .queued (.ok _) => { a with accepted := a.accepted ++ [sdu] }
  | .poll, .polled g => { a with grants := a.grants ++ g.toList }
  | .takeExpired, .taken sdus => { a with expired := a.expired ++ sdus }
  | .takeAbandoned, .taken sdus => { a with abandoned := a.abandoned ++ sdus }
  | .takeCcDropped, .taken sdus => { a with ccDropped := a.ccDropped ++ sdus }
  | _, _ => a

end Account

/-- What a call may do to the books and the account. -/
inductive Turn (e : SpsEngine) (now : SimTime) (b : Book) (a : Account) :
    SpsCall → Book → Account → Prop
  | still (call : SpsCall) : call ≠ .poll → Turn e now b a call b a
  | accepted (sdu : MacSdu) (ac : AccessCategory) :
      (e.pool.subchannelsFor sdu.frame.bytes).isSome →
      Turn e now b a (.enqueue sdu ac)
        { b with queue := b.queue ++ [(sdu, Pppp.ofAccessCategory ac)] }
        { a with accepted := a.accepted ++ [sdu] }
  | polled {g : Option (TxGrant × SlGrantInfo)} {b' : Book} : Book.Polled e now b g b' →
      Turn e now b a .poll b' { a with grants := a.grants ++ g.toList }
  | tookExpired : Turn e now b a .takeExpired { b with expired := [] }
      { a with expired := a.expired ++ b.expired }
  | tookAbandoned : Turn e now b a .takeAbandoned { b with abandoned := [] }
      { a with abandoned := a.abandoned ++ b.abandoned }
  | tookCcDropped : Turn e now b a .takeCcDropped { b with ccDropped := [] }
      { a with ccDropped := a.ccDropped ++ b.ccDropped }

namespace SpsEngine

variable {e : SpsEngine}

/-- **Refinement.** A call on the model is a turn of its books and the account. -/
theorem turn (draws : ℕ → UInt64) (node : ℕ) (u : UeState) (c : SpsTimed) (a : Account) :
    Turn e c.now u.book a c.call (e.ueStep draws node u c).2.book
      (a.note c (e.ueStep draws node u c).1) := by
  unfold ueStep Account.note
  cases hcall : c.call with
  | poll =>
    obtain ⟨g, hpolled, hg⟩ := e.polled draws node c.now u
    dsimp only
    rw [← hg]
    exact .polled hpolled
  | enqueue sdu ac =>
    simp only [enqueue]
    cases hfit : e.pool.subchannelsFor sdu.frame.bytes with
    | none => exact .still _ (by simp)
    | some len =>
      by_cases hfull : e.queueDepth ≤ u.queue.length
      · simp only [if_pos hfull]
        exact .still _ (by simp)
      · simp only [if_neg hfull]
        exact .accepted sdu ac (hfit ▸ rfl)
  | onCca => exact .still _ (by simp)
  | onTxDone start => exact .still _ (by simp)
  | noteSensed res rsrpDbm rriSlots => exact .still _ (by simp)
  | noteEnergy slot subch powerDbm => exact .still _ (by simp)
  | noteJammer fromSlot toSlot powerDbm => exact .still _ (by simp)
  | noteTransmitted res => exact .still _ (by simp)
  | prune nowSlot => exact .still _ (by simp)
  | takeExpired => exact .tookExpired
  | takeAbandoned => exact .tookAbandoned
  | takeCcDropped => exact .tookCcDropped

/-- What the caller of a node has been told after some more calls. -/
def accountFrom (e : SpsEngine) (draws : ℕ → ℕ → UInt64) (node : ℕ) (s : ℕ → UeState) (a : Account)
    (calls : List SpsTimed) : Account :=
  Mealy.log (e.step draws) (fun a c answer => if c.node = node then a.note c answer else a) s a calls

/-- What the caller of a node has been told in a run. -/
def account (e : SpsEngine) (draws : ℕ → ℕ → UInt64) (node : ℕ) (calls : List SpsTimed) : Account :=
  e.accountFrom draws node e.init Account.empty calls

lemma account_append (e : SpsEngine) (draws : ℕ → ℕ → UInt64) (node : ℕ)
    (calls more : List SpsTimed) :
    e.account draws node (calls ++ more) =
      e.accountFrom draws node (Mealy.run (e.step draws) e.init calls) (e.account draws node calls)
        more :=
  Mealy.log_append ..

/-- The calls for a node. -/
abbrev callsOf (node : ℕ) (calls : List SpsTimed) : List SpsTimed :=
  Mealy.inputsOf SpsTimed.node node calls

/-- **Invariants of a UE.** What each turn preserves, of the calls so far, the books and the
account, holds after every run, if every call meets a condition on the books it finds. -/
lemma turn_induction {draws : ℕ → ℕ → UInt64} {G : Book → SpsTimed → Prop}
    {P : List SpsTimed → Book → Account → Prop}
    (hstep : ∀ cs c b a b' a', P cs b a → G b c → Turn e c.now b a c.call b' a' →
      P (cs ++ [c]) b' a')
    {s : ℕ → UeState} {a : Account} (node : ℕ) (hinit : P [] (s node).book a) (calls : List SpsTimed)
    (hG : Mealy.Always (e.step draws) (fun s c => G (s c.node).book c) s calls) :
    P (callsOf node calls) (Mealy.run (e.step draws) s calls node).book
      (e.accountFrom draws node s a calls) := by
  have halways := Mealy.Always.of_family SpsTimed.node (fun node => e.ueStep (draws node) node)
    (G := fun _ u c => G u.book c) node calls s hG
  have hrun := Mealy.run_family SpsTimed.node (fun node => e.ueStep (draws node) node) node calls s
  have hlog := Mealy.log_family SpsTimed.node (fun node => e.ueStep (draws node) node) Account.note
    node calls s a
  unfold accountFrom step
  rw [hrun, hlog]
  exact Mealy.log_induction (P := fun cs u a => P cs u.book a)
    (fun cs c u a hP hc => hstep cs c u.book a _ _ hP hc (turn (draws node) node u c a)) hinit _
    halways

end SpsEngine

end V2xw.Radio
