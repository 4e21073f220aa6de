import V2xw.Radio.Book

/-!
# One grant per slot

A UE keeps its reservation apart from the retransmissions it owes, and a selection does not look at
the latter. So two of them can come to lie in one slot, and if the UE is polled there twice, it is
granted twice. As long as this does not happen, a UE is granted at most once per slot, however often
it is polled.

## Main definitions

* `Book.usesOf` — how many of its resources a UE has in a slot.
* `Book.Quiet` — a UE has nothing in a slot.

## Main results

* `Book.Quiet.polled` — a UE with nothing in a slot is not granted there.
* `Book.quiet_of_granted` — after a grant, there is nothing more in the slot.
* `SpsEngine.one_grant_per_slot` — the grants of a UE are in different slots.
-/

namespace V2xw.Radio

open Core (SimTime Duration)

/-- Whether a reservation fires in a slot. -/
def Reservation.fires (nowSlot : ℕ) (r : Reservation) : Bool :=
    (r.rolled nowSlot).nextSlot == nowSlot

namespace Book

/-- How many of its resources a UE has in a slot: retransmissions it owes, and its reservation. -/
def usesOf (nowSlot : ℕ) (b : Book) : ℕ :=
  (b.pendingRetx.countP fun p => p.resource.slot == nowSlot) +
    if b.reservation.any (Reservation.fires nowSlot) then 1 else 0

/-- A UE has nothing in a slot. -/
structure Quiet (nowSlot : ℕ) (b : Book) : Prop where
  pending : ∀ p ∈ b.pendingRetx, p.resource.slot ≠ nowSlot
  reservation : ∀ r ∈ b.reservation, r.fires nowSlot = false

/-- The retransmissions of a UE come in their order. -/
def Ordered (b : Book) : Prop := ∀ r ∈ b.reservation, r.Ordered

variable {e : SpsEngine} {now : SimTime} {nowSlot : ℕ} {b b' : Book}
  {g : Option (TxGrant × SlGrantInfo)}

/-! ## Reservations -/

lemma fires_rolled (r : Reservation) : (r.rolled nowSlot).fires nowSlot = r.fires nowSlot := by
  unfold Reservation.fires
  rw [Reservation.rolled_rolled]

lemma fires_of_lt {r : Reservation} (h : nowSlot < r.nextSlot) : r.fires nowSlot = false := by
  unfold Reservation.fires
  rw [Reservation.rolled_of_le (le_of_lt h)]
  exact beq_false_of_ne (Nat.ne_of_gt h)

lemma fires_of_eq {r : Reservation} (h : r.nextSlot = nowSlot) : r.fires nowSlot = true := by
  unfold Reservation.fires
  rw [Reservation.rolled_of_le (le_of_eq h.symm)]
  exact beq_iff_eq.mpr h

lemma fires_of_next {r r' : Reservation} (h : r.Next r') (hslot : r.nextSlot = nowSlot) :
    r'.fires nowSlot = false := by
  obtain ⟨hpos, cResel, rfl⟩ := h
  refine fires_of_lt ?_
  dsimp only
  omega

lemma Booked.fires {reservation : Option Reservation} (h : Booked e nowSlot b reservation)
    (ht1 : 0 < e.params.t1Slots) (hno : ∀ r ∈ b.reservation, r.fires nowSlot = false) :
    ∀ r ∈ reservation, r.fires nowSlot = false := by
  intro r hr
  rcases h.origin r hr with ⟨r₀, hr₀, rfl | rfl⟩ | ⟨len, hsel⟩
  · exact hno _ hr₀
  · exact (fires_rolled r₀).trans (hno r₀ hr₀)
  · have := hsel.first_le
    exact fires_of_lt (by omega)

lemma Booked.ordered {reservation : Option Reservation} (h : Booked e nowSlot b reservation)
    (hb : b.Ordered) : ∀ r ∈ reservation, r.Ordered := by
  intro r hr
  rcases h.origin r hr with ⟨r₀, hr₀, rfl | rfl⟩ | ⟨len, hsel⟩
  · exact hb _ hr₀
  · rw [r₀.rolled_eq]
    exact hb r₀ hr₀
  · exact hsel.ordered

lemma ordered_of_next {r r' : Reservation} (h : r.Next r') (hr : r.Ordered) : r'.Ordered := by
  obtain ⟨-, cResel, rfl⟩ := h
  exact hr

/-! ## Retransmissions -/

lemma lt_slot_of_mem_owed {r : Reservation} (hr : r.Ordered) {keep : ℕ} {sdu : MacSdu}
    {pppp : Pppp}
    {p : PendingRetx} (h : p ∈ owed r keep sdu pppp) : r.nextSlot < p.resource.slot := by
  obtain ⟨x, hx, rfl⟩ := List.mem_map.mp h
  have hx := List.mem_of_mem_take (List.fst_mem_of_mem_zipIdx hx)
  obtain ⟨y, hy, hxy⟩ := List.mem_map.mp hx
  have := hr.1 y hy
  dsimp only
  rw [← hxy]
  dsimp only
  omega

lemma due_eq_none_iff :
    b.due nowSlot = none ↔ ∀ p ∈ b.pendingRetx, p.resource.slot ≠ nowSlot := by
  simp only [due, List.find?_eq_none, beq_iff_eq, ne_eq]

lemma mem_of_due {p : PendingRetx} (h : b.due nowSlot = some p) :
    p ∈ b.pendingRetx ∧ p.resource.slot = nowSlot := by
  unfold due at h
  have hslot := List.find?_some h
  exact ⟨List.mem_of_find?_eq_some h, beq_iff_eq.mp hslot⟩

/-- Without the only retransmission in a slot, there is none. -/
lemma slot_ne_of_mem_notDue (h : (b.pendingRetx.countP fun p => p.resource.slot == nowSlot) ≤ 1)
    {p : PendingRetx} (hdue : b.due nowSlot = some p) :
    ∀ q ∈ b.notDue nowSlot, q.resource.slot ≠ nowSlot := by
  obtain ⟨hp, hslot⟩ := mem_of_due hdue
  obtain ⟨p', l₁, l₂, -, hp', heq, herase⟩ :=
    List.exists_of_eraseP (p := fun p => p.resource.slot == nowSlot) hp (beq_iff_eq.mpr hslot)
  intro q hq hqslot
  rw [notDue, herase] at hq
  rw [heq, List.countP_append, List.countP_cons, if_pos hp'] at h
  have hpos : 0 < (l₁ ++ l₂).countP fun p => p.resource.slot == nowSlot :=
    List.countP_pos_iff.mpr ⟨q, hq, beq_iff_eq.mpr hqslot⟩
  rw [List.countP_append] at hpos
  omega

lemma usesOf_missed_le : (b.missed nowSlot).usesOf nowSlot ≤ b.usesOf nowSlot :=
  Nat.add_le_add_right (List.filter_sublist.countP_le) _

lemma Quiet.missed (h : b.Quiet nowSlot) : (b.missed nowSlot).Quiet nowSlot :=
  ⟨fun p hp => h.pending p (List.mem_filter.mp hp).1, h.reservation⟩

/-! ## Polls -/

lemma Due.reservation_eq {p : Option PendingRetx} (h : Due nowSlot b p b') :
    b'.reservation = b.reservation ∧ b'.queue = b.queue := by
  cases h <;> exact ⟨rfl, rfl⟩

lemma Due.sublist {p : Option PendingRetx} (h : Due nowSlot b p b') :
    b'.pendingRetx.Sublist b.pendingRetx := by
  cases h with
  | nothing => exact List.Sublist.refl _
  | dropped p => exact List.filter_sublist.trans List.eraseP_sublist
  | granted p => exact List.eraseP_sublist

lemma Due.slot_ne {p : Option PendingRetx} (h : Due nowSlot b p b')
    (hone : (b.pendingRetx.countP fun p => p.resource.slot == nowSlot) ≤ 1) :
    ∀ q ∈ b'.pendingRetx, q.resource.slot ≠ nowSlot := by
  cases h with
  | nothing hdue => exact due_eq_none_iff.mp hdue
  | dropped p hdue => exact fun q hq => slot_ne_of_mem_notDue hone hdue q (List.mem_filter.mp hq).1
  | granted p hdue => exact slot_ne_of_mem_notDue hone hdue

lemma Polled.time_eq {g : TxGrant × SlGrantInfo} (h : Polled e now b (some g) b') :
    g.1.time = now := by
  cases h with
  | retransmitted _ hgrant => exact hgrant.time_eq
  | served _ _ hfired =>
    cases hfired with
    | granted _ _ _ _ _ hgrant _ _ => exact hgrant.time_eq

/-- A poll keeps the retransmissions of the reservation in their order. -/
lemma Polled.ordered (h : Polled e now b g b') (hb : b.Ordered) : b'.Ordered := by
  cases h with
  | retransmitted hdue _ =>
    intro r hr
    rw [hdue.reservation_eq.1] at hr
    exact hb r hr
  | @served b₁ _ n reservation _ hdue hbooked hfired =>
    have hordered := hbooked.ordered fun r hr => hb r (hdue.reservation_eq.1 ▸ hr)
    cases hfired with
    | idle => exact hordered
    | dropped hr _ _ hnext _ =>
      exact fun r' hr' => ordered_of_next (hnext r' hr') (hordered _ hr)
    | granted hr _ _ hnext _ _ _ _ =>
      exact fun r' hr' => ordered_of_next (hnext r' hr') (hordered _ hr)

/-- **A quiet slot has no grant.** A poll grants nothing to a UE with nothing in the slot, and
leaves it so. -/
theorem Quiet.polled (hquiet : b.Quiet (e.pool.slotOf now)) (ht1 : 0 < e.params.t1Slots)
    (h : Polled e now b g b') : g = none ∧ b'.Quiet (e.pool.slotOf now) := by
  cases h with
  | @retransmitted p g b' hdue _ =>
    cases hdue with
    | granted _ hp =>
      exact absurd (mem_of_due hp).2 (hquiet.missed.pending p (mem_of_due hp).1)
  | @served b₁ _ n reservation _ hdue hbooked hfired =>
    have hpending : ∀ p ∈ b₁.pendingRetx, p.resource.slot ≠ e.pool.slotOf now :=
      fun p hp => hquiet.missed.pending p (hdue.sublist.mem hp)
    have hfires := hbooked.fires ht1 fun r hr => hquiet.reservation r (hdue.reservation_eq.1 ▸ hr)
    cases hfired with
    | idle => exact ⟨rfl, hpending, hfires⟩
    | dropped hr hslot _ _ _ =>
      exact absurd (fires_of_eq hslot) (Bool.not_eq_true _ ▸ hfires _ hr)
    | granted hr hslot _ _ _ _ _ _ =>
      exact absurd (fires_of_eq hslot) (Bool.not_eq_true _ ▸ hfires _ hr)

/-- **A grant uses the slot up.** If a UE has at most one of its resources in a slot, a poll that
grants leaves nothing there. -/
theorem quiet_of_granted {g : TxGrant × SlGrantInfo} (h : Polled e now b (some g) b')
    (hone : b.usesOf (e.pool.slotOf now) ≤ 1) (hb : b.Ordered) : b'.Quiet (e.pool.slotOf now) := by
  have hone := le_trans usesOf_missed_le hone
  have hcount := le_trans (Nat.le_add_right _ _) hone
  cases h with
  | @retransmitted p _ _ hdue _ =>
    refine ⟨hdue.slot_ne hcount, fun r hr => ?_⟩
    rw [hdue.reservation_eq.1] at hr
    cases hdue with
    | granted _ hp =>
      -- the retransmission is the only use, so the reservation is none
      have hpos : 0 < (b.missed (e.pool.slotOf now)).pendingRetx.countP
          fun p => p.resource.slot == e.pool.slotOf now :=
        List.countP_pos_iff.mpr ⟨p, (mem_of_due hp).1, beq_iff_eq.mpr (mem_of_due hp).2⟩
      unfold usesOf at hone
      rw [Option.mem_def.mp hr, Option.any_some] at hone
      cases hfires : r.fires (e.pool.slotOf now) with
      | false => rfl
      | true =>
        rw [if_pos hfires] at hone
        omega
  | @served b₁ _ n reservation _ hdue hbooked hfired =>
    have hslots := hdue.slot_ne hcount
    have hordered := hbooked.ordered fun r hr => hb r (hdue.reservation_eq.1 ▸ hr)
    cases hfired with
    | granted hr hslot _ hnext _ _ _ hperm =>
      refine ⟨fun p hp => ?_, fun r' hr' => fires_of_next (hnext r' hr') hslot⟩
      rcases List.mem_append.mp (hperm.mem_iff.mp hp) with hp | hp
      · exact hslots p hp
      · have := lt_slot_of_mem_owed (hordered _ hr) hp
        omega

end Book

/-! ## Runs -/

namespace SpsEngine

open Book

variable {e : SpsEngine} {now : SimTime} {b b' : Book} {a a' : Account}

/-- In the slot of a poll, a UE has at most one of its resources. -/
def Single (e : SpsEngine) (b : Book) (c : SpsTimed) : Prop :=
  c.call = .poll → b.usesOf (e.pool.slotOf c.now) ≤ 1

instance (e : SpsEngine) (b : Book) (c : SpsTimed) : Decidable (e.Single b c) :=
  inferInstanceAs (Decidable (_ → _))

/-- The slots of the grants of a UE. -/
def grantSlots (e : SpsEngine) (a : Account) : List ℕ := a.grants.map fun g => e.pool.slotOf g.1.time

/-- Grants are in different slots, none is later than the last call, and a slot with a grant is
quiet. -/
structure OncePerSlot (e : SpsEngine) (cs : List SpsTimed) (b : Book) (a : Account) : Prop where
  ordered : b.Ordered
  increasing : (e.grantSlots a).Pairwise (· < ·)
  quiet : ∀ now, (∀ c ∈ cs, c.now ≤ now) → ∀ s ∈ e.grantSlots a,
    s ≤ e.pool.slotOf now ∧ (s = e.pool.slotOf now → b.Quiet s)

lemma OncePerSlot.of_eq {cs : List SpsTimed} {c : SpsTimed} (h : e.OncePerSlot cs b a)
    (hb : b'.reservation = b.reservation ∧ b'.pendingRetx = b.pendingRetx)
    (ha : a'.grants = a.grants) : e.OncePerSlot (cs ++ [c]) b' a' := by
  have hslots : e.grantSlots a' = e.grantSlots a := congrArg (List.map _) ha
  refine ⟨fun r hr => h.ordered r (hb.1 ▸ hr), hslots ▸ h.increasing, fun now hnow s hs => ?_⟩
  rw [hslots] at hs
  obtain ⟨hle, hquiet⟩ := h.quiet now (fun c' hc' => hnow c' (List.mem_append_left _ hc')) s hs
  refine ⟨hle, fun heq => ⟨fun p hp => ?_, fun r hr => ?_⟩⟩
  · exact (hquiet heq).pending p (hb.2 ▸ hp)
  · exact (hquiet heq).reservation r (hb.1 ▸ hr)

/-- A poll keeps the grants in different slots. -/
lemma OncePerSlot.polled {cs : List SpsTimed} {c : SpsTimed} {g : Option (TxGrant × SlGrantInfo)}
    (h : e.OncePerSlot cs b a) (ht1 : 0 < e.params.t1Slots) (hcs : ∀ c' ∈ cs, c'.now ≤ c.now)
    (hone : b.usesOf (e.pool.slotOf c.now) ≤ 1) (hpolled : Polled e c.now b g b') :
    e.OncePerSlot (cs ++ [c]) b' { a with grants := a.grants ++ g.toList } := by
  have hordered := hpolled.ordered h.ordered
  have hlast {now : SimTime} (hnow : ∀ c' ∈ cs ++ [c], c'.now ≤ now) : c.now ≤ now :=
    hnow c (List.mem_append_right _ (List.mem_singleton_self c))
  by_cases hused : e.pool.slotOf c.now ∈ e.grantSlots a
  · -- there is a grant in the slot, so it is quiet
    have hquiet := (h.quiet c.now hcs _ hused).2 rfl
    obtain ⟨rfl, hquiet'⟩ := hquiet.polled ht1 hpolled
    have hslots : e.grantSlots { a with grants := a.grants ++ none.toList } = e.grantSlots a :=
      congrArg (List.map _) (List.append_nil _)
    refine ⟨hordered, hslots ▸ h.increasing, fun now hnow s hs => ?_⟩
    rw [hslots] at hs
    have hle := (h.quiet c.now hcs s hs).1
    have hmono := PoolConfig.slotOf_mono (p := e.pool) (hlast hnow)
    refine ⟨le_trans hle hmono, fun heq => ?_⟩
    obtain rfl : s = e.pool.slotOf c.now := le_antisymm hle (heq ▸ hmono)
    exact hquiet'
  · have hlt {s : ℕ} (hs : s ∈ e.grantSlots a) : s < e.pool.slotOf c.now :=
      lt_of_le_of_ne (h.quiet c.now hcs s hs).1 fun heq => hused (heq ▸ hs)
    have hslots : e.grantSlots { a with grants := a.grants ++ g.toList } =
        e.grantSlots a ++ g.toList.map fun g => e.pool.slotOf g.1.time := List.map_append
    have hnew {s : ℕ} (hs : s ∈ g.toList.map fun g => e.pool.slotOf g.1.time) :
        s = e.pool.slotOf c.now ∧ b'.Quiet s := by
      obtain ⟨g', hg', rfl⟩ := List.mem_map.mp hs
      obtain rfl := Option.mem_toList.mp hg'
      rw [hpolled.time_eq]
      exact ⟨rfl, quiet_of_granted hpolled hone h.ordered⟩
    refine ⟨hordered, ?_, fun now hnow s hs => ?_⟩
    · rw [hslots, List.pairwise_append]
      refine ⟨h.increasing, ?_, fun s hs s' hs' => (hnew hs').1 ▸ hlt hs⟩
      cases g <;> simp
    · have hmono := PoolConfig.slotOf_mono (p := e.pool) (hlast hnow)
      rw [hslots] at hs
      rcases List.mem_append.mp hs with hs | hs
      · have := hlt hs
        exact ⟨by omega, fun heq => absurd heq (by omega)⟩
      · exact ⟨(hnew hs).1 ▸ hmono, fun _ => (hnew hs).2⟩

lemma OncePerSlot.turn {cs : List SpsTimed} {c : SpsTimed} (h : e.OncePerSlot cs b a)
    (ht1 : 0 < e.params.t1Slots) (hcs : ∀ c' ∈ cs, c'.now ≤ c.now) (hsingle : e.Single b c)
    (hturn : Turn e c.now b a c.call b' a') : e.OncePerSlot (cs ++ [c]) b' a' := by
  generalize hcall : c.call = call at hturn
  cases hturn with
  | polled hpolled => exact h.polled ht1 hcs (hsingle hcall) hpolled
  | still => exact h.of_eq ⟨rfl, rfl⟩ rfl
  | accepted => exact h.of_eq ⟨rfl, rfl⟩ rfl
  | tookExpired => exact h.of_eq ⟨rfl, rfl⟩ rfl
  | tookAbandoned => exact h.of_eq ⟨rfl, rfl⟩ rfl
  | tookCcDropped => exact h.of_eq ⟨rfl, rfl⟩ rfl

/-- **One grant per slot.** If a UE never has two of its resources in a slot in which it is polled,
then its grants are in different slots, however often it is polled. -/
theorem one_grant_per_slot (e : SpsEngine) (draws : ℕ → ℕ → UInt64) (calls : List SpsTimed)
    (ht1 : 0 < e.params.t1Slots) (hsorted : calls.Pairwise fun c c' => c.now ≤ c'.now)
    (hsingle : Mealy.Always (e.step draws) (fun s c => e.Single (s c.node).book c) e.init calls)
    (node : ℕ) : (e.grantSlots (e.account draws node calls)).Pairwise (· < ·) := by
  have hrun := turn_induction (e := e) (G := e.Single) (a := Account.empty)
    (P := fun cs b a => (cs.Pairwise fun c c' => c.now ≤ c'.now) → e.OncePerSlot cs b a)
    (fun cs c b a b' a' h hsingle hturn hcs => ?_) node (fun _ => ?_) calls hsingle
  · exact (hrun (hsorted.sublist List.filter_sublist)).increasing
  · obtain ⟨hcs, -, hlast⟩ := List.pairwise_append.mp hcs
    exact (h hcs).turn ht1 (fun c' hc' => hlast c' hc' c (List.mem_singleton_self c)) hsingle hturn
  · exact ⟨fun r hr => absurd hr (Option.not_mem_none r), List.Pairwise.nil,
      fun now _ s hs => absurd hs (List.not_mem_nil)⟩

/-! ## A run of LTE with one retransmission -/

/-- The power of −94 dBm, to three digits. -/
def cbrThresholdMw : ℚ → ℚ := fun _ => 398 / 10 ^ 12

/-- The validation pool of LTE, with random selection and one retransmission. -/
def lteRetx : SpsEngine :=
  ⟨.molinaMasegosaHighway, ((SpsParams.molinaMasegosa 10).withoutSensing).withMaxTransmissions 2, 8,
    cbrThresholdMw⟩

/-- Draws that book slot 1 with a retransmission in slot 3, and then slot 3. -/
def crossing : ℕ → ℕ → UInt64 := fun _ i => if i = 2 then 0x1111111111111112 else 0

/-- A transport block. -/
def block (seq bytes : ℕ) (enqueuedAt : SimTime) : MacSdu :=
    ⟨⟨bytes, .r6Qpsk12, 0, ⟨0, seq⟩⟩, enqueuedAt⟩

/-- A block is granted in slot 1, and its retransmission in slot 3. -/
def sentTwice : List SpsTimed :=
  [⟨0, 0, .enqueue (block 1 190 0) .vi⟩, ⟨0, 0, .poll⟩, ⟨1000000, 0, .poll⟩, ⟨3000000, 0, .poll⟩,
    ⟨3000000, 0, .poll⟩]

/-- A larger block is queued in slot 2, and the UE is polled in slot 3 twice. -/
def crossed : List SpsTimed :=
  [⟨0, 0, .enqueue (block 1 190 0) .vi⟩, ⟨0, 0, .poll⟩, ⟨1000000, 0, .poll⟩,
    ⟨2000000, 0, .enqueue (block 2 300 2000000) .vi⟩, ⟨2000000, 0, .poll⟩, ⟨3000000, 0, .poll⟩,
    ⟨3000000, 0, .poll⟩]

/-- The grants of a block and its retransmission are in different slots. -/
theorem one_grant_per_slot_retx :
    (lteRetx.grantSlots (lteRetx.account crossing 0 sentTwice)).Pairwise (· < ·) ∧
      lteRetx.grantSlots (lteRetx.account crossing 0 sentTwice) = [1, 3] :=
  ⟨one_grant_per_slot lteRetx crossing sentTwice (by decide) (by decide) (by decide +kernel) 0,
    by decide +kernel⟩

/-- The reservation for a larger block lies where the retransmission of another is owed, and a UE
that is polled there twice is granted twice. -/
theorem two_grants_in_a_slot :
    (crossed.Pairwise fun c c' => c.now ≤ c'.now) ∧
      lteRetx.grantSlots (lteRetx.account crossing 0 crossed) = [1, 3, 3] := by
  decide +kernel

end SpsEngine

end V2xw.Radio
