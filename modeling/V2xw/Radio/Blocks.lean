import V2xw.Radio.SlotUse

/-!
# What becomes of a transport block

An accepted transport block is queued, granted, dropped for its age, or dropped by congestion
control. Its retransmissions are granted one after the other on the resources that were announced,
until the block is reported as abandoned.

A poll that finds a retransmission missed reports its block, and keeps the later retransmissions of
the same block. As long as a UE is polled before it misses one retransmission of a block and not the
next, a block is reported once and never granted again.

## Main definitions

* `Accounted` — each block in one place, and the order of its grants.
* `Book.Whole` — no block has one retransmission missed and another one to come.

## Main results

* `Accounted.turn` — every turn keeps the account.
* `SpsEngine.blocks_accounted` — so does every run, and what is reported is not granted again.
-/

namespace V2xw.Radio

open Core (SimTime Duration)

/-- The reference of a transport block. -/
abbrev MacSdu.ref (sdu : MacSdu) : SduRef := sdu.frame.sduRef

/-- The reference of the block of a grant. -/
abbrev refOf (g : TxGrant × SlGrantInfo) : SduRef := g.1.sdu.ref

namespace Account

/-- The blocks that were granted for the first time. -/
def firsts (a : Account) : List MacSdu :=
    (a.grants.filter fun g => g.1.attempt == 1).map fun g => g.1.sdu

/-- The grants of a block. -/
def grantsOf (a : Account) (ref : SduRef) : List (TxGrant × SlGrantInfo) :=
  a.grants.filter fun g => refOf g == ref

end Account

/-- The blocks reported as abandoned, handed out or not. -/
def reported (b : Book) (a : Account) : List MacSdu := a.abandoned ++ b.abandoned

/-- Where the accepted blocks are: queued, granted, dropped for their age, or dropped by congestion
control. -/
def places (b : Book) (a : Account) : List MacSdu :=
  b.queue.map Prod.fst ++ a.firsts ++ (a.expired ++ b.expired) ++ (a.ccDropped ++ b.ccDropped)

/-- Two retransmissions of one block come one after the other. -/
def Apart (p q : PendingRetx) : Prop :=
  p.ref = q.ref → p.attempt < q.attempt ∧ p.resource.slot < q.resource.slot ∨
    q.attempt < p.attempt ∧ q.resource.slot < p.resource.slot

/-- Each accepted block is in one place, its grants come in the order of their attempts and on what
was announced with the first one, and what is reported is reported once and owes nothing. -/
structure Accounted (b : Book) (a : Account) : Prop where
  /-- Each accepted block is in one place, once. -/
  places_perm : a.accepted.Perm (places b a)
  nodup : (a.accepted.map MacSdu.ref).Nodup
  /-- The attempts of a block increase. -/
  increasing : a.grants.Pairwise fun g g' => refOf g = refOf g' → g.1.attempt < g'.1.attempt
  /-- A later attempt is on a resource announced with the first. -/
  announced : ∀ g ∈ a.grants, g.1.attempt ≠ 1 → ∃ g' ∈ a.grants,
    g'.1.attempt = 1 ∧ g'.1.sdu = g.1.sdu ∧ g.2.resource ∈ g'.2.announced
  /-- A retransmission that is owed was announced with the first attempt. -/
  owed_announced : ∀ p ∈ b.pendingRetx, ∃ g ∈ a.grants,
    g.1.attempt = 1 ∧ g.1.sdu = p.sdu ∧ p.resource ∈ g.2.announced
  owed_later : ∀ p ∈ b.pendingRetx, ∀ g ∈ a.grants, refOf g = p.ref → g.1.attempt < p.attempt
  owed_apart : b.pendingRetx.Pairwise Apart
  /-- What is reported is reported once. -/
  reported_nodup : ((reported b a).map MacSdu.ref).Nodup
  /-- What is reported was granted, and owes nothing. -/
  reported_closed : ∀ m ∈ reported b a,
    (∀ p ∈ b.pendingRetx, p.ref ≠ m.ref) ∧ ∃ g ∈ a.grants, g.1.attempt = 1 ∧ refOf g = m.ref
  ordered : b.Ordered

/-- No block has one retransmission missed and another one to come. -/
def Book.Whole (nowSlot : ℕ) (b : Book) : Prop :=
  ∀ p ∈ b.pendingRetx, p.resource.slot < nowSlot → ∀ q ∈ b.pendingRetx, q.ref = p.ref →
    q.resource.slot < nowSlot

instance (nowSlot : ℕ) (b : Book) : Decidable (b.Whole nowSlot) :=
  inferInstanceAs (Decidable (∀ p ∈ b.pendingRetx, _))

namespace Accounted

open Book

variable {e : SpsEngine} {now : SimTime} {nowSlot : ℕ} {b b' : Book} {a a' : Account}

/-! ## Grants and places -/

lemma mem_firsts (h : Accounted b a) {g : TxGrant × SlGrantInfo} (hg : g ∈ a.grants) :
    g.1.sdu ∈ a.firsts := by
  by_cases hfirst : g.1.attempt = 1
  · exact List.mem_map.mpr ⟨g, List.mem_filter.mpr ⟨hg, beq_iff_eq.mpr hfirst⟩, rfl⟩
  · obtain ⟨g', hg', hfirst', hsdu, -⟩ := h.announced g hg hfirst
    exact List.mem_map.mpr ⟨g', List.mem_filter.mpr ⟨hg', beq_iff_eq.mpr hfirst'⟩, hsdu⟩

lemma ref_ne_of_queued (h : Accounted b a) {q : MacSdu × Pppp} (hq : q ∈ b.queue)
    {g : TxGrant × SlGrantInfo} (hg : g ∈ a.grants) : refOf g ≠ q.1.ref := by
  have hnodup := (h.places_perm.map MacSdu.ref).nodup_iff.mp h.nodup
  simp only [places, List.map_append, List.append_assoc] at hnodup
  rw [← List.append_assoc] at hnodup
  have hdisjoint := List.nodup_append.mp (List.nodup_append.mp hnodup).1
  intro heq
  exact hdisjoint.2.2 q.1.ref (List.mem_map.mpr ⟨q.1, List.mem_map.mpr ⟨q, hq, rfl⟩, rfl⟩)
    (refOf g) (List.mem_map.mpr ⟨g.1.sdu, h.mem_firsts hg, rfl⟩) heq.symm

lemma owed_ne_of_queued (h : Accounted b a) {q : MacSdu × Pppp} (hq : q ∈ b.queue)
    {p : PendingRetx}
    (hp : p ∈ b.pendingRetx) : p.ref ≠ q.1.ref := by
  obtain ⟨g, hg, -, hsdu, -⟩ := h.owed_announced p hp
  have := h.ref_ne_of_queued hq hg
  unfold refOf at this
  rw [hsdu] at this
  exact this

/-! ## Giving up -/

/-- The blocks of some retransmissions are each reported once. -/
lemma blocksOf_spec (missed : List PendingRetx) :
    ((blocksOf missed).map MacSdu.ref).Nodup ∧ ∀ m ∈ blocksOf missed, ∃ p ∈ missed, p.sdu = m := by
  have hfold : ∀ (l : List PendingRetx) (gone : List MacSdu), l ⊆ missed →
      (gone.map MacSdu.ref).Nodup → (∀ m ∈ gone, ∃ p ∈ missed, p.sdu = m) →
      ((l.foldl (fun (gone : List MacSdu) p =>
          if gone.any fun g => g.frame.sduRef == p.sdu.frame.sduRef then gone
          else gone ++ [p.sdu]) gone).map MacSdu.ref).Nodup ∧
        ∀ m ∈ l.foldl (fun (gone : List MacSdu) p =>
          if gone.any fun g => g.frame.sduRef == p.sdu.frame.sduRef then gone
          else gone ++ [p.sdu]) gone, ∃ p ∈ missed, p.sdu = m := by
    intro l
    induction l with
    | nil => exact fun gone _ hnodup hfrom => ⟨hnodup, hfrom⟩
    | cons p l ih =>
      intro gone hsub hnodup hfrom
      rw [List.cons_subset] at hsub
      rw [List.foldl_cons]
      split
      · exact ih gone hsub.2 hnodup hfrom
      · next hnew =>
        refine ih _ hsub.2 ?_ fun m hm => ?_
        · rw [List.map_append, List.nodup_append]
          refine ⟨hnodup, List.nodup_singleton _, fun r hr r' hr' heq => hnew ?_⟩
          obtain ⟨m, hm, rfl⟩ := List.mem_map.mp hr
          refine List.any_eq_true.mpr ⟨m, hm, beq_iff_eq.mpr ?_⟩
          exact heq.trans (List.mem_singleton.mp hr')
        · rcases List.mem_append.mp hm with hm | hm
          · exact hfrom m hm
          · exact ⟨p, hsub.1, (List.mem_singleton.mp hm).symm⟩
  exact hfold missed [] (List.Subset.refl _) List.nodup_nil fun m hm => absurd hm (List.not_mem_nil)

/-- Reporting the blocks of some retransmissions, and giving up all that these blocks owe. -/
lemma abandon (h : Accounted b a) {pending : List PendingRetx} {gone : List MacSdu}
    (hsub : pending.Sublist b.pendingRetx) (hnodup : (gone.map MacSdu.ref).Nodup)
    (hfrom : ∀ m ∈ gone, ∃ p ∈ b.pendingRetx, p.sdu = m)
    (hclosed : ∀ m ∈ gone, ∀ p ∈ pending, p.ref ≠ m.ref) :
    Accounted { b with pendingRetx := pending, abandoned := b.abandoned ++ gone } a where
  places_perm := h.places_perm
  nodup := h.nodup
  increasing := h.increasing
  announced := h.announced
  owed_announced p hp := h.owed_announced p (hsub.mem hp)
  owed_later p hp := h.owed_later p (hsub.mem hp)
  owed_apart := h.owed_apart.sublist hsub
  reported_nodup := by
    have heq : reported { b with pendingRetx := pending, abandoned := b.abandoned ++ gone } a =
        reported b a ++ gone := (List.append_assoc ..).symm
    rw [heq, List.map_append, List.nodup_append]
    refine ⟨h.reported_nodup, hnodup, fun r hr r' hr' heq => ?_⟩
    obtain ⟨m, hm, rfl⟩ := List.mem_map.mp hr
    obtain ⟨m', hm', rfl⟩ := List.mem_map.mp hr'
    obtain ⟨p, hp, rfl⟩ := hfrom m' hm'
    exact (h.reported_closed m hm).1 p hp heq.symm
  reported_closed m hm := by
    rw [reported, ← List.append_assoc] at hm
    rcases List.mem_append.mp hm with hm | hm
    · exact ⟨fun p hp => (h.reported_closed m hm).1 p (hsub.mem hp), (h.reported_closed m hm).2⟩
    · refine ⟨hclosed m hm, ?_⟩
      obtain ⟨p, hp, rfl⟩ := hfrom m hm
      obtain ⟨g, hg, hfirst, hsdu, -⟩ := h.owed_announced p hp
      exact ⟨g, hg, hfirst, congrArg MacSdu.ref hsdu⟩
  ordered := h.ordered

lemma missed (h : Accounted b a) (hwhole : b.Whole nowSlot) : Accounted (b.missed nowSlot) a := by
  obtain ⟨hnodup, hfrom⟩ := blocksOf_spec (b.pendingRetx.filter fun p =>
    decide (p.resource.slot < nowSlot))
  refine h.abandon List.filter_sublist hnodup (fun m hm => ?_) fun m hm q hq => ?_
  · obtain ⟨p, hp, hsdu⟩ := hfrom m hm
    exact ⟨p, (List.mem_filter.mp hp).1, hsdu⟩
  · obtain ⟨p, hp, rfl⟩ := hfrom m hm
    obtain ⟨hp, hlt⟩ := List.mem_filter.mp hp
    obtain ⟨hq, hnot⟩ := List.mem_filter.mp hq
    intro hsame
    have hlt := hwhole p hp (of_decide_eq_true hlt) q hq hsame
    rw [decide_eq_true hlt] at hnot
    cases hnot

lemma due_none (h : Accounted b a) (hdue : Due nowSlot b none b') : Accounted b' a := by
  cases hdue with
  | nothing => exact h
  | dropped p hp =>
    refine h.abandon (List.filter_sublist.trans List.eraseP_sublist) (List.nodup_singleton _)
      (fun m hm => ⟨p, (mem_of_due hp).1, (List.mem_singleton.mp hm).symm⟩) fun m hm q hq => ?_
    rw [List.mem_singleton.mp hm]
    exact bne_iff_ne.mp (List.mem_filter.mp hq).2

/-! ## Retransmissions -/

/-- A retransmission that is due, granted. -/
lemma due_granted (h : Accounted b a) {p : PendingRetx} (hdue : Due nowSlot b (some p) b')
    (hpast : ∀ q ∈ b.pendingRetx, nowSlot ≤ q.resource.slot) {g : TxGrant × SlGrantInfo}
    (hgrant : Grants now p.sdu p.attempt p.resource g) :
    Accounted b' { a with grants := a.grants ++ [g] } := by
  cases hdue with
  | granted _ hp =>
    obtain ⟨hmem, hslot⟩ := mem_of_due hp
    have href : refOf g = p.ref := congrArg MacSdu.ref hgrant.sdu_eq
    obtain ⟨g₀, hg₀, hfirst, hsdu, hannounced⟩ := h.owed_announced p hmem
    have hlater : g₀.1.attempt < p.attempt := h.owed_later p hmem g₀ hg₀ (congrArg MacSdu.ref hsdu)
    have hne : g.1.attempt ≠ 1 := by
      rw [hgrant.attempt_eq]
      omega
    have hfirsts : Account.firsts { a with grants := a.grants ++ [g] } = a.firsts := by
      unfold Account.firsts
      rw [List.filter_append, List.filter_cons_of_neg (by simpa using hne), List.filter_nil,
        List.append_nil]
    -- the later retransmissions of the block are those that are left
    have hrest : ∀ q ∈ b.notDue nowSlot, q.ref = p.ref → p.attempt < q.attempt := by
      obtain ⟨p', l₁, l₂, hbefore, hp', heq, herase⟩ :=
        List.exists_of_eraseP (p := fun p => p.resource.slot == nowSlot) hmem (beq_iff_eq.mpr hslot)
      have hfound : b.due nowSlot = some p' := by
        rw [due, heq, List.find?_append, List.find?_eq_none.mpr hbefore, Option.none_or,
          List.find?_cons]
        simp only [hp']
      obtain rfl : p = p' := Option.some_inj.mp (hp.symm.trans hfound)
      intro q hq hsame
      rw [notDue, herase] at hq
      have hapart := h.owed_apart
      rw [heq, List.pairwise_append] at hapart
      obtain ⟨-, hsecond, hcross⟩ := hapart
      have hge := hpast q (by rw [heq]; simp only [List.mem_append, List.mem_cons] at hq ⊢; tauto)
      rcases List.mem_append.mp hq with hq | hq
      · rcases hcross q hq p (List.mem_cons_self ..) hsame with hlt | hlt <;> omega
      · rcases (List.pairwise_cons.mp hsecond).1 q hq hsame.symm with hlt | hlt <;> omega
    refine ⟨?_, h.nodup, ?_, ?_, ?_, ?_, h.owed_apart.sublist List.eraseP_sublist, h.reported_nodup,
      ?_, h.ordered⟩
    · unfold places
      rw [hfirsts]
      exact h.places_perm
    · rw [List.pairwise_append]
      refine ⟨h.increasing, List.pairwise_singleton .., fun g' hg' x hx hsame => ?_⟩
      obtain rfl := List.mem_singleton.mp hx
      rw [hgrant.attempt_eq]
      exact h.owed_later p hmem g' hg' (hsame.trans href)
    · intro x hx hlate
      rcases List.mem_append.mp hx with hx | hx
      · obtain ⟨g', hg', hrest⟩ := h.announced x hx hlate
        exact ⟨g', List.mem_append_left _ hg', hrest⟩
      · obtain rfl := List.mem_singleton.mp hx
        refine ⟨g₀, List.mem_append_left _ hg₀, hfirst, hsdu.trans hgrant.sdu_eq.symm, ?_⟩
        rw [hgrant.resource_eq]
        exact hannounced
    · intro q hq
      obtain ⟨g', hg', hrest⟩ := h.owed_announced q (List.mem_of_mem_eraseP hq)
      exact ⟨g', List.mem_append_left _ hg', hrest⟩
    · intro q hq x hx hsame
      rcases List.mem_append.mp hx with hx | hx
      · exact h.owed_later q (List.mem_of_mem_eraseP hq) x hx hsame
      · obtain rfl := List.mem_singleton.mp hx
        rw [hgrant.attempt_eq]
        exact hrest q hq (hsame.symm.trans href)
    · intro m hm
      obtain ⟨hnone, g', hg', hrest⟩ := h.reported_closed m hm
      exact ⟨fun q hq => hnone q (List.mem_of_mem_eraseP hq), g', List.mem_append_left _ hg', hrest⟩

lemma of_mem_owed {r : Reservation} {keep : ℕ} {sdu : MacSdu} {pppp : Pppp} {p : PendingRetx}
    (h : p ∈ owed r keep sdu pppp) :
    p.sdu = sdu ∧ 2 ≤ p.attempt ∧ p.resource ∈ r.periodResources.take (1 + keep) := by
  obtain ⟨x, hx, rfl⟩ := List.mem_map.mp h
  refine ⟨rfl, List.le_snd_of_mem_zipIdx hx, ?_⟩
  have hmem := List.fst_mem_of_mem_zipIdx hx
  rw [Nat.add_comm, Reservation.periodResources, List.take_succ_cons]
  exact List.mem_cons_of_mem _ hmem

lemma pairwise_owed {r : Reservation} (hr : r.Ordered) (keep : ℕ) (sdu : MacSdu) (pppp : Pppp) :
    (owed r keep sdu pppp).Pairwise Apart := by
  have hretx : (r.periodResources.tail).Pairwise fun x y => x.slot < y.slot :=
    List.pairwise_map.mpr (hr.2.imp fun h => Nat.add_lt_add_left h r.nextSlot)
  have hslots := List.pairwise_iff_getElem.mp (hretx.sublist (List.take_sublist keep _))
  rw [List.pairwise_iff_getElem]
  intro i j hi hj hij _
  simp only [owed, List.length_map, List.length_zipIdx] at hi hj
  simp only [owed, List.getElem_map, List.getElem_zipIdx]
  exact .inl ⟨Nat.add_lt_add_left hij 2, hslots i j hi hj hij⟩

/-! ## Blocks -/

/-- Blocks dropped for their age. -/
lemma expire (h : Accounted b a) (n : ℕ) : Accounted (b.expire n) a where
  places_perm := by
    refine h.places_perm.trans ?_
    have hqueue : b.queue.map Prod.fst =
        (b.queue.take n).map Prod.fst ++ (b.queue.drop n).map Prod.fst := by
      rw [← List.map_append, List.take_append_drop]
    simp only [places, Book.expire, hqueue, List.append_assoc]
    refine (List.perm_append_comm_assoc ..).trans (List.Perm.append_left _ ?_)
    refine (List.perm_append_comm_assoc ..).trans (List.Perm.append_left _ ?_)
    refine (List.perm_append_comm_assoc ..).trans (List.Perm.append_left _ ?_)
    exact List.perm_append_comm_assoc ..
  nodup := h.nodup
  increasing := h.increasing
  announced := h.announced
  owed_announced := h.owed_announced
  owed_later := h.owed_later
  owed_apart := h.owed_apart
  reported_nodup := h.reported_nodup
  reported_closed := h.reported_closed
  ordered := h.ordered

lemma rebook (h : Accounted b a) {reservation : Option Reservation}
    (hordered : ∀ r ∈ reservation, r.Ordered) : Accounted { b with reservation } a where
  places_perm := h.places_perm
  nodup := h.nodup
  increasing := h.increasing
  announced := h.announced
  owed_announced := h.owed_announced
  owed_later := h.owed_later
  owed_apart := h.owed_apart
  reported_nodup := h.reported_nodup
  reported_closed := h.reported_closed
  ordered := hordered

/-- The first block, dropped by congestion control. -/
lemma drop (h : Accounted b a) {q : MacSdu × Pppp} {queue : List (MacSdu × Pppp)}
    (hqueue : b.queue = q :: queue) :
    Accounted { b with queue, ccDropped := b.ccDropped ++ [q.1] } a where
  places_perm := by
    refine h.places_perm.trans ?_
    simp only [places, hqueue, List.map_cons, List.cons_append, ← List.append_assoc]
    exact (List.perm_append_singleton ..).symm
  nodup := h.nodup
  increasing := h.increasing
  announced := h.announced
  owed_announced := h.owed_announced
  owed_later := h.owed_later
  owed_apart := h.owed_apart
  reported_nodup := h.reported_nodup
  reported_closed := h.reported_closed
  ordered := h.ordered

/-- The first block, granted. -/
lemma grant (h : Accounted b a) {r : Reservation} {q : MacSdu × Pppp}
    {queue : List (MacSdu × Pppp)} {g : TxGrant × SlGrantInfo} {keep : ℕ}
    {pending : List PendingRetx} (hr : r.Ordered) (hqueue : b.queue = q :: queue)
    (hgrant : Grants now q.1 1 r.resource g)
    (hannounced : g.2.announced = r.periodResources.take (1 + keep))
    (hperm : pending.Perm (b.pendingRetx ++ owed r keep q.1 q.2)) :
    Accounted { b with queue, pendingRetx := pending } { a with grants := a.grants ++ [g] } := by
  have hq : q ∈ b.queue := hqueue ▸ List.mem_cons_self ..
  have href : refOf g = q.1.ref := congrArg MacSdu.ref hgrant.sdu_eq
  have hfirsts : Account.firsts { a with grants := a.grants ++ [g] } = a.firsts ++ [q.1] := by
    unfold Account.firsts
    rw [List.filter_append, List.filter_singleton, beq_iff_eq.mpr hgrant.attempt_eq, cond_true,
      List.map_append, List.map_singleton, hgrant.sdu_eq]
  have hmem {p : PendingRetx} (hp : p ∈ pending) : p ∈ b.pendingRetx ∨ p ∈ owed r keep q.1 q.2 :=
    List.mem_append.mp (hperm.mem_iff.mp hp)
  refine ⟨?_, h.nodup, ?_, ?_, fun p hp => ?_, fun p hp x hx hsame => ?_, ?_, h.reported_nodup, ?_,
    h.ordered⟩
  · refine h.places_perm.trans ?_
    have hmiddle : (queue.map Prod.fst ++ a.firsts ++ q.1 :: ((a.expired ++ b.expired) ++
        (a.ccDropped ++ b.ccDropped))).Perm _ := List.perm_middle
    simpa only [places, hfirsts, hqueue, List.map_cons, List.cons_append, List.append_assoc,
      List.nil_append] using hmiddle.symm
  · rw [List.pairwise_append]
    refine ⟨h.increasing, List.pairwise_singleton .., fun g' hg' x hx hsame => ?_⟩
    obtain rfl := List.mem_singleton.mp hx
    exact absurd (hsame.trans href) (h.ref_ne_of_queued hq hg')
  · intro x hx hlate
    rcases List.mem_append.mp hx with hx | hx
    · obtain ⟨g', hg', hrest⟩ := h.announced x hx hlate
      exact ⟨g', List.mem_append_left _ hg', hrest⟩
    · obtain rfl := List.mem_singleton.mp hx
      exact absurd hgrant.attempt_eq hlate
  · rcases hmem hp with hp | hp
    · obtain ⟨g', hg', hrest⟩ := h.owed_announced p hp
      exact ⟨g', List.mem_append_left _ hg', hrest⟩
    · obtain ⟨hsdu, -, hres⟩ := of_mem_owed hp
      exact ⟨g, List.mem_append_right _ (List.mem_singleton_self g), hgrant.attempt_eq,
        hgrant.sdu_eq.trans hsdu.symm, hannounced ▸ hres⟩
  · rcases hmem hp with hp | hp <;> rcases List.mem_append.mp hx with hx | hx
    · exact h.owed_later p hp x hx hsame
    · obtain rfl := List.mem_singleton.mp hx
      exact absurd (hsame.symm.trans href) (h.owed_ne_of_queued hq hp)
    · have hsdu := congrArg MacSdu.ref (of_mem_owed hp).1
      exact absurd (hsame.trans hsdu) (h.ref_ne_of_queued hq hx)
    · obtain rfl := List.mem_singleton.mp hx
      rw [hgrant.attempt_eq]
      exact (of_mem_owed hp).2.1
  · refine (hperm.pairwise_iff fun {x y} hxy hsame => (hxy hsame.symm).symm).mpr ?_
    refine List.pairwise_append.mpr ⟨h.owed_apart, pairwise_owed hr keep q.1 q.2, ?_⟩
    intro p hp p' hp' hsame
    exact absurd (hsame.trans (congrArg MacSdu.ref (of_mem_owed hp').1)) (h.owed_ne_of_queued hq hp)
  · intro m hm
    obtain ⟨hnone, g', hg', hfirst, hsame⟩ := h.reported_closed m hm
    refine ⟨fun p hp => ?_, g', List.mem_append_left _ hg', hfirst, hsame⟩
    rcases hmem hp with hp | hp
    · exact hnone p hp
    · intro heq
      have hsdu := congrArg MacSdu.ref (of_mem_owed hp).1
      exact h.ref_ne_of_queued hq hg' (hsame.trans (heq.symm.trans hsdu))

/-! ## Turns -/

/-- What a poll may do where a reservation fires keeps the account. -/
lemma fired (h : Accounted b a) {g : Option (TxGrant × SlGrantInfo)}
    (hfired : Fired now nowSlot b g b') :
    Accounted b' { a with grants := a.grants ++ g.toList } := by
  have hnone : ({ a with grants := a.grants ++ none.toList } : Account) = a := by
    rw [Option.toList_none, List.append_nil]
  cases hfired with
  | idle => rwa [hnone]
  | dropped hr _ hqueue hnext _ =>
    rw [hnone]
    exact (h.drop hqueue).rebook fun r' hr' => ordered_of_next (hnext r' hr') (h.ordered _ hr)
  | granted hr _ hqueue hnext _ hgrant hannounced hperm =>
    exact (h.grant (h.ordered _ hr) hqueue hgrant hannounced hperm).rebook fun r' hr' =>
      ordered_of_next (hnext r' hr') (h.ordered _ hr)

lemma polled (h : Accounted b a) {g : Option (TxGrant × SlGrantInfo)}
    (hwhole : b.Whole (e.pool.slotOf now)) (hpolled : Polled e now b g b') :
    Accounted b' { a with grants := a.grants ++ g.toList } := by
  have hmissed := h.missed hwhole
  cases hpolled with
  | retransmitted hdue hgrant =>
    refine hmissed.due_granted hdue (fun q hq => ?_) hgrant
    have hnot := (List.mem_filter.mp hq).2
    simpa using hnot
  | served hdue hbooked hfired =>
    exact (((hmissed.due_none hdue).expire _).rebook
      (hbooked.ordered ((hmissed.due_none hdue).expire _).ordered)).fired hfired

/-- A block that was accepted, with a new reference. -/
lemma accept (h : Accounted b a) {sdu : MacSdu} (pppp : Pppp)
    (hnew : sdu.ref ∉ a.accepted.map MacSdu.ref) :
    Accounted { b with queue := b.queue ++ [(sdu, pppp)] }
      { a with accepted := a.accepted ++ [sdu] } where
  places_perm := by
    have hmiddle : (b.queue.map Prod.fst ++ sdu :: (a.firsts ++ ((a.expired ++ b.expired) ++
        (a.ccDropped ++ b.ccDropped)))).Perm _ := List.perm_middle
    have hlast := (List.perm_append_singleton sdu a.accepted).trans (h.places_perm.cons sdu)
    refine hlast.trans ?_
    simpa only [places, Account.firsts, List.map_append, List.map_cons, List.map_nil,
      List.append_assoc, List.cons_append, List.nil_append] using hmiddle.symm
  nodup := by
    rw [List.map_append, List.nodup_append]
    refine ⟨h.nodup, List.nodup_singleton _, fun r hr r' hr' heq => hnew ?_⟩
    rw [List.map_singleton, List.mem_singleton] at hr'
    exact hr' ▸ heq ▸ hr
  increasing := h.increasing
  announced := h.announced
  owed_announced := h.owed_announced
  owed_later := h.owed_later
  owed_apart := h.owed_apart
  reported_nodup := h.reported_nodup
  reported_closed := h.reported_closed
  ordered := h.ordered

/-- **Accounting.** A turn keeps the account, if an accepted block has a new reference and no block
has one retransmission missed and another one to come. -/
theorem turn (h : Accounted b a) {call : SpsCall}
    (hnew : ∀ sdu ac, call = .enqueue sdu ac → sdu.ref ∉ a.accepted.map MacSdu.ref)
    (hwhole : call = .poll → b.Whole (e.pool.slotOf now)) (hturn : Turn e now b a call b' a') :
    Accounted b' a' := by
  cases hturn with
  | still => exact h
  | accepted sdu ac _ => exact h.accept _ (hnew sdu ac rfl)
  | polled hpolled => exact h.polled (hwhole rfl) hpolled
  | tookExpired =>
    refine { h with places_perm := h.places_perm.trans (List.Perm.of_eq ?_) }
    simp only [places, Account.firsts, List.append_nil]
  | tookAbandoned =>
    have heq : reported { b with abandoned := [] }
      { a with abandoned := a.abandoned ++ b.abandoned } =
        reported b a := List.append_nil _
    exact { h with
      reported_nodup := heq ▸ h.reported_nodup
      reported_closed := fun m hm => h.reported_closed m (heq ▸ hm) }
  | tookCcDropped =>
    refine { h with places_perm := h.places_perm.trans (List.Perm.of_eq ?_) }
    simp only [places, Account.firsts, List.append_nil]

/-! ## What is reported -/

/-- A poll grants nothing of a block that is reported, and it stays reported. -/
lemma grantsOf_polled (h : Accounted b a) {m : MacSdu} (hm : m ∈ reported b a)
    {g : Option (TxGrant × SlGrantInfo)} (hpolled : Polled e now b g b') :
    (∀ g' ∈ g, refOf g' ≠ m.ref) ∧ m ∈ reported b' a := by
  have hgrow {more : List MacSdu} : m ∈ a.abandoned ++ (b.abandoned ++ more) := by
    rw [← List.append_assoc]
    exact List.mem_append_left _ hm
  obtain ⟨hnone, g₀, hg₀, -, hsame⟩ := h.reported_closed m hm
  cases hpolled with
  | @retransmitted p _ _ hdue hgrant =>
    cases hdue with
    | granted _ hp =>
      refine ⟨fun g' hg' => ?_, hgrow⟩
      obtain rfl := Option.mem_some_iff.mp hg'
      have href : refOf _ = p.ref := congrArg MacSdu.ref hgrant.sdu_eq
      rw [href]
      exact hnone p (List.mem_filter.mp (mem_of_due hp).1).1
  | @served b₁ _ n reservation _ hdue _ hfired =>
    have hreported : m ∈ reported b₁ a := by
      cases hdue with
      | nothing => exact hgrow
      | dropped p _ =>
        simp only [reported, Book.missed, List.append_assoc]
        exact hgrow
    cases hfired with
    | idle => exact ⟨fun g' hg' => absurd hg' (Option.not_mem_none g'), hreported⟩
    | dropped => exact ⟨fun g' hg' => absurd hg' (Option.not_mem_none g'), hreported⟩
    | @granted r q queue next g _ _ _ _ hqueue _ _ hgrant _ _ =>
      refine ⟨fun g' hg' heq => ?_, hreported⟩
      obtain rfl := Option.mem_some_iff.mp hg'
      have hq : q ∈ b₁.queue.drop n := by
        have hqueue : b₁.queue.drop n = q :: queue := hqueue
        exact hqueue ▸ List.mem_cons_self ..
      have hq : q ∈ b.queue := by
        have := List.mem_of_mem_drop hq
        rw [hdue.reservation_eq.2] at this
        exact this
      have href : refOf g = q.1.ref := congrArg MacSdu.ref hgrant.sdu_eq
      exact h.ref_ne_of_queued hq hg₀ (hsame.trans (heq.symm.trans href))

/-- A turn grants nothing of a block that is reported, and it stays reported. -/
lemma grantsOf_turn (h : Accounted b a) {m : MacSdu} (hm : m ∈ reported b a) {call : SpsCall}
    (hturn : Turn e now b a call b' a') :
    a'.grantsOf m.ref = a.grantsOf m.ref ∧ m ∈ reported b' a' := by
  cases hturn with
  | still => exact ⟨rfl, hm⟩
  | accepted => exact ⟨rfl, hm⟩
  | @polled g _ hpolled =>
    obtain ⟨hother, hm'⟩ := h.grantsOf_polled hm hpolled
    refine ⟨?_, hm'⟩
    have hnone : (g.toList.filter fun g => refOf g == m.ref) = [] :=
      List.filter_eq_nil_iff.mpr fun g' hg' heq =>
        hother g' (Option.mem_toList.mp hg') (beq_iff_eq.mp heq)
    unfold Account.grantsOf
    rw [List.filter_append, hnone, List.append_nil]
  | tookExpired => exact ⟨rfl, hm⟩
  | tookAbandoned => exact ⟨rfl, List.mem_append_left _ hm⟩
  | tookCcDropped => exact ⟨rfl, hm⟩

end Accounted

/-! ## Runs -/

namespace SpsEngine

open Book

/-- The reference of a block that is handed down. -/
def enqueuedRef (c : SpsTimed) : Option SduRef :=
  match c.call with
  | .enqueue sdu _ => some sdu.ref
  | _ => none

/-- The references of the blocks that are handed down. -/
def refsOf (cs : List SpsTimed) : List SduRef := cs.filterMap enqueuedRef

/-- A poll finds no block with one retransmission missed and another one to come. -/
def Prompt (e : SpsEngine) (b : Book) (c : SpsTimed) : Prop :=
  c.call = .poll → b.Whole (e.pool.slotOf c.now)

instance (e : SpsEngine) (b : Book) (c : SpsTimed) : Decidable (e.Prompt b c) :=
  inferInstanceAs (Decidable (_ → _))

variable {e : SpsEngine} {now : SimTime} {b b' : Book} {a a' : Account}

/-- If blocks have references of their own, each is accounted for, and accepted ones were handed
down. -/
def Tracked (cs : List SpsTimed) (b : Book) (a : Account) : Prop :=
  (refsOf cs).Nodup → Accounted b a ∧ ∀ m ∈ a.accepted, m.ref ∈ refsOf cs

/-- A turn keeps track. -/
lemma Tracked.turn {cs : List SpsTimed} {c : SpsTimed} (h : Tracked cs b a)
    (hprompt : e.Prompt b c)
    (hturn : Turn e c.now b a c.call b' a') : Tracked (cs ++ [c]) b' a' := by
  intro hnodup
  rw [refsOf, List.filterMap_append] at hnodup
  obtain ⟨hcs, -, hdisjoint⟩ := List.nodup_append.mp hnodup
  obtain ⟨haccounted, hfrom⟩ := h hcs
  have hnew {sdu : MacSdu} {ac : AccessCategory} (hcall : c.call = .enqueue sdu ac) :
      sdu.ref ∈ [c].filterMap enqueuedRef := by
    refine List.mem_filterMap.mpr ⟨c, List.mem_singleton_self c, ?_⟩
    rw [enqueuedRef, hcall]
  refine ⟨haccounted.turn (fun sdu ac hcall hold => ?_) hprompt hturn, fun m hm => ?_⟩
  · obtain ⟨m, hm, href⟩ := List.mem_map.mp hold
    exact hdisjoint m.ref (hfrom m hm) sdu.ref (hnew hcall) href
  · rw [refsOf, List.filterMap_append]
    have hold (hm : m ∈ a.accepted) :
        m.ref ∈ cs.filterMap enqueuedRef ++ [c].filterMap enqueuedRef :=
      List.mem_append_left _ (hfrom m hm)
    generalize hcall : c.call = call at hturn
    cases hturn with
    | still => exact hold hm
    | accepted sdu ac _ =>
      rcases List.mem_append.mp hm with hm | hm
      · exact hold hm
      · exact List.mem_append_right _ (List.mem_singleton.mp hm ▸ hnew hcall)
    | polled => exact hold hm
    | tookExpired => exact hold hm
    | tookAbandoned => exact hold hm
    | tookCcDropped => exact hold hm

lemma accounted_newUe (e : SpsEngine) : Accounted e.newUe.book Account.empty where
  places_perm := List.Perm.nil
  nodup := List.nodup_nil
  increasing := List.Pairwise.nil
  announced _ hg := absurd hg (List.not_mem_nil)
  owed_announced _ hp := absurd hp (List.not_mem_nil)
  owed_later _ hp := absurd hp (List.not_mem_nil)
  owed_apart := List.Pairwise.nil
  reported_nodup := List.nodup_nil
  reported_closed _ hm := absurd hm (List.not_mem_nil)
  ordered _ hr := absurd hr (Option.not_mem_none _)

lemma tracked (e : SpsEngine) (draws : ℕ → ℕ → UInt64) (node : ℕ) (calls : List SpsTimed)
    (hprompt : Mealy.Always (e.step draws) (fun s c => e.Prompt (s c.node).book c) e.init calls) :
    Tracked (callsOf node calls) (Mealy.run (e.step draws) e.init calls node).book
      (e.account draws node calls) :=
  turn_induction (e := e) (G := e.Prompt) (P := Tracked)
    (fun _ _ _ _ _ _ h hprompt hturn => h.turn hprompt hturn) node
    (fun _ => ⟨e.accounted_newUe, fun _ hm => absurd hm (List.not_mem_nil)⟩) calls hprompt

/-- **Every block is accounted for.** If a UE is never polled between a retransmission it missed and
a later one of the same block, then in every run each accepted block is in one place, its grants
come in the order of their attempts and on announced resources, it is reported at most once, and
after that it is never granted again. -/
theorem blocks_accounted (e : SpsEngine) (draws : ℕ → ℕ → UInt64) (node : ℕ)
    (calls more : List SpsTimed) (hrefs : (refsOf (callsOf node (calls ++ more))).Nodup)
    (hprompt : Mealy.Always (e.step draws) (fun s c => e.Prompt (s c.node).book c) e.init
      (calls ++ more)) :
    Accounted (Mealy.run (e.step draws) e.init (calls ++ more) node).book
        (e.account draws node (calls ++ more)) ∧
      ∀ m ∈ reported (Mealy.run (e.step draws) e.init calls node).book (e.account draws node calls),
        (e.account draws node (calls ++ more)).grantsOf m.ref =
          (e.account draws node calls).grantsOf m.ref := by
  refine ⟨(e.tracked draws node _ hprompt hrefs).1, fun m hm => ?_⟩
  obtain ⟨hfirst, hrest⟩ := (Mealy.always_append calls more e.init).mp hprompt
  have hcalls : callsOf node (calls ++ more) = callsOf node calls ++ callsOf node more :=
    List.filter_append ..
  rw [hcalls] at hrefs
  have htracked := e.tracked draws node calls hfirst
  rw [account_append]
  have hrun := turn_induction (e := e) (G := e.Prompt)
    (P := fun cs b a => Tracked (callsOf node calls ++ cs) b a ∧
      ((refsOf (callsOf node calls ++ cs)).Nodup → m ∈ reported b a ∧
        a.grantsOf m.ref = (e.account draws node calls).grantsOf m.ref))
    (fun cs c b a b' a' h hprompt hturn => ?_) node
    ⟨(List.append_nil _).symm ▸ htracked, fun _ => ⟨hm, rfl⟩⟩ more hrest
  · exact (hrun.2 hrefs).2
  · obtain ⟨htracked, hsame⟩ := h
    have hnext := htracked.turn hprompt hturn
    rw [List.append_assoc] at hnext
    refine ⟨hnext, fun hnodup => ?_⟩
    rw [← List.append_assoc, refsOf, List.filterMap_append] at hnodup
    have hcs := (List.nodup_append.mp hnodup).1
    obtain ⟨hm, hgrants⟩ := hsame hcs
    obtain ⟨hkept, hm'⟩ := (htracked hcs).1.grantsOf_turn hm hturn
    exact ⟨hm', hkept.trans hgrants⟩

/-! ## A run of NR with two retransmissions -/

/-- A validation pool of NR, with random selection and two retransmissions. -/
def nrRetx : SpsEngine :=
  ⟨.todiscoNr .mu0 ⟨4, 490⟩,
    ((SpsParams.aliTodisco .mu0 false).withoutSensing).withMaxTransmissions 3, 8, cbrThresholdMw⟩

/-- Draws that book slot 2 with retransmissions in slots 3 and 5. -/
def spread : ℕ → ℕ → UInt64 := fun _ i => if i = 3 then 0x0888888888888889 else 0

/-- A block is queued, and granted in slot 2. -/
def first : List SpsTimed :=
  [⟨0, 0, .enqueue (block 1 190 0) .vi⟩, ⟨0, 0, .poll⟩, ⟨2000000, 0, .poll⟩]

/-- Polls in the slots of its retransmissions. -/
def polledOnTime : List SpsTimed := [⟨3000000, 0, .poll⟩, ⟨5000000, 0, .poll⟩]

/-- All three attempts are granted. -/
theorem blocks_accounted_nr :
    Accounted (Mealy.run (nrRetx.step spread) nrRetx.init (first ++ polledOnTime) 0).book
        (nrRetx.account spread 0 (first ++ polledOnTime)) ∧
      ((nrRetx.account spread 0 (first ++ polledOnTime)).grants.map fun g => g.1.attempt) =
        [1, 2, 3] :=
  ⟨(blocks_accounted nrRetx spread 0 first polledOnTime (by decide) (by decide +kernel)).1,
    by decide +kernel⟩

/-- A block whose second attempt is missed is reported as abandoned in slot 4, granted in slot 5 all
the same; and if that is missed too, it is reported again. -/
theorem reported_and_granted :
    let missed := first ++ [⟨4000000, 0, .poll⟩]
    let after := fun calls => reported (Mealy.run (nrRetx.step spread) nrRetx.init calls 0).book
      (nrRetx.account spread 0 calls)
    let attempts := fun calls => (nrRetx.account spread 0 calls).grants.map fun g => g.1.attempt
    after missed = [block 1 190 0] ∧ attempts missed = [1] ∧
      attempts (missed ++ [⟨5000000, 0, .poll⟩]) = [1, 3] ∧
      after (missed ++ [⟨6000000, 0, .poll⟩]) = [block 1 190 0, block 1 190 0] := by
  decide +kernel

end SpsEngine

end V2xw.Radio
