import V2xw.Radio.SpsPoll

/-!
# What a selection books

A selection books a resource of the selection window, and its retransmissions in later slots, each
in another one. It succeeds whenever the window has a resource.

## Main definitions

* `Reservation.Ordered` — the retransmissions come after the first transmission, one after
  the other.
* `SpsEngine.Selected` — a reservation that a selection can book.

## Main results

* `SpsEngine.select_eq` — a selection changes nothing but the reservation.
* `SpsEngine.select_isSome` — it books a resource if there is one.
-/

namespace V2xw.Radio

/-- The retransmissions of a reservation come after the first transmission, one after the other. -/
def Reservation.Ordered (r : Reservation) : Prop :=
  (∀ x ∈ r.retx, 0 < x.1) ∧ r.retx.Pairwise fun x y => x.1 < y.1

namespace SpsEngine

variable (e : SpsEngine)

/-- A reservation that a selection can book. -/
structure Selected (triggerSlot len : ℕ) (r : Reservation) : Prop where
  first_le : triggerSlot + e.params.t1Slots ≤ r.nextSlot
  len_eq : r.len = len
  rriSlots_eq : r.rriSlots = e.params.rri.slots e.pool.mu
  le_cResel : (e.params.rri.cReselRange e.params.rat).1 ≤ r.cResel
  ordered : r.Ordered

variable {e}

/-! ## Candidates -/

lemma slot_of_mem_candidates {triggerSlot len : ℕ} {r : SlResource}
    (h : r ∈ e.candidates triggerSlot len) :
    triggerSlot + e.params.t1Slots ≤ r.slot ∧ r.len = len := by
  unfold candidates at h
  dsimp only at h
  split at h
  · exact absurd h (List.not_mem_nil)
  · obtain ⟨slot, hslot, h⟩ := List.mem_flatMap.mp h
    obtain ⟨start, _, rfl⟩ := List.mem_map.mp h
    exact ⟨(List.mem_range'_1.mp hslot).1, rfl⟩

lemma candidates_ne_nil {triggerSlot len : ℕ} (hwindow : e.params.t1Slots ≤ e.params.t2Slots)
    (hpos : 0 < len) (hfit : len ≤ e.pool.subchannels) : e.candidates triggerSlot len ≠ [] := by
  unfold candidates
  dsimp only
  rw [if_neg (by omega)]
  refine List.ne_nil_of_mem (a := ⟨triggerSlot + e.params.t1Slots, 0, len⟩) ?_
  refine List.mem_flatMap.mpr ⟨triggerSlot + e.params.t1Slots, ?_, ?_⟩
  · exact List.mem_range'_1.mpr ⟨le_refl _, by omega⟩
  · exact List.mem_map.mpr ⟨0, List.mem_range.mpr (Nat.succ_pos _), rfl⟩

lemma length_exclude (u : UeState) (triggerSlot len : ℕ) (threshold : ℚ) :
    (e.exclude u triggerSlot len threshold).length = (e.candidates triggerSlot len).length := by
  unfold exclude
  split <;> exact List.length_map ..

/-- Raising the threshold ends with a verdict on each candidate, and with survivors. -/
lemma stepUp_spec (u : UeState) {triggerSlot len need : ℕ} (hneed : 0 < need)
    (hne : e.candidates triggerSlot len ≠ []) (fuel : ℕ) :
    ∀ threshold stepUps,
      (e.stepUp u triggerSlot len need fuel threshold stepUps).1.length =
          (e.candidates triggerSlot len).length ∧
        true ∈ (e.stepUp u triggerSlot len need fuel threshold stepUps).1 := by
  induction fuel with
  | zero =>
    intro threshold stepUps
    obtain ⟨c, hc⟩ := List.exists_mem_of_ne_nil _ hne
    exact ⟨List.length_map .., List.mem_map.mpr ⟨c, hc, rfl⟩⟩
  | succ fuel ih =>
    intro threshold stepUps
    unfold stepUp
    dsimp only
    split
    · next h =>
      refine ⟨length_exclude u triggerSlot len threshold, ?_⟩
      obtain ⟨b, hb, hid⟩ := List.countP_pos_iff.mp (lt_of_lt_of_le hneed h)
      rw [id] at hid
      exact hid ▸ hb
    · exact ih _ _

lemma mem_of_mem_surviving {candidates : List SlResource} {keep : List Bool} {r : SlResource}
    (h : r ∈ surviving candidates keep) : r ∈ candidates := by
  obtain ⟨x, hx, rfl⟩ := List.mem_map.mp h
  exact (List.of_mem_zip (List.mem_filter.mp hx).1).1

lemma surviving_ne_nil {candidates : List SlResource} {keep : List Bool}
    (hlen : keep.length = candidates.length) (h : true ∈ keep) :
    surviving candidates keep ≠ [] := by
  obtain ⟨i, hi, hkeep⟩ := List.getElem_of_mem h
  have hi' : i < candidates.length := hlen ▸ hi
  refine List.ne_nil_of_mem (a := candidates[i]) ?_
  refine List.mem_map.mpr ⟨(candidates[i], true), List.mem_filter.mpr ⟨?_, rfl⟩, rfl⟩
  refine List.mem_of_getElem (i := i) (h := ?_) ?_
  · rw [List.length_zip, hlen, min_self]
    exact hlen ▸ hi
  · rw [List.getElem_zip, hkeep]

lemma mem_of_mem_ranked {node : ℕ} {u : UeState} {triggerSlot total : ℕ}
    {survivors : List SlResource} {r : SlResource}
    (h : r ∈ e.ranked node u triggerSlot total survivors) : r ∈ survivors := by
  unfold ranked at h
  split at h
  · obtain ⟨x, hx, rfl⟩ := List.mem_map.mp h
    have hx := (List.mem_insertionSort _).mp (List.mem_of_mem_take hx)
    obtain ⟨r, hr, rfl⟩ := List.mem_map.mp hx
    exact hr
  · exact h

lemma ranked_ne_nil {node : ℕ} {u : UeState} {triggerSlot total : ℕ}
    {survivors : List SlResource} (h : survivors ≠ []) :
    e.ranked node u triggerSlot total survivors ≠ [] := by
  unfold ranked
  split
  · have hpos := List.length_pos_iff.mpr h
    refine List.ne_nil_of_length_pos ?_
    rw [List.length_map, List.length_take, List.length_insertionSort, List.length_map]
    omega
  · exact h

/-! ## Retransmissions -/

/-- The resources drawn for a transport block are in slots of their own. -/
lemma pickRetx_spec {P : SlResource → Prop} (draws : ℕ → UInt64) (w : ℕ)
    {ranked survivors : List SlResource} (hranked : ∀ r ∈ ranked, P r)
    (hsurvivors : ∀ r ∈ survivors, P r) (n : ℕ) :
    ∀ picks drawn, picks ≠ [] → (∀ r ∈ picks, P r) → (picks.map SlResource.slot).Nodup →
      (pickRetx draws w ranked survivors n picks drawn).1 ≠ [] ∧
        (∀ r ∈ (pickRetx draws w ranked survivors n picks drawn).1, P r) ∧
        ((pickRetx draws w ranked survivors n picks drawn).1.map SlResource.slot).Nodup := by
  induction n with
  | zero => exact fun picks drawn hne hP hnodup => ⟨hne, hP, hnodup⟩
  | succ n ih =>
    intro picks drawn hne hP hnodup
    unfold pickRetx
    dsimp only
    split
    · exact ⟨hne, hP, hnodup⟩
    · next r hr =>
      have hmem := List.mem_of_getElem? hr
      have hr : P r ∧ fits w picks r = true := by
        split at hmem
        · obtain ⟨hmem, hfits⟩ := List.mem_filter.mp hmem
          exact ⟨hsurvivors r hmem, hfits⟩
        · obtain ⟨hmem, hfits⟩ := List.mem_filter.mp hmem
          exact ⟨hranked r hmem, hfits⟩
      refine ih _ _ (List.append_ne_nil_of_left_ne_nil hne _) (fun x hx => ?_) ?_
      · rcases List.mem_append.mp hx with hx | hx
        · exact hP x hx
        · exact List.mem_singleton.mp hx ▸ hr.1
      · rw [List.map_append, List.map_singleton, List.nodup_append]
        refine ⟨hnodup, List.nodup_singleton _, fun a ha b hb hab => ?_⟩
        obtain ⟨p, hp, rfl⟩ := List.mem_map.mp ha
        have hnone := (Bool.and_eq_true_iff.mp hr.2).1
        rw [Bool.not_eq_true', List.any_eq_false] at hnone
        exact hnone p hp (by rw [hab, List.mem_singleton.mp hb]; exact beq_self_eq_true _)

instance : Std.Total Before := ⟨fun r r' => by unfold Before; omega⟩

instance : IsTrans SlResource Before := ⟨fun r r' r'' => by unfold Before; omega⟩

lemma pairwise_slot_insertionSort {picks : List SlResource}
    (hnodup : (picks.map SlResource.slot).Nodup) :
    (picks.insertionSort Before).Pairwise fun r r' => r.slot < r'.slot := by
  have hsorted := List.pairwise_insertionSort Before picks
  have hslots : ((picks.insertionSort Before).map SlResource.slot).Nodup :=
    ((List.perm_insertionSort Before picks).map _).nodup_iff.mpr hnodup
  refine (hsorted.and (List.pairwise_map.mp hslots)).imp fun {r r'} h => ?_
  obtain ⟨hlt | ⟨heq, -⟩, hne⟩ := h
  · exact hlt
  · exact absurd heq hne

/-! ## Selection -/

lemma le_drawCResel (draws : ℕ → UInt64) (drawn : ℕ) :
    (e.params.rri.cReselRange e.params.rat).1 ≤ (e.drawCResel draws drawn).1 := by
  unfold drawCResel
  dsimp only
  split
  · exact Nat.le_add_right ..
  · exact le_refl _

lemma selected_reserve {triggerSlot len cResel : ℕ} {first : SlResource} {later : List SlResource}
    (hcResel : (e.params.rri.cReselRange e.params.rat).1 ≤ cResel)
    (hfirst : triggerSlot + e.params.t1Slots ≤ first.slot ∧ first.len = len)
    (hsorted : (first :: later).Pairwise fun r r' => r.slot < r'.slot) :
    e.Selected triggerSlot len (e.reserve cResel first later) := by
  obtain ⟨hlater, hsorted⟩ := List.pairwise_cons.mp hsorted
  have hsub : List.Sublist (later.take 2) later := List.take_sublist 2 later
  refine ⟨hfirst.1, hfirst.2, rfl, hcResel, fun x hx => ?_, ?_⟩
  · obtain ⟨r, hr, rfl⟩ := List.mem_map.mp hx
    exact Nat.sub_pos_of_lt (hlater r (hsub.mem hr))
  · refine List.pairwise_map.mpr ((hsorted.sublist hsub).imp_of_mem fun {r r'} hr _ h => ?_)
    exact Nat.sub_lt_sub_right (le_of_lt (hlater r (hsub.mem hr))) h

/-- A selection changes nothing but the reservation, the last selection and the draws. What it books
can be selected. -/
lemma select_eq (draws : ℕ → UInt64) (node triggerSlot len : ℕ) (reason : SelectionReason)
    (u : UeState) : ∃ reservation lastSelection drawn,
      (e.select draws node triggerSlot len reason u).2 =
          { u with reservation, lastSelection, drawn } ∧
        (reservation = u.reservation ∨ ∃ r, reservation = some r ∧
            e.Selected triggerSlot len r) := by
  unfold select
  dsimp only
  split
  · exact ⟨_, _, _, rfl, .inl rfl⟩
  · generalize e.stepUp .. = raised
    split
    · exact ⟨_, _, _, rfl, .inl rfl⟩
    · next chosen hchosen =>
      have hwindow {r} (hr : r ∈ surviving (e.candidates triggerSlot len) raised.1) :=
        slot_of_mem_candidates (mem_of_mem_surviving hr)
      have hchosen := mem_of_mem_ranked (List.mem_of_getElem? hchosen)
      split
      · exact ⟨_, _, _, rfl, .inl rfl⟩
      · next first later hpicks =>
        obtain ⟨_, hin, hnodup⟩ := pickRetx_spec
          (P := fun r => triggerSlot + e.params.t1Slots ≤ r.slot ∧ r.len = len) draws
          e.params.retxWindowSlots (fun r hr => hwindow (mem_of_mem_ranked hr))
          (fun r hr => hwindow hr) e.retxBudget [chosen] _ (List.cons_ne_nil _ _)
          (fun r hr => List.mem_singleton.mp hr ▸ hwindow hchosen) (List.nodup_singleton _)
        have hsorted := pairwise_slot_insertionSort hnodup
        rw [hpicks] at hsorted
        refine ⟨_, _, _, rfl, .inr ⟨_, rfl, ?_⟩⟩
        refine selected_reserve (le_drawCResel draws _) (hin first ?_) hsorted
        refine (List.mem_insertionSort Before).mp ?_
        rw [hpicks]
        exact List.mem_cons_self ..

/-- A selection books a resource if the window has one. -/
lemma select_isSome (draws : ℕ → UInt64) (node : ℕ) {triggerSlot len : ℕ}
    (reason : SelectionReason)
    (u : UeState) (hne : e.candidates triggerSlot len ≠ []) :
    (e.select draws node triggerSlot len reason u).2.reservation.isSome := by
  unfold select
  dsimp only
  rw [if_neg (by simpa using hne)]
  have hneed : 0 < max ⌈((e.candidates triggerSlot len).length : ℚ) *
    e.params.txPercentage.fraction⌉₊ 1 := by omega
  have hraised := stepUp_spec u hneed hne 65 e.params.rsrpThresholdDbm 0
  generalize e.stepUp .. = raised at hraised ⊢
  have hranked : e.ranked node u triggerSlot (e.candidates triggerSlot len).length
      (surviving (e.candidates triggerSlot len) raised.1) ≠ [] :=
    ranked_ne_nil (surviving_ne_nil hraised.1 hraised.2)
  rw [List.getElem?_eq_getElem (below_lt (draws u.drawn) (List.length_pos_iff.mpr hranked))]
  dsimp only
  split
  · next hpicks =>
    have hlen := congrArg List.length hpicks
    rw [List.length_insertionSort, List.length_nil, List.length_eq_zero_iff] at hlen
    refine absurd hlen (pickRetx_spec (P := fun _ => True) draws e.params.retxWindowSlots
      (fun _ _ => trivial) (fun _ _ => trivial) e.retxBudget [_] _ (List.cons_ne_nil _ _)
      (fun _ _ => trivial) (List.nodup_singleton _)).1
  · rfl

end SpsEngine

end V2xw.Radio
