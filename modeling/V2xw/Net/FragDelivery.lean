import V2xw.Net.FragRun

/-!
# Delivery of a split SDU

One SDU of one sender, followed through an arbitrary run of the reassembly buffer: other keys'
fragments, expiries and repeats come in between in any order.

## Main definitions

* `ReassemblyBuffer.Sent` — the fragments of one key in a run, and that the first one
  found a slot.
* `ReassemblyBuffer.Collecting`, `ReassemblyBuffer.Delivered` — what the buffer
  holds for the key before and after the last distinct index.

## Main results

* `ReassemblyBuffer.Sent.collecting` — before the deadline the open entry is exactly what
  arrived.
* `ReassemblyBuffer.Delivered.exec` — after completion the key stays remembered.
* `ReassemblyBuffer.sent_delivered_once` — the replies to every arrival of the key.
-/

namespace V2xw.Net.ReassemblyBuffer

open V2xw.Core

/-- The arrival of a fragment of the key. -/
abbrev arrive (key : Key) (t : SimTime) (f : FragmentDesc) : Call := .accept t (ofLex key).1 f

/-! ## Calls for other keys -/

lemma fragOf_eq_some {key : Key} {c : Call} {f : FragmentDesc} (h : c.fragOf key = some f) :
    ∃ t, c = arrive key t f ∧ f.sdu = (ofLex key).2 := by
  cases c with
  | accept t sender frag =>
    simp only [Call.fragOf] at h
    split_ifs at h with hk
    obtain rfl := Option.some.inj h
    subst hk
    exact ⟨t, rfl, rfl⟩
  | expire t => simp [Call.fragOf] at h

lemma fragOf_accept {key : Key} {t : SimTime} {f : FragmentDesc} (h : f.sdu = (ofLex key).2) :
    Call.fragOf key (arrive key t f) = some f := by
  simp only [Call.fragOf, h]
  exact if_pos rfl

lemma step_entries_of_fragOf_none (b : ReassemblyBuffer) {c : Call} {key : Key}
    (h : c.fragOf key = none) : (b.step c).2.entries[key]? = (b.purge c.time).entries[key]? := by
  rcases step_cases b c with ⟨now, sender, frag, o, rfl, -, hstep⟩ | ⟨now, rfl, heq⟩
  · refine hstep.entries_of_ne fun hk => ?_
    simp [Call.fragOf, hk] at h
  · rw [heq]

/-- A key that never arrived is neither open nor remembered. -/
lemma get_eq_none_of_frags_nil (maxOpen : ℕ) (timeout : Duration) {key : Key} (cs : List Call)
    (h : frags key cs = []) :
    ((new maxOpen timeout).exec cs).entries[key]? = none ∧
      ((new maxOpen timeout).exec cs).completed[key]? = none := by
  induction cs using List.reverseRecOn with
  | nil => simp [new]
  | append_singleton cs c ih =>
    rw [frags_append, List.append_eq_nil_iff, frags_singleton] at h
    have hc : c.fragOf key = none := by simpa using h.2
    obtain ⟨hent, hcomp⟩ := ih h.1
    rw [exec_snoc]
    have hcomp' : (((new maxOpen timeout).exec cs).purge c.time).completed[key]? = none := by
      rw [completed_purge, hcomp]
      rfl
    refine ⟨?_, ?_⟩
    · rw [step_entries_of_fragOf_none _ hc, entries_purge, hent]
      rfl
    · rcases step_cases ((new maxOpen timeout).exec cs) c with
        ⟨now, sender, frag, o, rfl, -, hstep⟩ | ⟨now, rfl, heq⟩
      · have hk : (toLex (sender, frag.sdu) : Key) ≠ key := by
          intro hk
          simp [Call.fragOf, hk] at hc
        rcases hstep.completed_of_ne hk with heq | ⟨-, -, -, -, d, hd, -⟩
        · rw [heq, hcomp']
        · exact absurd (hcomp'.symm.trans hd) (by simp)
      · rw [heq]
        exact hcomp'

/-! ## The fragments of one key -/

section Delivery

variable (maxOpen : ℕ) (timeout : Duration) (key : Key) (n : ℕ) (pre : List Call)
  (t₀ : SimTime) (f₀ : FragmentDesc) (rest : List Call)

/-- The fragments of a split SDU in the run `pre`, first arrival `f₀` at `t₀`, `rest`: the calls
are in time order, the fragments agree on the count, the first one found a slot, and the payload
fits its counter. -/
structure Sent : Prop where
  two_le : 2 ≤ n
  le_max : n ≤ 256
  sorted : ((pre ++ arrive key t₀ f₀ :: rest).map Call.time).Pairwise (· ≤ ·)
  first : frags key pre = []
  sdu : f₀.sdu = (ofLex key).2
  agree : ∀ f ∈ f₀ :: frags key rest, f.count = n ∧ f.index < n
  slot : (((new maxOpen timeout).exec pre).purge t₀).opened < maxOpen
  fits : payloadSum (f₀ :: frags key rest) < 2 ^ 32

/-- The buffer holds exactly the fragments `l` of the key. -/
def Collecting (b : ReassemblyBuffer) (l : List FragmentDesc) : Prop :=
  ∃ e, b.entries[key]? = some e ∧ e.want = n ∧ e.seen.toFinset = indices l ∧
    e.bytes = payloadSum l ∧ e.deadline = timeout.after t₀

/-- The key was completed at `t` and is remembered. -/
def Delivered (b : ReassemblyBuffer) (t : SimTime) : Prop :=
  b.entries[key]? = none ∧ b.completed[key]? = some ⟨n, timeout.after t⟩

variable {maxOpen timeout key n pre t₀ f₀ rest}

/-! ### One arrival -/

lemma arrival_step (maxOpen : ℕ) (timeout : Duration) (cs : List Call) (t : SimTime)
    {f : FragmentDesc} (hsdu : f.sdu = (ofLex key).2) :
    ∃ o, (new maxOpen timeout).answer cs (arrive key t f) = .outcome o ∧
      AcceptStep (((new maxOpen timeout).exec cs).purge t) t key f o
        ((new maxOpen timeout).exec (cs ++ [arrive key t f])) := by
  refine ⟨_, rfl, ?_⟩
  have hstep := ((new maxOpen timeout).exec cs).accept_step t (ofLex key).1 f
  rw [hsdu] at hstep
  rw [exec_snoc]
  exact hstep

/-- **The first arrival** of a key opens a set, when there is a slot, and is pending. -/
lemma opens_of_first (hfirst : frags key pre = []) (hs : IsSplit f₀) (hcount : f₀.count = n)
    (hsdu : f₀.sdu = (ofLex key).2)
    (hslot : (((new maxOpen timeout).exec pre).purge t₀).opened < maxOpen) :
    (new maxOpen timeout).answer pre (arrive key t₀ f₀) =
        .outcome (.pending f₀.sdu 1 n) ∧
      Collecting timeout key n t₀
        ((new maxOpen timeout).exec (pre ++ [arrive key t₀ f₀])) [f₀] := by
  obtain ⟨hent, hcomp⟩ := get_eq_none_of_frags_nil maxOpen timeout pre hfirst
  obtain ⟨hmax, htime⟩ := exec_frame maxOpen timeout pre
  obtain ⟨o, hans, hstep⟩ := arrival_step maxOpen timeout pre t₀ hsdu
  have hroom : (((new maxOpen timeout).exec pre).purge t₀).entries.size <
      (((new maxOpen timeout).exec pre).purge t₀).maxOpen := hmax.symm ▸ hslot
  obtain ⟨rfl, seen, hseen, hget⟩ := hstep.of_fresh hs
    (by rw [entries_purge, hent]; rfl) (by rw [completed_purge, hcomp]; rfl) hroom
  refine ⟨by rw [hans, hcount], _, hget, hcount, ?_, ?_, ?_⟩
  · rw [hseen, indices_singleton]
  · simp [payloadSum]
  · exact congrArg (fun T => Duration.after T t₀) htime

/-- **An arrival before the deadline** of an open set: a repeat or one that leaves an index missing
is pending and counted once; the one that brings the last index completes the set. -/
theorem Collecting.arrival {cs : List Call} {l : List FragmentDesc}
    (hcol : Collecting timeout key n t₀ ((new maxOpen timeout).exec cs) l) {t : SimTime}
    {f : FragmentDesc} (hs : IsSplit f) (hcount : f.count = n) (ht : t < timeout.after t₀)
    (hsdu : f.sdu = (ofLex key).2) (hfits : payloadSum (l ++ [f]) < 2 ^ 32) :
    (f.index ∈ indices l ∨ (indices l).card + 1 ≠ n →
      (new maxOpen timeout).answer cs (arrive key t f) =
          .outcome (.pending f.sdu (indices (l ++ [f])).card n) ∧
        Collecting timeout key n t₀
          ((new maxOpen timeout).exec (cs ++ [arrive key t f])) (l ++ [f])) ∧
    (f.index ∉ indices l → (indices l).card + 1 = n →
      (new maxOpen timeout).answer cs (arrive key t f) =
          .outcome (.complete f.sdu (payloadSum (l ++ [f])) n) ∧
        Delivered timeout key n
          ((new maxOpen timeout).exec (cs ++ [arrive key t f])) t) := by
  obtain ⟨e, he, hwant, hseen, hbytes, hdl⟩ := hcol
  have hok := (inv_exec maxOpen timeout cs).entry key e he
  have htime := (exec_frame maxOpen timeout cs).2
  have hgot : e.got = (indices l).card := by rw [hok.got_eq, hseen]
  have hbent : (((new maxOpen timeout).exec cs).purge t).entries[key]? = some e := by
    rw [entries_purge, he, Option.filter_some, if_pos]
    simpa [hdl] using ht
  obtain ⟨o, hans, hstep⟩ := arrival_step maxOpen timeout cs t hsdu
  rw [hans]
  rcases hstep.of_open hs hbent (hwant.trans hcount.symm) with
    ⟨hmem, rfl, hb⟩ | ⟨hnew, hlast, rfl, seen, hseen', hget⟩ | ⟨hnew, hlast, rfl, hnone, hget⟩
  · rw [hseen] at hmem
    have hsame : indices (l ++ [f]) = indices l := by
      rw [indices_snoc]
      exact Finset.insert_eq_self.2 hmem
    rw [hsame, hb]
    refine ⟨fun _ => ⟨by rw [hgot, hwant], e, hbent, hwant, by rw [hseen, hsame], ?_, hdl⟩,
      fun hnew => absurd hmem hnew⟩
    rw [hbytes, payloadSum_snoc, if_pos hmem, Nat.add_zero]
  · rw [hseen] at hnew
    have hcard : (indices (l ++ [f])).card = e.got + 1 := by
      rw [indices_snoc, Finset.card_insert_of_notMem hnew, hgot]
    have hsum : payloadSum (l ++ [f]) = e.bytes + f.payloadBytes := by
      rw [payloadSum_snoc, if_neg hnew, hbytes]
    refine ⟨fun _ => ⟨by rw [hcard, hwant], _, hget, hwant, ?_, ?_, hdl⟩,
      fun _ hfull => absurd (hgot ▸ hwant ▸ hfull) hlast⟩
    · rw [hseen', hseen, indices_snoc]
    · rw [hsum]
      dsimp only
      omega
  · rw [hseen] at hnew
    have hfull : (indices l).card + 1 = n := by rw [← hgot, hlast, hwant]
    have hsum : payloadSum (l ++ [f]) = e.bytes + f.payloadBytes := by
      rw [payloadSum_snoc, if_neg hnew, hbytes]
    refine ⟨fun hor => absurd hor (by simp [hnew, hfull]), fun _ _ => ⟨?_, hnone, ?_⟩⟩
    · rw [hsum, hwant, Nat.min_eq_left (by omega)]
    · rw [hget, hwant]
      exact congrArg (fun T => some (Completed.mk n (Duration.after T t))) htime

namespace Sent

lemma isSplit (h : Sent maxOpen timeout key n pre t₀ f₀ rest) {f : FragmentDesc}
    (hf : f ∈ f₀ :: frags key rest) : IsSplit f := by
  obtain ⟨hcount, hindex⟩ := h.agree f hf
  have := h.two_le
  have := h.le_max
  exact ⟨by omega, by omega, by omega⟩

lemma indices_eq_range_iff (h : Sent maxOpen timeout key n pre t₀ f₀ rest)
    {l : List FragmentDesc} (hl : ∀ f ∈ l, f ∈ f₀ :: frags key rest) :
    indices l = Finset.range n ↔ (indices l).card = n := by
  have hsub : indices l ⊆ Finset.range n := by
    intro i hi
    obtain ⟨f, hf, rfl⟩ := List.mem_map.1 (List.mem_toFinset.1 hi)
    exact Finset.mem_range.2 (h.agree f (hl f hf)).2
  constructor
  · intro heq
    rw [heq, Finset.card_range]
  · intro hcard
    exact Finset.eq_of_subset_of_card_le hsub (by rw [Finset.card_range, hcard])

lemma opens (h : Sent maxOpen timeout key n pre t₀ f₀ rest) :
    (new maxOpen timeout).answer pre (arrive key t₀ f₀) =
        .outcome (.pending f₀.sdu 1 n) ∧
      Collecting timeout key n t₀
        ((new maxOpen timeout).exec (pre ++ [arrive key t₀ f₀])) [f₀] :=
  opens_of_first h.first (h.isSplit List.mem_cons_self) (h.agree f₀ List.mem_cons_self).1 h.sdu
    h.slot

/-- **An arrival before the deadline** answers by the distinct indices so far; the last one
completes the set and has it remembered, any other leaves it open. -/
theorem arrival (h : Sent maxOpen timeout key n pre t₀ f₀ rest) {cs : List Call}
    {l : List FragmentDesc}
    (hcol : Collecting timeout key n t₀ ((new maxOpen timeout).exec cs) l)
    (hl : ∀ f ∈ l, f ∈ f₀ :: frags key rest) (hfull : indices l ≠ Finset.range n)
    {t : SimTime} {f : FragmentDesc} (ht : t < timeout.after t₀) (hsdu : f.sdu = (ofLex key).2)
    (hf : f ∈ f₀ :: frags key rest) (hfits : payloadSum (l ++ [f]) < 2 ^ 32) :
    (indices (l ++ [f]) = Finset.range n →
      (new maxOpen timeout).answer cs (arrive key t f) =
          .outcome (.complete f.sdu (payloadSum (l ++ [f])) n) ∧
        Delivered timeout key n
          ((new maxOpen timeout).exec (cs ++ [arrive key t f])) t) ∧
    (indices (l ++ [f]) ≠ Finset.range n →
      (new maxOpen timeout).answer cs (arrive key t f) =
          .outcome (.pending f.sdu (indices (l ++ [f])).card n) ∧
        Collecting timeout key n t₀
          ((new maxOpen timeout).exec (cs ++ [arrive key t f])) (l ++ [f])) := by
  have hcount := (h.agree f hf).1
  have hl' : ∀ g ∈ l ++ [f], g ∈ f₀ :: frags key rest := by
    intro g hg
    rcases List.mem_append.1 hg with hg | hg
    · exact hl g hg
    · rw [List.mem_singleton.1 hg]
      exact hf
  have hiff := h.indices_eq_range_iff hl'
  obtain ⟨hpend, hlast⟩ := hcol.arrival (h.isSplit hf) hcount ht hsdu hfits
  by_cases hmem : f.index ∈ indices l
  · have hsame : indices (l ++ [f]) = indices l := by
      rw [indices_snoc]
      exact Finset.insert_eq_self.2 hmem
    exact ⟨fun hr => absurd (hsame ▸ hr) hfull, fun _ => hpend (Or.inl hmem)⟩
  · have hcard : (indices (l ++ [f])).card = (indices l).card + 1 := by
      rw [indices_snoc, Finset.card_insert_of_notMem hmem]
    refine ⟨fun hr => hlast hmem ?_, fun hr => hpend (Or.inr fun hn => hr (hiff.2 ?_))⟩
    · rw [← hcard]
      exact hiff.1 hr
    · rw [hcard, hn]

lemma mem_of_prefix (h : Sent maxOpen timeout key n pre t₀ f₀ rest) {q post : List Call}
    (hq : rest = q ++ post) : ∀ f ∈ f₀ :: frags key q, f ∈ f₀ :: frags key rest := by
  intro f hf
  rcases List.mem_cons.1 hf with rfl | hf
  · exact List.mem_cons_self
  · rw [hq, frags_append]
    exact List.mem_cons_of_mem _ (List.mem_append_left _ hf)

lemma fits_of_prefix (h : Sent maxOpen timeout key n pre t₀ f₀ rest) {q post : List Call}
    (hq : rest = q ++ post) : payloadSum (f₀ :: frags key q) < 2 ^ 32 := by
  refine lt_of_le_of_lt ?_ h.fits
  rw [hq, frags_append, ← List.cons_append]
  exact payloadSum_le_append _ _

lemma missing_of_prefix (h : Sent maxOpen timeout key n pre t₀ f₀ rest) {q q' post : List Call}
    (hq : rest = (q ++ q') ++ post) (hmiss : indices (f₀ :: frags key (q ++ q')) ≠ Finset.range n) :
    indices (f₀ :: frags key q) ≠ Finset.range n := by
  intro hall
  refine hmiss (Finset.Subset.antisymm ?_ ?_)
  · intro i hi
    obtain ⟨f, hf, rfl⟩ := List.mem_map.1 (List.mem_toFinset.1 hi)
    exact Finset.mem_range.2 (h.agree f (h.mem_of_prefix hq f hf)).2
  · rw [frags_append, ← List.cons_append, indices_append, ← hall]
    exact Finset.subset_union_left

/-- **Before the deadline** the buffer holds exactly the fragments that arrived, as long as an
index is missing.

**Proof sketch.** Induction on the calls after the first arrival. A call for another key purges
nothing of this one before the deadline, and an arrival that does not complete the set adds its
index (`arrival`). -/
theorem collecting (h : Sent maxOpen timeout key n pre t₀ f₀ rest) (q : List Call) :
    ∀ post, rest = q ++ post → (∀ c ∈ q, c.time < timeout.after t₀) →
      indices (f₀ :: frags key q) ≠ Finset.range n →
      Collecting timeout key n t₀
        ((new maxOpen timeout).exec (pre ++ arrive key t₀ f₀ :: q))
        (f₀ :: frags key q) := by
  induction q using List.reverseRecOn with
  | nil => exact fun post _ _ _ => h.opens.2
  | append_singleton q c ih =>
    intro post hq htime hmiss
    have hq' : rest = q ++ (c :: post) := by rw [hq, List.append_assoc]; rfl
    have hct : c.time < timeout.after t₀ := htime c (by simp)
    have hsnoc : pre ++ arrive key t₀ f₀ :: (q ++ [c]) =
        (pre ++ arrive key t₀ f₀ :: q) ++ [c] := by simp
    have hfr : f₀ :: frags key (q ++ [c]) = (f₀ :: frags key q) ++ (c.fragOf key).toList := by
      rw [frags_append, frags_singleton, List.cons_append]
    have hmiss' := h.missing_of_prefix hq hmiss
    have hcol := ih _ hq' (fun c hc => htime c (List.mem_append_left _ hc)) hmiss'
    rw [hsnoc]
    cases hfc : c.fragOf key with
    | none =>
      rw [hfr, hfc, Option.toList_none, List.append_nil]
      obtain ⟨e, he, hrest⟩ := hcol
      refine ⟨e, ?_, hrest⟩
      rw [exec_snoc, step_entries_of_fragOf_none _ hfc, entries_purge, he, Option.filter_some,
        if_pos]
      simpa [hrest.2.2.2] using hct
    | some f =>
      obtain ⟨t, rfl, hsdu⟩ := fragOf_eq_some hfc
      rw [hfr, hfc] at hmiss ⊢
      have hfit := h.fits_of_prefix hq
      rw [hfr, hfc] at hfit
      refine ((h.arrival hcol (h.mem_of_prefix hq') hmiss' hct hsdu ?_ hfit).2 hmiss).2
      exact h.mem_of_prefix hq f (by rw [hfr, hfc]; simp)

end Sent

/-! ### After completion -/

lemma le_of_after_le {s t : SimTime} (hsat : t + timeout.ns ≤ u64Max)
    (h : timeout.after t ≤ timeout.after s) : t ≤ s := by
  simp only [Duration.after, Nat.min_eq_left hsat] at h
  exact Nat.le_of_add_le_add_right (h.trans (Nat.min_le_left _ _))

/-- **An eviction needs `maxOpen` other completions.** If a completion of another key evicts this
one, every other remembered key completed no earlier than this one, and the memory was full. -/
lemma maxOpen_le_othersCompleted {cs : List Call} {now t : SimTime} {sender : NodeId}
    {frag : FragmentDesc} {bytes segments : ℕ} {c : Completed}
    (hne : (toLex (sender, frag.sdu) : Key) ≠ key) (hs : IsSplit frag) (hnow : t ≤ now)
    (hsat : t + timeout.ns ≤ u64Max)
    (hans : (new maxOpen timeout).answer cs (.accept now sender frag) =
      .outcome (.complete frag.sdu bytes segments))
    (hfull : maxOpen ≤ (((new maxOpen timeout).exec cs).purge now).completed.size)
    (hnone : (((new maxOpen timeout).exec cs).purge now).completed[
      (toLex (sender, frag.sdu) : Key)]? = none)
    (hc : (((new maxOpen timeout).exec cs).purge now).completed[key]? = some c)
    (hdl : c.deadline = timeout.after t)
    (hmin : ∀ (k : Key) (d : Completed),
      (((new maxOpen timeout).exec cs).purge now).completed[k]? = some d →
        c.deadline ≤ d.deadline) :
    (maxOpen : ℕ∞) ≤ ((new maxOpen timeout).othersCompleted
      (cs ++ [.accept now sender frag]) key t).encard := by
  generalize hm : (((new maxOpen timeout).exec cs).purge now).completed = m at hfull hnone hc hmin
  have hkey : key ∈ OrdMap.keySet m := OrdMap.mem_keySet.2 ⟨c, hc⟩
  have hnew : (toLex (sender, frag.sdu) : Key) ∉ (OrdMap.keySet m).erase key := by
    intro hmem
    obtain ⟨d, hd⟩ := OrdMap.mem_keySet.1 (Finset.mem_of_mem_erase hmem)
    exact absurd (hnone.symm.trans hd) (by simp)
  have hcard : (insert (toLex (sender, frag.sdu)) ((OrdMap.keySet m).erase key)).card = m.size := by
    rw [Finset.card_insert_of_notMem hnew, Finset.card_erase_add_one hkey, OrdMap.card_keySet]
  have hsub : ((insert (toLex (sender, frag.sdu)) ((OrdMap.keySet m).erase key) : Finset Key) :
      Set Key) ⊆ (new maxOpen timeout).othersCompleted (cs ++ [.accept now sender frag]) key t := by
    intro k hk
    rcases Finset.mem_insert.1 (Finset.mem_coe.1 hk) with rfl | hk
    · refine ⟨hne, now, hnow, cs, frag, [], bytes, segments, rfl, rfl, ?_, hans⟩
      have := hs.two_le
      omega
    · obtain ⟨hkk, hk⟩ := Finset.mem_erase.1 hk
      obtain ⟨d, hd⟩ := OrdMap.mem_keySet.1 hk
      have hd' : ((new maxOpen timeout).exec cs).completed[k]? = some d := by
        rw [← hm, completed_purge] at hd
        exact (Option.filter_eq_some_iff.1 hd).1
      obtain ⟨s, hs, hsd⟩ := completedAt_of_get maxOpen timeout cs k d hd'
      refine ⟨hkk, s, le_of_after_le hsat ?_, hs.append _⟩
      rw [← hdl, ← hsd]
      exact hmin k d hd
  calc (maxOpen : ℕ∞) ≤ (m.size : ℕ∞) := by exact_mod_cast hfull
    _ = (((insert (toLex (sender, frag.sdu)) ((OrdMap.keySet m).erase key) : Finset Key) :
        Set Key)).encard := by rw [Set.encard_coe_eq_coe_finsetCard, hcard]
    _ ≤ _ := Set.encard_le_encard hsub

lemma Delivered.purge {b : ReassemblyBuffer} {t s : SimTime} (hdel : Delivered timeout key n b t)
    (hsat : t + timeout.ns ≤ u64Max) (hlt : s < t + timeout.ns) :
    Delivered timeout key n (b.purge s) t := by
  refine ⟨?_, ?_⟩
  · rw [entries_purge, hdel.1]
    rfl
  · rw [completed_purge, hdel.2, Option.filter_some, if_pos]
    simpa [Duration.after, Nat.min_eq_left hsat] using hlt

/-- An arrival within the memory's deadline is a duplicate and leaves the key remembered. -/
lemma Delivered.arrival {cs : List Call} {t s : SimTime} {f : FragmentDesc} (h2 : 2 ≤ n)
    (h256 : n ≤ 256) (hdel : Delivered timeout key n ((new maxOpen timeout).exec cs) t)
    (hsat : t + timeout.ns ≤ u64Max) (hlt : s < t + timeout.ns) (hsdu : f.sdu = (ofLex key).2)
    (hagree : f.count = n ∧ f.index < n) :
    (new maxOpen timeout).answer cs (arrive key s f) =
        .outcome (.duplicate f.sdu n) ∧
      Delivered timeout key n
        ((new maxOpen timeout).exec (cs ++ [arrive key s f])) t := by
  have hpurged := hdel.purge hsat hlt
  obtain ⟨o, hans, hstep⟩ := arrival_step maxOpen timeout cs s hsdu
  obtain ⟨rfl, hb⟩ := hstep.of_remembered ⟨by omega, by omega, by omega⟩ hpurged.1 hpurged.2
    hagree.1.symm
  rw [hb]
  exact ⟨hans, hpurged⟩

/-- **One call after completion** keeps the key remembered, before the memory's deadline and as
long as fewer than `maxOpen` other keys have completed since. -/
lemma Delivered.step {cs : List Call} {t : SimTime} {c : Call} (h2 : 2 ≤ n) (h256 : n ≤ 256)
    (hdel : Delivered timeout key n ((new maxOpen timeout).exec cs) t)
    (hsat : t + timeout.ns ≤ u64Max) (hle : t ≤ c.time) (hlt : c.time < t + timeout.ns)
    (hagree : ∀ f, c.fragOf key = some f → f.count = n ∧ f.index < n)
    (hothers : ((new maxOpen timeout).othersCompleted (cs ++ [c]) key t).encard < maxOpen) :
    Delivered timeout key n ((new maxOpen timeout).exec (cs ++ [c])) t := by
  obtain ⟨hent', hcomp'⟩ := hdel.purge hsat hlt
  cases hfc : c.fragOf key with
  | some f =>
    obtain ⟨s, rfl, hsdu⟩ := fragOf_eq_some hfc
    exact (hdel.arrival h2 h256 hsat hlt hsdu (hagree f hfc)).2
  | none =>
    refine ⟨?_, ?_⟩
    · rw [exec_snoc, step_entries_of_fragOf_none _ hfc, hent']
    · rw [exec_snoc]
      rcases step_cases ((new maxOpen timeout).exec cs) c with
        ⟨now, sender, frag, o, rfl, ho, hstep⟩ | ⟨now, rfl, heq⟩
      · have hk : (toLex (sender, frag.sdu) : Key) ≠ key := by
          intro hk
          simp [Call.fragOf, hk] at hfc
        rcases hstep.completed_of_ne hk with heq | ⟨hs, ⟨bytes, segs, rfl⟩, hfull, hnone, d, hd, hmin⟩
        · rw [heq, hcomp']
        · -- the eviction would need `maxOpen` other completions
          have hmax : maxOpen ≤
              (((new maxOpen timeout).exec cs).purge now).completed.size :=
            (exec_frame maxOpen timeout cs).1.symm.trans_le hfull
          have hdl : d.deadline = timeout.after t :=
            congrArg Completed.deadline (Option.some.inj (hd.symm.trans hcomp'))
          exact absurd hothers (not_lt.2
            (maxOpen_le_othersCompleted hk hs hle hsat ho hmax hnone hd hdl hmin))
      · rw [heq]
        exact hcomp'

/-- Along the calls after completion the key stays remembered.

**Proof sketch.** Induction on the calls with `Delivered.step`; fewer than `maxOpen` completions in
all of them are fewer in each part. -/
lemma Delivered.exec {cs mid : List Call} {t : SimTime} (h2 : 2 ≤ n) (h256 : n ≤ 256)
    (hdel : Delivered timeout key n ((new maxOpen timeout).exec cs) t)
    (hsat : t + timeout.ns ≤ u64Max)
    (htime : ∀ c ∈ mid, t ≤ c.time ∧ c.time < t + timeout.ns)
    (hagree : ∀ f ∈ frags key mid, f.count = n ∧ f.index < n)
    (hothers : ((new maxOpen timeout).othersCompleted (cs ++ mid) key t).encard < maxOpen) :
    Delivered timeout key n ((new maxOpen timeout).exec (cs ++ mid)) t := by
  induction mid using List.reverseRecOn with
  | nil => simpa using hdel
  | append_singleton mid c ih =>
    rw [← List.append_assoc] at hothers ⊢
    rw [frags_append] at hagree
    have hmid := ih (fun c hc => htime c (List.mem_append_left _ hc))
      (fun f hf => hagree f (List.mem_append_left _ hf))
      (lt_of_le_of_lt (Set.encard_le_encard (othersCompleted_append _ _ _ _ _)) hothers)
    obtain ⟨hle, hlt⟩ := htime c (by simp)
    refine hmid.step h2 h256 hsat hle hlt (fun f hf => ?_) hothers
    exact hagree f (List.mem_append_right _ (by rw [frags_singleton, hf]; simp))

/-- Once delivered, the key is not opened again as long as its arrivals find it remembered. -/
lemma entries_eq_none_of_delivered {cs mid : List Call} {t : SimTime} (h2 : 2 ≤ n)
    (h256 : n ≤ 256) (hdel : Delivered timeout key n ((new maxOpen timeout).exec cs) t)
    (hsat : t + timeout.ns ≤ u64Max) (hsorted : ((cs ++ mid).map Call.time).Pairwise (· ≤ ·))
    (hle : ∀ c ∈ mid, t ≤ c.time) (hagree : ∀ f ∈ frags key mid, f.count = n ∧ f.index < n)
    (hwindow : ∀ m c m' f, mid = m ++ c :: m' → c.fragOf key = some f →
      c.time < t + timeout.ns ∧
        ((new maxOpen timeout).othersCompleted (cs ++ m) key t).encard < maxOpen) :
    ((new maxOpen timeout).exec (cs ++ mid)).entries[key]? = none := by
  induction mid using List.reverseRecOn with
  | nil => simpa using hdel.1
  | append_singleton mid c ih =>
    rw [frags_append] at hagree
    rw [← List.append_assoc] at hsorted ⊢
    have hsorted' : ((cs ++ mid).map Call.time).Pairwise (· ≤ ·) := by
      rw [List.map_append] at hsorted
      exact (List.pairwise_append.1 hsorted).1
    have hmid := ih hsorted' (fun c hc => hle c (List.mem_append_left _ hc))
      (fun f hf => hagree f (List.mem_append_left _ hf))
      (fun m d m' f hm hf => hwindow m d (m' ++ [c]) f (by simp [hm]) hf)
    cases hfc : c.fragOf key with
    | none =>
      rw [exec_snoc, step_entries_of_fragOf_none _ hfc, entries_purge, hmid]
      rfl
    | some f =>
      obtain ⟨hlt, hothers⟩ := hwindow mid c [] f rfl hfc
      have hbefore : ∀ d ∈ mid, t ≤ d.time ∧ d.time < t + timeout.ns := by
        intro d hd
        refine ⟨hle d (List.mem_append_left _ hd), lt_of_le_of_lt ?_ hlt⟩
        rw [List.map_append] at hsorted
        refine (List.pairwise_append.1 hsorted).2.2 _ (List.mem_map.2 ⟨d, ?_, rfl⟩) _ (by simp)
        exact List.mem_append_right _ hd
      have hstill := hdel.exec h2 h256 hsat hbefore
        (fun f hf => hagree f (List.mem_append_left _ hf)) hothers
      have hf := hagree f (List.mem_append_right _ (by rw [frags_singleton, hfc]; simp))
      obtain ⟨s, rfl, hsdu⟩ := fragOf_eq_some hfc
      exact (hstill.arrival h2 h256 hsat hlt hsdu hf).2.1

/-! ### The whole run -/

variable (key n f₀) in
/-- The last distinct index of the key arrives with `f` after the calls `q`. -/
def Completes (q : List Call) (f : FragmentDesc) : Prop :=
  indices (f₀ :: frags key q) ≠ Finset.range n ∧
    indices ((f₀ :: frags key q) ++ [f]) = Finset.range n

lemma time_le_of_sorted {cs : List Call} {p s : List Call} {c d : Call}
    (hsorted : (cs.map Call.time).Pairwise (· ≤ ·)) (hcs : cs = p ++ c :: s) (hd : d ∈ c :: s) :
    c.time ≤ d.time := by
  rw [hcs, List.map_append, List.map_cons, List.pairwise_append, List.pairwise_cons] at hsorted
  rcases List.mem_cons.1 hd with rfl | hd
  · exact le_rfl
  · exact hsorted.2.1.1 _ (List.mem_map.2 ⟨d, hd, rfl⟩)

namespace Sent

lemma frags_snoc {q : List Call} {t : SimTime} {f : FragmentDesc}
    (hsdu : f.sdu = (ofLex key).2) :
    f₀ :: frags key (q ++ [arrive key t f]) = (f₀ :: frags key q) ++ [f] := by
  rw [frags_append, frags_singleton, fragOf_accept hsdu]
  rfl

lemma time_lt_of_prefix (h : Sent maxOpen timeout key n pre t₀ f₀ rest) {q post : List Call}
    {c : Call} {d : SimTime} (hrest : rest = q ++ c :: post) (hc : c.time < d) :
    ∀ x ∈ q, x.time < d := by
  intro x hx
  obtain ⟨u, v, rfl⟩ := List.append_of_mem hx
  refine lt_of_le_of_lt ?_ hc
  exact time_le_of_sorted (p := pre ++ arrive key t₀ f₀ :: u) (s := v ++ c :: post)
    h.sorted (by simp [hrest]) (by simp)

/-- An arrival before the deadline while an index is missing. -/
lemma arrival_spec (h : Sent maxOpen timeout key n pre t₀ f₀ rest) {q post : List Call}
    {t : SimTime} {f : FragmentDesc} (hrest : rest = q ++ arrive key t f :: post)
    (hsdu : f.sdu = (ofLex key).2) (ht : t < timeout.after t₀)
    (hmiss : indices (f₀ :: frags key q) ≠ Finset.range n) :
    (indices ((f₀ :: frags key q) ++ [f]) = Finset.range n →
      (new maxOpen timeout).answer (pre ++ arrive key t₀ f₀ :: q) (arrive key t f) =
          .outcome (.complete f.sdu (payloadSum ((f₀ :: frags key q) ++ [f])) n) ∧
        Delivered timeout key n
          ((new maxOpen timeout).exec ((pre ++ arrive key t₀ f₀ :: q) ++ [arrive key t f])) t) ∧
    (indices ((f₀ :: frags key q) ++ [f]) ≠ Finset.range n →
      (new maxOpen timeout).answer (pre ++ arrive key t₀ f₀ :: q) (arrive key t f) =
        .outcome (.pending f.sdu (indices ((f₀ :: frags key q) ++ [f])).card n)) := by
  have hcol := h.collecting q _ hrest (h.time_lt_of_prefix hrest ht) hmiss
  have hq' : rest = (q ++ [arrive key t f]) ++ post := by simp [hrest]
  have hfit := h.fits_of_prefix hq'
  have hmem := h.mem_of_prefix hq' f (by rw [frags_snoc hsdu]; simp)
  rw [frags_snoc hsdu] at hfit
  obtain ⟨hfull, hpend⟩ := h.arrival hcol (h.mem_of_prefix hrest) hmiss ht hsdu hmem hfit
  exact ⟨hfull, fun hne => (hpend hne).1⟩

lemma le_time_of_suffix (h : Sent maxOpen timeout key n pre t₀ f₀ rest) {q mid : List Call}
    {c : Call} (hrest : rest = q ++ c :: mid) : ∀ x ∈ mid, c.time ≤ x.time := fun _ hx =>
  time_le_of_sorted (p := pre ++ arrive key t₀ f₀ :: q) (s := mid) h.sorted (by simp [hrest])
    (List.mem_cons_of_mem _ hx)

lemma agree_of_suffix (h : Sent maxOpen timeout key n pre t₀ f₀ rest) {q mid : List Call}
    {c : Call} (hrest : rest = q ++ c :: mid) : ∀ f ∈ frags key mid, f.count = n ∧ f.index < n := by
  intro f hf
  refine h.agree f (List.mem_cons_of_mem _ ?_)
  have hsplit : rest = (q ++ [c]) ++ mid := by simp [hrest]
  rw [hsplit, frags_append]
  exact List.mem_append_right _ hf

/-- A repeat after completion. -/
lemma repeat_spec (h : Sent maxOpen timeout key n pre t₀ f₀ rest) {q m post : List Call}
    {t s : SimTime} {f g : FragmentDesc}
    (hrest : rest = q ++ arrive key t f :: (m ++ arrive key s g :: post))
    (hsdu : f.sdu = (ofLex key).2) (ht : t < timeout.after t₀) (hlast : Completes key n f₀ q f)
    (hsat : t + timeout.ns ≤ u64Max) (hgsdu : g.sdu = (ofLex key).2) (hs : s < t + timeout.ns)
    (hothers : ((new maxOpen timeout).othersCompleted
      (pre ++ arrive key t₀ f₀ :: (q ++ arrive key t f :: m)) key t).encard < maxOpen) :
    (new maxOpen timeout).answer (pre ++ arrive key t₀ f₀ :: (q ++ arrive key t f :: m))
      (arrive key s g) = .outcome (.duplicate g.sdu n) := by
  have hdel := ((h.arrival_spec hrest hsdu ht hlast.1).1 hlast.2).2
  have hagree := h.agree_of_suffix hrest
  have hle := h.le_time_of_suffix hrest
  have hcs : pre ++ arrive key t₀ f₀ :: (q ++ arrive key t f :: m) =
      ((pre ++ arrive key t₀ f₀ :: q) ++ [arrive key t f]) ++ m := by simp
  rw [frags_append] at hagree
  have hrest' : rest = (q ++ arrive key t f :: m) ++ arrive key s g :: post := by simp [hrest]
  have hbefore : ∀ c ∈ m, t ≤ c.time ∧ c.time < t + timeout.ns := fun c hc =>
    ⟨hle c (List.mem_append_left _ hc),
      h.time_lt_of_prefix hrest' hs c (List.mem_append_right _ (List.mem_cons_of_mem _ hc))⟩
  rw [hcs] at hothers ⊢
  have hstill := hdel.exec h.two_le h.le_max hsat hbefore
    (fun f hf => hagree f (List.mem_append_left _ hf)) hothers
  refine (hstill.arrival h.two_le h.le_max hsat hs hgsdu (hagree g ?_)).1
  refine List.mem_append_right _ ?_
  simp [frags, fragOf_accept hgsdu]

lemma not_stale_of_collecting {b : ReassemblyBuffer} {l : List FragmentDesc} {now : SimTime}
    (hcol : Collecting timeout key n t₀ b l) (hnow : now < timeout.after t₀) (e : Entry) :
    (key, e) ∉ b.stale now := by
  obtain ⟨e', he', -, -, -, hdl⟩ := hcol
  rw [mem_stale]
  rintro ⟨he, hle⟩
  obtain rfl := Option.some.inj (he'.symm.trans he)
  rw [hdl] at hle
  exact absurd hnow (not_lt.2 hle)

lemma not_stale_of_none {b : ReassemblyBuffer} {now : SimTime} (hnone : b.entries[key]? = none)
    (e : Entry) : (key, e) ∉ b.stale now := by
  rw [mem_stale, hnone]
  simp

/-- **The set never expires** if all its indices arrive in time and every repeat finds it
remembered.

**Proof sketch.** A call of the run comes before the first arrival, when the key is not open; or
between it and the completing arrival, when the entry is collecting and its deadline is still to
come; or after it, when the key is not open again. -/
lemma not_stale (h : Sent maxOpen timeout key n pre t₀ f₀ rest) {q mid : List Call}
    {t : SimTime} {f : FragmentDesc} (hrest : rest = q ++ arrive key t f :: mid)
    (hsdu : f.sdu = (ofLex key).2) (ht : t < timeout.after t₀) (hlast : Completes key n f₀ q f)
    (hsat : t + timeout.ns ≤ u64Max)
    (hwindow : ∀ m s g post, mid = m ++ arrive key s g :: post → g.sdu = (ofLex key).2 →
      s < t + timeout.ns ∧
        ((new maxOpen timeout).othersCompleted (pre ++ arrive key t₀ f₀ ::
          (q ++ arrive key t f :: m)) key t).encard < maxOpen)
    {p s : List Call} {c : Call} (hp : pre ++ arrive key t₀ f₀ :: rest = p ++ c :: s) (e : Entry) :
    (key, e) ∉ ((new maxOpen timeout).exec p).stale c.time := by
  -- a call of `rest` up to the completing arrival
  have hcollect : ∀ q₁ q₂, q = q₁ ++ q₂ → c :: s = q₂ ++ arrive key t f :: mid →
      p = pre ++ arrive key t₀ f₀ :: q₁ →
          (key, e) ∉ ((new maxOpen timeout).exec p).stale c.time := by
    rintro q₁ q₂ rfl hcs rfl
    have hct : c.time < timeout.after t₀ := by
      refine lt_of_le_of_lt ?_ ht
      refine time_le_of_sorted (s := s) (d := arrive key t f) h.sorted hp ?_
      rw [hcs]
      simp
    have hr : rest = q₁ ++ c :: s := by rw [hcs, hrest, List.append_assoc]
    refine not_stale_of_collecting (h.collecting q₁ _ hr (h.time_lt_of_prefix hr hct) ?_) hct e
    exact h.missing_of_prefix hrest hlast.1
  rcases List.append_eq_append_iff.1 hp with ⟨a, rfl, ha⟩ | ⟨a, rfl, -⟩
  · cases a with
    | nil =>
      rw [List.append_nil]
      exact not_stale_of_none (get_eq_none_of_frags_nil maxOpen timeout pre h.first).1 e
    | cons x q' =>
      obtain ⟨rfl, hq'⟩ := List.cons.inj ha
      rw [hrest] at hq'
      rcases List.append_eq_append_iff.1 hq' with ⟨a, rfl, hb⟩ | ⟨a, hqa, hb⟩
      · cases a with
        | nil => exact hcollect q [] (by simp) (by simpa using hb.symm) (by simp)
        | cons y m =>
          obtain ⟨rfl, hm⟩ : arrive key t f = y ∧ mid = m ++ c :: s := List.cons.inj hb
          have hdel := ((h.arrival_spec hrest hsdu ht hlast.1).1 hlast.2).2
          have hpm : pre ++ arrive key t₀ f₀ :: (q ++ arrive key t f :: m) =
              ((pre ++ arrive key t₀ f₀ :: q) ++ [arrive key t f]) ++ m := by simp
          refine not_stale_of_none ?_ e
          rw [hpm]
          have hagree := h.agree_of_suffix hrest
          rw [hm, frags_append] at hagree
          refine entries_eq_none_of_delivered h.two_le h.le_max hdel hsat ?_ ?_
            (fun f hf => hagree f (List.mem_append_left _ hf)) ?_
          · have hsorted := h.sorted
            rw [hp, List.map_append] at hsorted
            rw [← hpm]
            exact (List.pairwise_append.1 hsorted).1
          · exact fun x hx => h.le_time_of_suffix hrest x (hm ▸ List.mem_append_left _ hx)
          · intro m₁ x m₂ g hm₁ hg
            obtain ⟨u, rfl, hgsdu⟩ := fragOf_eq_some hg
            obtain ⟨hu, hothers⟩ := hwindow m₁ u g (m₂ ++ c :: s) (by simp [hm, hm₁]) hgsdu
            exact ⟨hu, by simpa using hothers⟩
      · exact hcollect q' a hqa hb rfl
  · have hfr : frags key p = [] := by
      have hfirst := h.first
      rw [frags_append, List.append_eq_nil_iff] at hfirst
      exact hfirst.1
    exact not_stale_of_none (get_eq_none_of_frags_nil maxOpen timeout p hfr).1 e

end Sent

/-- **Delivery of a split SDU.** In every run in time order, with the fragments of other keys,
expiries and repeats in between: the first arrival is pending; every arrival before the deadline
while an index is missing answers by the distinct indices so far, the last one with the payload of
one arrival per index; after that, a repeat within one timeout is a duplicate as long as fewer than
`maxOpen` other keys have completed at or after the same instant; and if every repeat is such a one
the set is never among those that expire. In every run the two capacity bounds and the counters of
every open entry hold. -/
theorem sent_delivered_once (h : Sent maxOpen timeout key n pre t₀ f₀ rest) :
    (new maxOpen timeout).answer pre (arrive key t₀ f₀) =
        .outcome (.pending f₀.sdu 1 n) ∧
    (∀ q t f post, rest = q ++ arrive key t f :: post → f.sdu = (ofLex key).2 →
      t < timeout.after t₀ → indices (f₀ :: frags key q) ≠ Finset.range n →
      (new maxOpen timeout).answer (pre ++ arrive key t₀ f₀ :: q)
          (arrive key t f) =
        .outcome (if indices ((f₀ :: frags key q) ++ [f]) = Finset.range n
          then .complete f.sdu (payloadSum ((f₀ :: frags key q) ++ [f])) n
          else .pending f.sdu (indices ((f₀ :: frags key q) ++ [f])).card n)) ∧
    (∀ q t f mid, rest = q ++ arrive key t f :: mid → f.sdu = (ofLex key).2 →
      t < timeout.after t₀ → Completes key n f₀ q f → t + timeout.ns ≤ u64Max →
      (∀ m s g post, mid = m ++ arrive key s g :: post → g.sdu = (ofLex key).2 →
        s < t + timeout.ns →
        ((new maxOpen timeout).othersCompleted (pre ++ arrive key t₀ f₀ ::
          (q ++ arrive key t f :: m)) key t).encard < maxOpen →
        (new maxOpen timeout).answer (pre ++ arrive key t₀ f₀ ::
          (q ++ arrive key t f :: m)) (arrive key s g) =
            .outcome (.duplicate g.sdu n)) ∧
      ((∀ m s g post, mid = m ++ arrive key s g :: post → g.sdu = (ofLex key).2 →
        s < t + timeout.ns ∧
          ((new maxOpen timeout).othersCompleted (pre ++ arrive key t₀ f₀ ::
            (q ++ arrive key t f :: m)) key t).encard < maxOpen) →
        ∀ p c s, pre ++ arrive key t₀ f₀ :: rest = p ++ c :: s →
          ∀ e, (key, e) ∉ ((new maxOpen timeout).exec p).stale c.time)) ∧
    ∀ cs, ((new maxOpen timeout).exec cs).opened ≤ maxOpen ∧
      ((new maxOpen timeout).exec cs).remembered ≤ maxOpen ∧
      ∀ (k : Key) (e : Entry), ((new maxOpen timeout).exec cs).entries[k]? = some e →
        e.got = e.seen.toFinset.card ∧ e.got < e.want := by
  refine ⟨h.opens.1, ?_, ?_, ?_⟩
  · intro q t f post hrest hsdu ht hmiss
    obtain ⟨hfull, hpend⟩ := h.arrival_spec hrest hsdu ht hmiss
    split_ifs with hall
    · exact (hfull hall).1
    · exact hpend hall
  · intro q t f mid hrest hsdu ht hlast hsat
    refine ⟨?_, fun hwindow p c s hp e => ?_⟩
    · rintro m s g post rfl hgsdu hs hothers
      exact h.repeat_spec hrest hsdu ht hlast hsat hgsdu hs hothers
    · exact h.not_stale hrest hsdu ht hlast hsat hwindow hp e
  · intro cs
    have hinv := inv_exec maxOpen timeout cs
    have hmax := (exec_frame maxOpen timeout cs).1
    exact ⟨hinv.opened_le.trans_eq hmax, hinv.remembered_le.trans_eq hmax,
      fun k e he => ⟨(hinv.entry k e he).got_eq, (hinv.entry k e he).got_lt⟩⟩

end Delivery

/-! ### Two fragments with another sender's in between -/

/-- A fragment of an SDU split in two. -/
def halfOf (sdu : SduId) (index payload : ℕ) : FragmentDesc := ⟨sdu, index, 2, 4, payload, .piece⟩

/-- The halves of one SDU, with another sender's fragment between them. -/
theorem sent_delivered_once_halves :
    Sent 2 ⟨100⟩ (toLex (1, 5)) 2 [] 0 (halfOf 5 0 10)
        [.accept 1 2 (halfOf 6 0 7), .accept 2 1 (halfOf 5 1 20)] ∧
      (new 2 ⟨100⟩).answer [.accept 0 1 (halfOf 5 0 10), .accept 1 2 (halfOf 6 0 7)]
        (.accept 2 1 (halfOf 5 1 20)) = .outcome (.complete 5 30 2) := by
  have hsent : Sent 2 ⟨100⟩ (toLex (1, 5)) 2 [] 0 (halfOf 5 0 10)
      [.accept 1 2 (halfOf 6 0 7), .accept 2 1 (halfOf 5 1 20)] :=
    ⟨by decide, by decide, by decide, rfl, rfl, by decide, by decide +kernel, by decide +kernel⟩
  have hans := (sent_delivered_once hsent).2.1 [.accept 1 2 (halfOf 6 0 7)] 2 (halfOf 5 1 20) []
    rfl rfl (by decide +kernel) (by decide +kernel)
  rw [if_pos (by decide +kernel)] at hans
  exact ⟨hsent, hans⟩

/-- **The memory of completions is bounded, and a saturated deadline no longer orders it.** With
room for one completion, an SDU whose fragments all arrive within the timeout completes, is
forgotten when another one completes, and completes a second time on its repeats. And with
saturated deadlines a completion with the lower key is forgotten before an earlier one, so that a
repeat opens a new set although a single other SDU has completed since. -/
theorem completes_twice_after_eviction :
    (new 1 ⟨100⟩).answer [.accept 0 1 (halfOf 5 0 10)] (.accept 1 1 (halfOf 5 1 20)) =
        .outcome (.complete 5 30 2) ∧
      (new 1 ⟨100⟩).answer
        [.accept 0 1 (halfOf 5 0 10), .accept 1 1 (halfOf 5 1 20), .accept 2 1 (halfOf 6 0 7),
          .accept 2 1 (halfOf 6 1 7), .accept 3 1 (halfOf 5 0 10)]
        (.accept 3 1 (halfOf 5 1 20)) = .outcome (.complete 5 30 2) ∧
      (new 2 ⟨u64Max⟩).answer
        [.accept 0 9 (halfOf 1 0 7), .accept 1 9 (halfOf 1 1 7), .accept 1 1 (halfOf 5 0 10)]
        (.accept 2 1 (halfOf 5 1 20)) = .outcome (.complete 5 30 2) ∧
      (new 2 ⟨u64Max⟩).answer
        [.accept 0 9 (halfOf 1 0 7), .accept 1 9 (halfOf 1 1 7), .accept 1 1 (halfOf 5 0 10),
          .accept 2 1 (halfOf 5 1 20), .accept 2 8 (halfOf 1 0 7), .accept 3 8 (halfOf 1 1 7)]
        (.accept 4 1 (halfOf 5 0 10)) = .outcome (.pending 5 1 2) := by
  decide +kernel

end V2xw.Net.ReassemblyBuffer
