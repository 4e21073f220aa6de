import Mathlib.Data.Finset.Lattice.Fold
import Mathlib.Order.Bounds.Basic
import V2xw.Core.Time
import V2xw.Lib.Machine
import V2xw.Lib.OrdMap

/-!
# Actor slots

`SlotAllocator` of `crates/v2xw-record/src/encoder.rs`: an actor gets the lowest slot that nobody
holds and that nobody has released for a keyframe period. The allocator keeps three collections,
which actor holds which slot, the slots that are held, and since when the released slots cool off;
the last is cleaned up only when a slot is allocated.

What the allocator owes its callers is stated over the history of calls and results, without the
three collections.

## Main definitions

* `SlotAllocator`, `SlotAllocator.allocate`,
  `SlotAllocator.release` — the allocator.
* `SlotAllocator.machine` — the allocator under its callers.
* `SlotHistory.held`, `SlotHistory.releases` — who holds what, and what was
  released when, by the calls and results so far.
* `SlotAllocator.Inv` — the three collections agree with the history.

## Main results

* `SlotAllocator.Inv.allocate`, `SlotAllocator.Inv.release` — the calls
  keep the agreement.
* `SlotAllocator.slots_sound` — slots over every history of calls.
-/

namespace V2xw.Record

/-- The identity of an actor. -/
abbrev ActorId := UInt32

/-! ## The lowest free slot -/

/-- The first slot from `slot` on that is not taken, among the next `n`. The source counts a `u32`
up until it finds one; with all of them taken it does not return. -/
def firstFree (taken : UInt32 → Bool) : ℕ → UInt32 → Option UInt32
  | 0, _ => none
  | n + 1, slot => if taken slot then firstFree taken n (slot + 1) else some slot

private lemma toNat_succ {slot : UInt32} (h : slot.toNat + 1 < 2 ^ 32) :
    (slot + 1).toNat = slot.toNat + 1 := by
  rw [UInt32.toNat_add, UInt32.toNat_one]
  exact Nat.mod_eq_of_lt h

/-- A search that succeeds finds a slot that is not taken and has skipped only taken ones. -/
lemma firstFree_some {taken : UInt32 → Bool} {s : UInt32} {n : ℕ} :
    ∀ {slot : UInt32}, slot.toNat + n = 2 ^ 32 → firstFree taken n slot = some s →
      taken s = false ∧ slot ≤ s ∧ ∀ t, slot ≤ t → t < s → taken t = true := by
  induction n with
  | zero =>
    intro slot _ h
    cases h
  | succ n ih =>
    intro slot hn h
    unfold firstFree at h
    split_ifs at h with htaken
    · cases n with
      | zero => cases h
      | succ n =>
        have hsucc : (slot + 1).toNat = slot.toNat + 1 := toNat_succ (by omega)
        obtain ⟨hfree, hle, hskip⟩ := ih (by omega) h
        rw [UInt32.le_iff_toNat_le] at hle
        refine ⟨hfree, UInt32.le_iff_toNat_le.2 (by omega), fun t ht hts => ?_⟩
        rcases eq_or_ne t slot with rfl | hne
        · exact htaken
        · refine hskip t ?_ hts
          have hne' : t.toNat ≠ slot.toNat := fun h => hne (UInt32.toNat_inj.1 h)
          rw [UInt32.le_iff_toNat_le] at ht ⊢
          omega
    · cases h
      refine ⟨Bool.eq_false_iff.2 htaken, UInt32.le_refl _, fun t ht hts => ?_⟩
      rw [UInt32.le_iff_toNat_le] at ht
      rw [UInt32.lt_iff_toNat_lt] at hts
      omega

/-- A search fails only where all slots are taken. -/
lemma firstFree_none {taken : UInt32 → Bool} {n : ℕ} :
    ∀ {slot : UInt32}, slot.toNat + n = 2 ^ 32 → firstFree taken n slot = none →
      ∀ t, slot ≤ t → taken t = true := by
  induction n with
  | zero =>
    intro slot hn _ t _
    have hlt := slot.toNat_lt
    omega
  | succ n ih =>
    intro slot hn h t ht
    unfold firstFree at h
    split_ifs at h with htaken
    rcases eq_or_ne t slot with rfl | hne
    · exact htaken
    · have hne' : t.toNat ≠ slot.toNat := fun h => hne (UInt32.toNat_inj.1 h)
      have hlt := t.toNat_lt
      rw [UInt32.le_iff_toNat_le] at ht
      have hsucc : (slot + 1).toNat = slot.toNat + 1 := toNat_succ (by omega)
      refine ih (by omega) h t ?_
      rw [UInt32.le_iff_toNat_le]
      omega

/-! ## The allocator -/

/-- Who holds which slot, and which slots cool off. -/
structure SlotAllocator where
  /-- How long a released slot cools off. -/
  keyframePeriod : Core.Duration
  byActor : OrdMap ActorId UInt32
  occupied : Finset UInt32
  /-- When the slots that cool off were released. -/
  cooling : OrdMap UInt32 Core.SimTime

namespace SlotAllocator

/-- An allocator for a run at this keyframe period. -/
def new (keyframePeriod : Core.Duration) : SlotAllocator :=
  { keyframePeriod := keyframePeriod, byActor := ∅, occupied := ∅, cooling := ∅ }

/-- The slot this actor holds, if any. -/
def slotOf (a : SlotAllocator) (actor : ActorId) : Option UInt32 := a.byActor[actor]?

/-- The allocator without the slots that have cooled off. -/
def retain (a : SlotAllocator) (now : Core.SimTime) : SlotAllocator :=
  { a with cooling := a.cooling.filter fun _ freed => now - freed < a.keyframePeriod.ns }

/-- A slot is not to be handed out. -/
def taken (a : SlotAllocator) (slot : UInt32) : Bool :=
  decide (slot ∈ a.occupied) || a.cooling.contains slot

/-- The slot handed out to an actor at a time, and the allocator after it. -/
def allocate (a : SlotAllocator) (actor : ActorId) (now : Core.SimTime) :
    Option (UInt32 × SlotAllocator) :=
  match a.slotOf actor with
  | some s => some (s, a)
  | none =>
    let a := a.retain now
    (firstFree a.taken (2 ^ 32) 0).map fun slot =>
      (slot, { a with
        occupied := insert slot a.occupied
        byActor := a.byActor.insert actor slot })

/-- The slot an actor gives back at a time, and the allocator after it. -/
def release (a : SlotAllocator) (actor : ActorId) (now : Core.SimTime) :
    Option UInt32 × SlotAllocator :=
  match a.byActor[actor]? with
  | none => (none, a)
  | some slot =>
    (some slot, { a with
      byActor := a.byActor.erase actor
      occupied := a.occupied.erase slot
      cooling := a.cooling.insert slot now })

end SlotAllocator

/-- A call of the allocator. -/
inductive SlotCall
  | allocate (actor : ActorId) (now : Core.SimTime)
  /-- An actor gives its slot back. -/
  | release (actor : ActorId) (now : Core.SimTime)
  deriving DecidableEq

/-- The time of a call. -/
def SlotCall.now : SlotCall → Core.SimTime
  | .allocate _ now => now
  | .release _ now => now

/-- The allocator under its callers, aborted by an allocation that does not return. -/
def SlotAllocator.machine (keyframePeriod : Core.Duration) :
    Machine SlotAllocator SlotCall (Option UInt32) Unit where
  init := new keyframePeriod
  step a
    | .allocate actor now =>
      match a.allocate actor now with
      | some (s, a') => .ok (some s, a')
      | none => .error ()
    | .release actor now => .ok (a.release actor now)

/-! ## Histories -/

/-- The calls made so far with their results, the earliest first. -/
abbrev SlotHistory := List (SlotCall × Option UInt32)

namespace SlotHistory

/-- What an actor holds after one more call. -/
def holdNext (held : Option UInt32) (actor : ActorId) : SlotCall × Option UInt32 → Option UInt32
  | (.allocate p _, s) => if p = actor then s else held
  | (.release p _, _) => if p = actor then none else held

/-- The slot an actor was handed and has not released. -/
def held (h : SlotHistory) (actor : ActorId) : Option UInt32 :=
  h.foldl (fun held c => holdNext held actor c) none

/-- The slot and the time of a call that released one. -/
def released : SlotCall × Option UInt32 → Option (UInt32 × Core.SimTime)
  | (.release _ now, some s) => some (s, now)
  | _ => none

/-- The slots released, with the times. -/
def releases (h : SlotHistory) : List (UInt32 × Core.SimTime) := h.filterMap released

/-- A slot that nobody holds and that nobody has released for the keyframe period. -/
def Free (h : SlotHistory) (period : Core.Duration) (now : Core.SimTime) (s : UInt32) : Prop :=
  (∀ p, h.held p ≠ some s) ∧ ∀ f, (s, f) ∈ h.releases → period.ns ≤ now - f

lemma held_concat (h : SlotHistory) (c : SlotCall × Option UInt32) (p : ActorId) :
    held (h ++ [c]) p = holdNext (h.held p) p c := by
  rw [held, List.foldl_append]
  rfl

lemma releases_concat (h : SlotHistory) (c : SlotCall × Option UInt32) :
    releases (h ++ [c]) = h.releases ++ (released c).toList := by
  rw [releases, List.filterMap_append, ← releases]
  cases hc : released c <;> simp [hc]

lemma releases_allocate (h : SlotHistory) (p : ActorId) (n : Core.SimTime) (s : Option UInt32) :
    releases (h ++ [(.allocate p n, s)]) = h.releases := by
  rw [releases_concat]
  exact List.append_nil _

end SlotHistory

/-! ## The collections agree with the history -/

namespace SlotAllocator

/-- The three collections hold what the calls up to the instant `now` have made of them. -/
structure Inv (h : SlotHistory) (now : Core.SimTime) (a : SlotAllocator) : Prop where
  /-- An actor's slot is the one it was handed. -/
  slotOf_eq : ∀ p, a.slotOf p = h.held p
  /-- No two actors share a slot. -/
  unshared : ∀ p q s, a.slotOf p = some s → a.slotOf q = some s → p = q
  /-- The occupied slots are those the actors hold. -/
  occupied_iff : ∀ s, s ∈ a.occupied ↔ ∃ p, a.slotOf p = some s
  /-- A slot that cools off is not occupied. -/
  cooling_free : ∀ s f, a.cooling[s]? = some f → s ∉ a.occupied
  /-- A slot cools off from its last release on. -/
  cooling_last : ∀ s f, a.cooling[s]? = some f →
    (s, f) ∈ h.releases ∧ ∀ g, (s, g) ∈ h.releases → g ≤ f
  /-- A slot released less than a period ago cools off. -/
  releases_cooling : ∀ s f, (s, f) ∈ h.releases → now - f < a.keyframePeriod.ns →
    ∃ g, a.cooling[s]? = some g
  /-- An occupied slot was not released for a period. -/
  occupied_old : ∀ s f, s ∈ a.occupied → (s, f) ∈ h.releases → a.keyframePeriod.ns ≤ now - f
  /-- The releases are in the past. -/
  releases_le : ∀ s f, (s, f) ∈ h.releases → f ≤ now

/-- A new allocator has no history. -/
lemma Inv.new (period : Core.Duration) (now : Core.SimTime) : Inv [] now (new period) where
  slotOf_eq _ := Std.ExtTreeMap.getElem?_empty
  unshared p q s hp := by
    have hnone : (SlotAllocator.new period).slotOf p = none := Std.ExtTreeMap.getElem?_empty
    rw [hnone] at hp
    cases hp
  occupied_iff s := by
    refine ⟨fun hs => absurd hs (Finset.notMem_empty s), fun ⟨p, hp⟩ => ?_⟩
    have hnone : (SlotAllocator.new period).slotOf p = none := Std.ExtTreeMap.getElem?_empty
    rw [hnone] at hp
    cases hp
  cooling_free s _ _ := Finset.notMem_empty s
  cooling_last s f hs := by
    have hnone : (SlotAllocator.new period).cooling[s]? = none := Std.ExtTreeMap.getElem?_empty
    rw [hnone] at hs
    cases hs
  releases_cooling _ _ hf := absurd hf List.not_mem_nil
  occupied_old _ _ _ hf := absurd hf List.not_mem_nil
  releases_le _ _ hf := absurd hf List.not_mem_nil

lemma Inv.later {h : SlotHistory} {now later : Core.SimTime} {a : SlotAllocator}
    (ha : Inv h now a) (hle : now ≤ later) : Inv h later a where
  slotOf_eq := ha.slotOf_eq
  unshared := ha.unshared
  occupied_iff := ha.occupied_iff
  cooling_free := ha.cooling_free
  cooling_last := ha.cooling_last
  releases_cooling s f hf hlt :=
    ha.releases_cooling s f hf (lt_of_le_of_lt (Nat.sub_le_sub_right hle f) hlt)
  occupied_old s f hs hf := (ha.occupied_old s f hs hf).trans (Nat.sub_le_sub_right hle f)
  releases_le s f hf := (ha.releases_le s f hf).trans hle

variable {h : SlotHistory} {now : Core.SimTime} {a : SlotAllocator}

/-- Forgetting the slots that have cooled off loses nothing. -/
lemma Inv.retain (ha : Inv h now a) : Inv h now (a.retain now) where
  slotOf_eq := ha.slotOf_eq
  unshared := ha.unshared
  occupied_iff := ha.occupied_iff
  cooling_free s f hs := by
    unfold SlotAllocator.retain at hs
    rw [OrdMap.get_filter] at hs
    exact ha.cooling_free s f (Option.filter_eq_some_iff.1 hs).1
  cooling_last s f hs := by
    unfold SlotAllocator.retain at hs
    rw [OrdMap.get_filter] at hs
    exact ha.cooling_last s f (Option.filter_eq_some_iff.1 hs).1
  releases_cooling s f hf hlt := by
    obtain ⟨g, hg⟩ := ha.releases_cooling s f hf hlt
    have hfg : f ≤ g := (ha.cooling_last s g hg).2 f hf
    refine ⟨g, ?_⟩
    unfold SlotAllocator.retain
    rw [OrdMap.get_filter, hg, Option.filter_some, if_pos]
    exact decide_eq_true (lt_of_le_of_lt (Nat.sub_le_sub_left hfg now) hlt)
  occupied_old := ha.occupied_old
  releases_le := ha.releases_le

lemma taken_eq_false_iff {s : UInt32} :
    a.taken s = false ↔ s ∉ a.occupied ∧ a.cooling[s]? = none := by
  unfold taken
  rw [Bool.or_eq_false_iff, OrdMap.contains_eq_false_iff, decide_eq_false_iff_not]

/-- The slots that are not taken once the others have cooled off are the free ones. -/
lemma Inv.taken_eq_false_iff (ha : Inv h now a) {s : UInt32} :
    (a.retain now).taken s = false ↔ h.Free a.keyframePeriod now s := by
  rw [SlotAllocator.taken_eq_false_iff]
  constructor
  · rintro ⟨hocc, hcool⟩
    refine ⟨fun p hp => hocc ?_, fun f hf => ?_⟩
    · rw [ha.retain.occupied_iff]
      exact ⟨p, (ha.slotOf_eq p).trans hp⟩
    · by_contra hlt
      obtain ⟨g, hg⟩ := ha.retain.releases_cooling s f hf (not_le.1 hlt)
      rw [hcool] at hg
      cases hg
  · rintro ⟨hheld, hold⟩
    constructor
    · rw [ha.retain.occupied_iff]
      rintro ⟨p, hp⟩
      exact hheld p ((ha.slotOf_eq p).symm.trans hp)
    · unfold SlotAllocator.retain
      rw [OrdMap.get_filter]
      refine Option.filter_eq_none_iff.2 fun f hf => ?_
      rw [decide_eq_true_eq, not_lt]
      exact hold f (ha.cooling_last s f hf).1

/-! ## The calls -/

lemma allocate_of_slotOf {actor : ActorId} {s : UInt32} (hs : a.slotOf actor = some s) :
    a.allocate actor now = some (s, a) := by
  unfold allocate
  rw [hs]

/-- What an allocation does for an actor without a slot. -/
lemma allocate_cases {actor : ActorId} {s : UInt32} {a' : SlotAllocator}
    (hs : a.allocate actor now = some (s, a')) :
    (a.slotOf actor = some s ∧ a' = a) ∨
    (a.slotOf actor = none ∧ firstFree (a.retain now).taken (2 ^ 32) 0 = some s ∧
      a' = { a.retain now with
        occupied := insert s a.occupied
        byActor := a.byActor.insert actor s }) := by
  unfold allocate at hs
  cases hp : a.slotOf actor with
  | some t =>
    rw [hp] at hs
    cases hs
    exact .inl ⟨rfl, rfl⟩
  | none =>
    rw [hp] at hs
    obtain ⟨t, ht, heq⟩ := Option.map_eq_some_iff.1 hs
    cases heq
    exact .inr ⟨rfl, ht, rfl⟩

lemma Inv.isLeast (ha : Inv h now a) {s : UInt32}
    (hs : firstFree (a.retain now).taken (2 ^ 32) 0 = some s) :
    IsLeast (h.Free a.keyframePeriod now) s := by
  obtain ⟨hfree, -, hskip⟩ := firstFree_some (by rfl) hs
  refine ⟨ha.taken_eq_false_iff.1 hfree, fun t ht => ?_⟩
  by_contra hlt
  have htaken := hskip t (UInt32.le_iff_toNat_le.2 (Nat.zero_le _)) (not_le.1 hlt)
  rw [ha.taken_eq_false_iff.2 ht] at htaken
  cases htaken

/-- An allocation keeps the agreement. -/
lemma Inv.allocate (ha : Inv h now a) {actor : ActorId} {s : UInt32} {a' : SlotAllocator}
    (hs : a.allocate actor now = some (s, a')) :
    Inv (h ++ [(.allocate actor now, some s)]) now a' := by
  have hheld : ∀ p, SlotHistory.held (h ++ [(.allocate actor now, some s)]) p =
      if actor = p then some s else h.held p := fun p => SlotHistory.held_concat _ _ _
  have hrel := SlotHistory.releases_allocate h actor now (some s)
  obtain ⟨hp, rfl⟩ | ⟨hp, hfirst, rfl⟩ := allocate_cases hs
  · refine ⟨fun p => ?_, ha.unshared, ha.occupied_iff, ha.cooling_free, ?_, ?_, ?_, ?_⟩
    · rw [hheld]
      split_ifs with heq
      · rw [← heq, hp]
      · exact ha.slotOf_eq p
    all_goals rw [hrel]
    · exact ha.cooling_last
    · exact ha.releases_cooling
    · exact ha.occupied_old
    · exact ha.releases_le
  · obtain ⟨⟨hnone, hold⟩, -⟩ := ha.isLeast hfirst
    have hfree : (a.retain now).taken s = false := (firstFree_some (by rfl) hfirst).1
    have hcool := (SlotAllocator.taken_eq_false_iff.1 hfree).2
    have hslot : ∀ p, (a.byActor.insert actor s)[p]? =
        if actor = p then some s else a.slotOf p := fun p => OrdMap.get_insert _ _ _ _
    refine ⟨fun p => ?_, fun p q t htp htq => ?_, fun t => ?_, fun t f ht => ?_, ?_, ?_, ?_, ?_⟩
    · rw [hheld]
      exact (hslot p).trans (by rw [ha.slotOf_eq p])
    · -- The new slot was nobody's, and the others are nobody's twice.
      replace htp := (hslot p).symm.trans htp
      replace htq := (hslot q).symm.trans htq
      have hnone' : ∀ r, a.slotOf r ≠ some s := fun r hr => hnone r ((ha.slotOf_eq r).symm.trans hr)
      split_ifs at htp htq with hpa hqa
      · exact hpa.symm.trans hqa
      · cases htp
        exact absurd htq (hnone' q)
      · cases htq
        exact absurd htp (hnone' p)
      · exact ha.unshared p q t htp htq
    · rw [Finset.mem_insert, ha.occupied_iff]
      constructor
      · rintro (rfl | ⟨p, hpt⟩)
        · exact ⟨actor, (hslot actor).trans (if_pos rfl)⟩
        · refine ⟨p, (hslot p).trans ?_⟩
          rw [if_neg, hpt]
          rintro rfl
          rw [hp] at hpt
          cases hpt
      · rintro ⟨p, hpt⟩
        replace hpt := (hslot p).symm.trans hpt
        split_ifs at hpt with hpa
        · exact .inl (Option.some.inj hpt).symm
        · exact .inr ⟨p, hpt⟩
    · rw [Finset.mem_insert]
      rintro (rfl | hmem)
      · rw [hcool] at ht
        cases ht
      · exact ha.retain.cooling_free t f ht hmem
    all_goals rw [hrel]
    · exact ha.retain.cooling_last
    · exact ha.retain.releases_cooling
    · intro t f ht hf
      rcases Finset.mem_insert.1 ht with rfl | ht
      · exact hold f hf
      · exact ha.occupied_old t f ht hf
    · exact ha.releases_le

/-- A release keeps the agreement. -/
lemma Inv.release (ha : Inv h now a) (actor : ActorId) :
    Inv (h ++ [(.release actor now, (a.release actor now).1)]) now (a.release actor now).2 := by
  have hheld : ∀ r p, SlotHistory.held (h ++ [(.release actor now, r)]) p =
      if actor = p then none else h.held p := fun r p => SlotHistory.held_concat _ _ _
  unfold SlotAllocator.release
  cases hp : a.byActor[actor]? with
  | none =>
    have hrel : SlotHistory.releases (h ++ [(.release actor now, none)]) = h.releases := by
      rw [SlotHistory.releases_concat]
      exact List.append_nil _
    refine ⟨fun p => ?_, ha.unshared, ha.occupied_iff, ha.cooling_free, ?_, ?_, ?_, ?_⟩
    · rw [hheld]
      split_ifs with heq
      · rw [← heq]
        exact hp
      · exact ha.slotOf_eq p
    all_goals rw [hrel]
    · exact ha.cooling_last
    · exact ha.releases_cooling
    · exact ha.occupied_old
    · exact ha.releases_le
  | some s =>
    have hrel : ∀ x, x ∈ SlotHistory.releases (h ++ [(.release actor now, some s)]) ↔
        x ∈ h.releases ∨ x = (s, now) := fun x => by
      rw [SlotHistory.releases_concat, List.mem_append]
      exact or_congr_right List.mem_singleton
    have hslot : ∀ p, (a.byActor.erase actor)[p]? = if actor = p then none else a.slotOf p :=
      fun p => OrdMap.get_erase _ _ _
    have hocc : s ∈ a.occupied := (ha.occupied_iff s).2 ⟨actor, hp⟩
    refine ⟨fun p => ?_, fun p q t htp htq => ?_, fun t => ?_, fun t f ht => ?_, fun t f ht => ?_,
      fun t f hf hlt => ?_, fun t f ht hf => ?_, fun t f hf => ?_⟩
    · rw [hheld]
      exact (hslot p).trans (by rw [ha.slotOf_eq p])
    · replace htp := (hslot p).symm.trans htp
      replace htq := (hslot q).symm.trans htq
      split_ifs at htp htq
      exact ha.unshared p q t htp htq
    · rw [Finset.mem_erase, ha.occupied_iff]
      constructor
      · rintro ⟨hne, p, hpt⟩
        refine ⟨p, (hslot p).trans ?_⟩
        rw [if_neg, hpt]
        rintro rfl
        exact hne (Option.some.inj (hpt.symm.trans hp))
      · rintro ⟨p, hpt⟩
        replace hpt := (hslot p).symm.trans hpt
        split_ifs at hpt with hpa
        refine ⟨fun heq => hpa ?_, p, hpt⟩
        exact ha.unshared actor p s hp (heq ▸ hpt)
    · rw [Finset.mem_erase]
      rintro ⟨hne, hmem⟩
      rw [OrdMap.get_insert, if_neg hne.symm] at ht
      exact ha.cooling_free t f ht hmem
    · rw [OrdMap.get_insert] at ht
      simp only [hrel]
      split_ifs at ht with hst
      · cases ht
        subst hst
        refine ⟨.inr rfl, fun g hg => ?_⟩
        rcases hg with hg | hg
        · exact ha.releases_le s g hg
        · exact (congrArg Prod.snd hg).le
      · obtain ⟨hmem, hmax⟩ := ha.cooling_last t f ht
        refine ⟨.inl hmem, fun g hg => ?_⟩
        rcases hg with hg | hg
        · exact hmax g hg
        · exact absurd (congrArg Prod.fst hg).symm hst
    · rw [OrdMap.get_insert]
      split_ifs with hst
      · exact ⟨now, rfl⟩
      · refine ha.releases_cooling t f (((hrel _).1 hf).resolve_right fun heq => ?_) hlt
        exact hst (congrArg Prod.fst heq).symm
    · obtain ⟨hne, hmem⟩ := Finset.mem_erase.1 ht
      refine ha.occupied_old t f hmem (((hrel _).1 hf).resolve_right fun heq => ?_)
      exact hne (congrArg Prod.fst heq)
    · rcases (hrel _).1 hf with hf | hf
      · exact ha.releases_le t f hf
      · exact (congrArg Prod.snd hf).le

/-- A call that does not release an actor's slot leaves it to the actor. -/
lemma slotOf_step {period : Core.Duration} {c : SlotCall} {o : Option UInt32}
    {a' : SlotAllocator} {p : ActorId} {s : UInt32} (hp : a.slotOf p = some s)
    (hc : ∀ n, c ≠ .release p n) (hstep : (machine period).step a c = .ok (o, a')) :
    a'.slotOf p = some s := by
  cases c with
  | allocate actor n =>
    simp only [machine] at hstep
    split at hstep
    · rename_i t a'' halloc
      cases hstep
      obtain ⟨-, rfl⟩ | ⟨hnone, -, rfl⟩ := allocate_cases halloc
      · exact hp
      · refine (OrdMap.get_insert _ _ _ _).trans ?_
        rw [if_neg]
        · exact hp
        · rintro rfl
          rw [hnone] at hp
          cases hp
    · cases hstep
  | release actor n =>
    have hne : actor ≠ p := fun h => hc n (h ▸ rfl)
    simp only [machine, SlotAllocator.release] at hstep
    split at hstep
    · cases hstep
      exact hp
    · cases hstep
      exact (OrdMap.get_erase _ _ _).trans ((if_neg hne).trans hp)

/-- An allocation that does not return found every slot taken. -/
lemma Inv.allocate_none (ha : Inv h now a) {actor : ActorId}
    (hnone : a.allocate actor now = none) :
    h.held actor = none ∧ ∀ s, ¬ h.Free a.keyframePeriod now s := by
  unfold SlotAllocator.allocate at hnone
  cases hp : a.slotOf actor with
  | some t =>
    rw [hp] at hnone
    cases hnone
  | none =>
    rw [hp] at hnone
    refine ⟨(ha.slotOf_eq actor).symm.trans hp, fun s hs => ?_⟩
    have htaken := firstFree_none (by rfl) (Option.map_eq_none_iff.1 hnone) s
      (UInt32.le_iff_toNat_le.2 (Nat.zero_le _))
    rw [ha.taken_eq_false_iff.2 hs] at htaken
    cases htaken

/-! ## Histories of calls -/

/-- Calls do not change the cooling-off period. -/
lemma keyframePeriod_step {period : Core.Duration} {c : SlotCall} {o : Option UInt32}
    {a' : SlotAllocator} (hstep : (machine period).step a c = .ok (o, a')) :
    a'.keyframePeriod = a.keyframePeriod := by
  cases c with
  | allocate actor n =>
    simp only [machine] at hstep
    split at hstep
    · rename_i t a'' halloc
      cases hstep
      obtain ⟨-, rfl⟩ | ⟨-, -, rfl⟩ := allocate_cases halloc <;> rfl
    · cases hstep
  | release actor n =>
    simp only [machine, SlotAllocator.release] at hstep
    split at hstep <;> · cases hstep; rfl

/-- A call in its time keeps the agreement. -/
lemma Inv.step {period : Core.Duration} {c : SlotCall} {o : Option UInt32} {a' : SlotAllocator}
    (ha : Inv h c.now a) (hstep : (machine period).step a c = .ok (o, a')) :
    Inv (h ++ [(c, o)]) c.now a' := by
  cases c with
  | allocate actor n =>
    simp only [machine] at hstep
    split at hstep
    · rename_i t a'' halloc
      cases hstep
      exact ha.allocate halloc
    · cases hstep
  | release actor n =>
    have heq : a.release actor n = (o, a') := Except.ok.inj hstep
    have hinv := ha.release actor
    rw [show a.release actor (SlotCall.release actor n).now = (o, a') from heq] at hinv
    exact hinv

/-- The collections agree with every history of calls made in the order of their times. -/
lemma inv_of_steps {period : Core.Duration} {calls : List SlotCall} {outs : List (Option UInt32)}
    (hrun : (machine period).Steps (machine period).init calls outs a)
    (hsorted : (calls.map SlotCall.now).Pairwise (· ≤ ·)) :
    a.keyframePeriod = period ∧ calls.length = outs.length ∧
      ∀ now, (∀ c ∈ calls, c.now ≤ now) → Inv (calls.zip outs) now a := by
  revert hsorted
  refine hrun.stepsIf.induction (Q := fun calls outs a =>
    (calls.map SlotCall.now).Pairwise (· ≤ ·) → a.keyframePeriod = period ∧
      calls.length = outs.length ∧ ∀ now, (∀ c ∈ calls, c.now ≤ now) → Inv (calls.zip outs) now a)
    (fun _ => ⟨rfl, rfl, fun now _ => Inv.new period now⟩) ?_
  intro calls outs a c o a' _ ih _ hstep hsorted
  rw [List.map_append, List.pairwise_append] at hsorted
  obtain ⟨hbefore, -, hlast⟩ := hsorted
  obtain ⟨hperiod, hlen, hinv⟩ := ih hbefore
  refine ⟨(keyframePeriod_step hstep).trans hperiod, ?_, fun now hnow => ?_⟩
  · rw [List.length_append, List.length_append, hlen]
    rfl
  · have hpast : ∀ d ∈ calls, d.now ≤ c.now := fun d hd =>
      hlast d.now (List.mem_map_of_mem hd) c.now List.mem_cons_self
    rw [List.zip_append hlen]
    exact ((hinv c.now hpast).step hstep).later
      (hnow c (List.mem_append_right _ List.mem_cons_self))

/-- **Slots.** After any calls made in the order of their times, every actor has the slot it was
handed and has not released, nobody shares one, the occupied slots are the held ones, and none of
them cools off. An actor keeps its slot through any calls that do not release it. And an
allocation, at a time that is not before the calls, hands an actor with a slot that slot again, and
any other actor the lowest slot that nobody holds and nobody has released less than a keyframe
period ago; it fails to return only if there is no such slot. No slot is handed out less than a
keyframe period after a release. -/
theorem slots_sound (period : Core.Duration) {calls : List SlotCall} {outs : List (Option UInt32)}
    (hrun : (machine period).Steps (machine period).init calls outs a)
    (hsorted : (calls.map SlotCall.now).Pairwise (· ≤ ·)) :
    (∀ p, a.slotOf p = SlotHistory.held (calls.zip outs) p) ∧
    (∀ p q s, a.slotOf p = some s → a.slotOf q = some s → p = q) ∧
    (∀ s, s ∈ a.occupied ↔ ∃ p, SlotHistory.held (calls.zip outs) p = some s) ∧
    (∀ s ∈ a.occupied, a.cooling[s]? = none) ∧
    (∀ p s more outs' a', a.slotOf p = some s → (∀ n, .release p n ∉ more) →
      (machine period).Steps a more outs' a' → a'.slotOf p = some s) ∧
    ∀ p n, (∀ c ∈ calls, c.now ≤ n) →
      (∀ s a', a.allocate p n = some (s, a') →
        (∀ t, SlotHistory.held (calls.zip outs) p = some t → s = t ∧ a' = a) ∧
        (SlotHistory.held (calls.zip outs) p = none →
          IsLeast (SlotHistory.Free (calls.zip outs) period n) s) ∧
        ∀ f, (s, f) ∈ SlotHistory.releases (calls.zip outs) → period.ns ≤ n - f) ∧
      (a.allocate p n = none → SlotHistory.held (calls.zip outs) p = none ∧
        ∀ s, ¬ SlotHistory.Free (calls.zip outs) period n s) := by
  obtain ⟨hperiod, -, hall⟩ := inv_of_steps hrun hsorted
  -- The instant does not matter for what the collections are.
  obtain ⟨last, hlast⟩ : ∃ n, ∀ c ∈ calls, c.now ≤ n :=
    ⟨calls.toFinset.sup SlotCall.now, fun _ hc => Finset.le_sup (List.mem_toFinset.2 hc)⟩
  have ha := hall last hlast
  refine ⟨ha.slotOf_eq, ha.unshared, fun s => ?_, fun s hs => ?_, fun p s more outs' a' hp hno hmore
    => ?_, fun p n hn => ⟨fun s a' hs => ⟨fun t ht => ?_, fun hnone => ?_, fun f hf => ?_⟩,
      fun hnone => ?_⟩⟩
  · rw [ha.occupied_iff]
    simp only [ha.slotOf_eq]
  · rw [Option.eq_none_iff_forall_not_mem]
    exact fun f hf => ha.cooling_free s f hf hs
  · refine hmore.invariant (P := fun a => a.slotOf p = some s) (fun b c o b' hc hb hstep => ?_) hp
    exact slotOf_step hb (fun n hcn => hno n (hcn ▸ hc)) hstep
  · rw [allocate_of_slotOf ((ha.slotOf_eq p).trans ht)] at hs
    cases hs
    exact ⟨rfl, rfl⟩
  · obtain ⟨hp, -⟩ | ⟨-, hfirst, -⟩ := allocate_cases hs
    · rw [ha.slotOf_eq, hnone] at hp
      cases hp
    · have hleast := (hall n hn).isLeast hfirst
      rw [hperiod] at hleast
      exact hleast
  · have hinv := (hall n hn).allocate hs
    have hocc : s ∈ a'.occupied := (hinv.occupied_iff s).2 ⟨p, by
      rw [hinv.slotOf_eq, SlotHistory.held_concat]
      exact if_pos rfl⟩
    have hold := hinv.occupied_old s f hocc (by rwa [SlotHistory.releases_allocate])
    obtain ⟨-, rfl⟩ | ⟨-, -, rfl⟩ := allocate_cases hs
    all_goals exact hperiod ▸ hold
  · have hnone' := (hall n hn).allocate_none hnone
    rwa [hperiod] at hnone'

/-- A slot released at one and still cooling off at five is passed over, and is handed out again
at eleven. -/
theorem slots_sound_reuse :
    ∃ outs a, (machine ⟨10⟩).Steps (machine ⟨10⟩).init
        [.allocate 7 0, .release 7 1, .allocate 8 5, .allocate 9 11] outs a ∧
      outs = [some 0, some 0, some 1, some 0] ∧
      a.slotOf 9 = SlotHistory.held ([.allocate 7 0, .release 7 1, .allocate 8 5,
        .allocate 9 11].zip outs) 9 ∧
      (∀ p q s, a.slotOf p = some s → a.slotOf q = some s → p = q) := by
  obtain ⟨a, hrun⟩ := (machine ⟨10⟩).exists_steps
    [.allocate 7 0, .release 7 1, .allocate 8 5, .allocate 9 11] (machine ⟨10⟩).init
    (by decide +kernel)
  obtain ⟨hheld, hunshared, -⟩ := slots_sound ⟨10⟩ hrun (by decide)
  exact ⟨_, a, hrun, by decide +kernel, hheld 9, hunshared⟩

end SlotAllocator

end V2xw.Record
