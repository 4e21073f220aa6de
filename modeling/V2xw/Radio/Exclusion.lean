import V2xw.Radio.Selection

/-!
# What sensing excludes

Which candidates `SpsEngine::exclude` of `crates/v2xw-radio/src/sps.rs` keeps, after any calls for
the slots of the sensing window. The ring of cells remembers, for each sub-channel of a slot,
whether anything was heard and the strongest announcement. The exclusion projects an announcement
from every sub-channel that remembers it, with its whole length, and takes a slot in which the UE
transmitted for unheard only on the sub-channels of which nothing was heard.

## Main definitions

* `SensingCall` — what a UE notes.
* `strongest`, `heard` — what the notes say of a sub-channel of a slot.
* `SpsEngine.Reserved`, `SpsEngine.Unsensed` — what the standard excludes:
  what an announcement reserves, and what may have been announced while the UE transmitted.
* `SpsEngine.Projected`, `SpsEngine.Unheard` — what the code excludes.
* `SpsEngine.Agrees`, `SpsEngine.AgreesFromCells` — where the two are the
  same.

## Main results

* `Remembers.call` — the ring remembers what was noted.
* `SpsEngine.kept_iff` — the candidates that are kept.
* `SpsEngine.exclude_standard_iff` — the exclusion is that of the standard exactly where
  the two agree.
* `SpsEngine.exclusion_differs` — where they do not.
-/

namespace V2xw.Radio

/-! ## What a UE notes -/

/-- An announcement: the resource it reserves, how strong it was heard, and the period. -/
structure Sci where
  resource : SlResource
  rsrpDbm : ℚ
  rriSlots : ℕ
  deriving DecidableEq

/-- Something a UE notes of a slot. -/
inductive SensingCall
  | sensed (x : Sci)
  | energy (slot subch : ℕ) (mw : ℚ)
  | transmitted (slot : ℕ)
  deriving DecidableEq

/-- The slot of a note. -/
def SensingCall.slot : SensingCall → ℕ
  | .sensed x => x.resource.slot
  | .energy slot _ _ | .transmitted slot => slot

/-- One note. -/
def SensingHistory.call (h : SensingHistory) : SensingCall → SensingHistory
  | .sensed x => h.noteSensed x.resource x.rsrpDbm x.rriSlots
  | .energy slot subch mw => h.noteEnergy slot subch mw
  | .transmitted slot => h.noteTransmitted slot

/-- The window of a UE after its notes. -/
def SensingHistory.after (subchannels windowSlots : ℕ) (calls : List SensingCall) :
    SensingHistory :=
  calls.foldl call (new subchannels windowSlots)

/-- Whether an announcement is of a sub-channel of a slot. -/
def Sci.covers (x : Sci) (slot subch : ℕ) : Bool :=
  x.resource.slot = slot ∧ x.resource.subch ≤ subch ∧ subch < x.resource.subch + x.resource.len

/-- The stronger of two announcements, and the first of two equal ones. -/
def stronger (best : Option Sci) (x : Sci) : Option Sci :=
  match best with
  | none => some x
  | some b => if b.rsrpDbm < x.rsrpDbm then some x else some b

/-- The strongest announcement of a sub-channel of a slot. -/
def strongest (calls : List SensingCall) (slot subch : ℕ) : Option Sci :=
  calls.foldl (fun best c =>
    match c with
    | .sensed x => if x.covers slot subch then stronger best x else best
    | _ => best) none

/-- Whether a note has something heard on a sub-channel of a slot. -/
def SensingCall.hears (slot subch : ℕ) : SensingCall → Bool
  | .sensed x => x.covers slot subch
  | .energy s c _ => s = slot ∧ c = subch
  | .transmitted _ => false

/-- Whether anything was heard on a sub-channel of a slot. -/
def heard (calls : List SensingCall) (slot subch : ℕ) : Bool := calls.any (·.hears slot subch)

/-! ## The ring -/

/-- What a cell remembers of an announcement. -/
def SensedCell.view (c : SensedCell) : WithBot ℚ × ℕ × ℕ := (c.rsrpDbm, c.rriSlots, c.len)

/-- What there is to remember of the strongest announcement. -/
def viewOf : Option Sci → WithBot ℚ × ℕ × ℕ
  | none => (⊥, 0, 0)
  | some x => (x.rsrpDbm, x.rriSlots, x.resource.len)

/-- A cell after an announcement of its sub-channel. -/
def SensedCell.touch (c : SensedCell) (x : Sci) : SensedCell :=
  if c.slot ≠ x.resource.slot then
    ⟨x.resource.slot, x.rsrpDbm, x.rriSlots, x.resource.len, 0⟩
  else if c.rsrpDbm < (x.rsrpDbm : WithBot ℚ) then
    { c with rsrpDbm := x.rsrpDbm, rriSlots := x.rriSlots, len := x.resource.len }
  else c

lemma SensedCell.touch_touch (c : SensedCell) (x : Sci) : (c.touch x).touch x = c.touch x := by
  unfold SensedCell.touch
  split_ifs with h₁ h₂ <;> simp_all

namespace SensingHistory

lemma slot_inj {lo w s s' : ℕ} (hs : lo ≤ s ∧ s < lo + w) (hs' : lo ≤ s' ∧ s' < lo + w)
    (hmod : s % w = s' % w) : s = s' := by
  rcases Nat.le_total s s' with hle | hle
  · have hdvd := Nat.dvd_of_mod_eq_zero (Nat.sub_mod_eq_zero_of_mod_eq hmod.symm)
    have hzero : s' - s = 0 := Nat.eq_zero_of_dvd_of_lt hdvd (by omega)
    omega
  · have hdvd := Nat.dvd_of_mod_eq_zero (Nat.sub_mod_eq_zero_of_mod_eq hmod)
    have hzero : s - s' = 0 := Nat.eq_zero_of_dvd_of_lt hdvd (by omega)
    omega

/-- The sub-channels an announcement is noted on. -/
lemma mem_noted {x : Sci} {S sc : ℕ} :
    sc ∈ (x.resource.range.take S).takeWhile (fun sc => decide (sc < S)) ↔
      (x.resource.subch ≤ sc ∧ sc < x.resource.subch + x.resource.len) ∧ sc < S := by
  have hwhile : ∀ n a : ℕ, (List.range' a n).takeWhile (fun sc => decide (sc < S)) =
      List.range' a (min n (S - a)) := by
    intro n
    induction n with
    | zero => intro a; simp
    | succ n ih =>
      intro a
      rw [List.range'_succ, List.takeWhile_cons]
      by_cases ha : a < S
      · rw [if_pos (decide_eq_true ha), ih]
        have hlen : min (n + 1) (S - a) = min n (S - (a + 1)) + 1 := by omega
        rw [hlen, List.range'_succ]
      · rw [if_neg (by simpa using ha)]
        have hlen : min (n + 1) (S - a) = 0 := by omega
        rw [hlen]
        rfl
  unfold SlResource.range
  rcases Nat.le_total x.resource.len S with hlen | hlen
  · rw [List.take_range'_of_length_le hlen, hwhile, List.mem_range'_1]
    omega
  · rw [List.take_range'_of_length_ge hlen, hwhile, List.mem_range'_1]
    omega

/-- An announcement on one of its sub-channels. -/
def noteOn (x : Sci) (h : SensingHistory) (subch : ℕ) : SensingHistory :=
  { h with
    cells := Function.update h.cells (h.index x.resource.slot subch)
      ((h.cells (h.index x.resource.slot subch)).touch x) }

/-- An announcement is noted on one sub-channel after the other. -/
lemma noteSensed_eq_foldl (h : SensingHistory) (x : Sci) :
    h.noteSensed x.resource x.rsrpDbm x.rriSlots =
      ((x.resource.range.take h.subchannels).takeWhile
        fun sc => decide (sc < h.subchannels)).foldl (noteOn x) h := by
  unfold noteSensed
  congr 1
  funext h sc
  unfold noteOn SensedCell.touch
  dsimp only
  split_ifs
  · rfl
  · rfl
  · rw [Function.update_eq_self]

/-- Announcements on some sub-channels touch their cells, and nothing else. -/
lemma foldl_noteOn (x : Sci) (l : List ℕ) (h : SensingHistory) :
    l.foldl (noteOn x) h =
      { h with cells := fun i =>
          if i ∈ l.map (h.index x.resource.slot) then (h.cells i).touch x else h.cells i } := by
  induction l generalizing h with
  | nil => simp
  | cons sc l ih =>
    rw [List.foldl_cons, ih]
    unfold noteOn index
    congr 1
    funext i
    simp only [List.map_cons, List.mem_cons]
    by_cases hi : i = x.resource.slot % h.windowSlots * h.subchannels + sc
    · subst hi
      rw [Function.update_self, if_pos (Or.inl rfl), SensedCell.touch_touch, ite_self]
    · rw [Function.update_of_ne hi]
      simp only [hi, false_or]

lemma index_inj {h : SensingHistory} {lo s s' sc sc' : ℕ} (hs : lo ≤ s ∧ s < lo + h.windowSlots)
    (hs' : lo ≤ s' ∧ s' < lo + h.windowSlots) (hsc : sc < h.subchannels)
    (hsc' : sc' < h.subchannels) : h.index s sc = h.index s' sc' ↔ s = s' ∧ sc = sc' := by
  refine ⟨fun heq => ?_, fun hand => by rw [hand.1, hand.2]⟩
  unfold index at heq
  have hmod : s % h.windowSlots = s' % h.windowSlots := by
    have hdiv := congrArg (· / h.subchannels) heq
    have hpos : 0 < h.subchannels := Nat.zero_lt_of_lt hsc
    simpa only [Nat.add_comm _ sc, Nat.add_comm _ sc', Nat.add_mul_div_right _ _ hpos,
      Nat.div_eq_of_lt hsc, Nat.div_eq_of_lt hsc', Nat.zero_add] using hdiv
  rw [hmod] at heq
  exact ⟨slot_inj hs hs' hmod, Nat.add_left_cancel heq⟩

end SensingHistory

/-! ## What the ring remembers -/

/-- Of a sub-channel of which nothing was heard no announcement is the strongest. -/
lemma strongest_eq_none {calls : List SensingCall} {slot sc : ℕ}
    (h : heard calls slot sc = false) : strongest calls slot sc = none := by
  induction calls using List.reverseRecOn with
  | nil => rfl
  | append_singleton calls c ih =>
    unfold heard at h ih
    rw [List.any_append, Bool.or_eq_false_iff] at h
    have hlast : c.hears slot sc = false := by simpa using h.2
    unfold strongest at ih ⊢
    rw [List.foldl_append, ih h.1]
    cases c with
    | sensed x => exact if_neg (by simpa [SensingCall.hears] using hlast)
    | energy _ _ _ => rfl
    | transmitted _ => rfl

/-- The strongest announcement of a sub-channel is one of it. -/
lemma covers_of_strongest {calls : List SensingCall} {slot sc : ℕ} {x : Sci}
    (h : strongest calls slot sc = some x) : x.covers slot sc ∧ .sensed x ∈ calls := by
  induction calls using List.reverseRecOn with
  | nil => exact absurd h nofun
  | append_singleton calls c ih =>
    have hkeep : strongest calls slot sc = some x →
        x.covers slot sc ∧ .sensed x ∈ calls ++ [c] :=
      fun h => ⟨(ih h).1, List.mem_append_left _ (ih h).2⟩
    unfold strongest at h hkeep
    rw [List.foldl_append] at h
    cases c with
    | energy _ _ _ => exact hkeep h
    | transmitted _ => exact hkeep h
    | sensed y =>
      rw [List.foldl_cons, List.foldl_nil] at h
      dsimp only at h
      split_ifs at h with hy
      · unfold stronger at h
        split at h
        · cases h
          exact ⟨hy, List.mem_append_right _ List.mem_cons_self⟩
        · rename_i b hb
          split_ifs at h
          · cases h
            exact ⟨hy, List.mem_append_right _ List.mem_cons_self⟩
          · exact hkeep (hb.trans h)
      · exact hkeep h

/-- What the ring remembers of the slots of a window. -/
structure Remembers (S W lo : ℕ) (calls : List SensingCall) (h : SensingHistory) : Prop where
  subchannels : h.subchannels = S
  windowSlots : h.windowSlots = W
  /-- A cell holds a slot of which something was heard. -/
  slot_iff : ∀ slot sc, lo ≤ slot → slot < lo + W → slot < 2 ^ 64 - 1 → sc < S →
    ((h.cells (h.index slot sc)).slot = slot ↔ heard calls slot sc = true)
  /-- It holds the strongest announcement of it. -/
  view_eq : ∀ slot sc, lo ≤ slot → slot < lo + W → slot < 2 ^ 64 - 1 → sc < S →
    heard calls slot sc = true →
      (h.cells (h.index slot sc)).view = viewOf (strongest calls slot sc)
  /-- So are the slots in which the UE transmitted. -/
  transmitted_iff : ∀ slot, lo ≤ slot → slot < lo + W → slot < 2 ^ 64 - 1 →
    (h.transmittedIn slot = true ↔ .transmitted slot ∈ calls)

lemma heard_append (calls : List SensingCall) (c : SensingCall) (slot sc : ℕ) :
    heard (calls ++ [c]) slot sc = (heard calls slot sc || c.hears slot sc) := by
  simp [heard]

/-- The cell of a sub-channel of the window after an announcement. -/
lemma SensingHistory.cells_sensed {h : SensingHistory} {x : Sci} {lo slot sc : ℕ}
    (hx : lo ≤ x.resource.slot ∧ x.resource.slot < lo + h.windowSlots)
    (hslot : lo ≤ slot ∧ slot < lo + h.windowSlots) (hsc : sc < h.subchannels) :
    (h.call (.sensed x)).cells (h.index slot sc) =
      if x.covers slot sc then (h.cells (h.index slot sc)).touch x
      else h.cells (h.index slot sc) := by
  have hmem : h.index slot sc ∈ ((x.resource.range.take h.subchannels).takeWhile
      fun sc => decide (sc < h.subchannels)).map (h.index x.resource.slot) ↔
        x.covers slot sc = true := by
    unfold Sci.covers
    rw [List.mem_map, decide_eq_true_eq]
    constructor
    · rintro ⟨sc', hsc', heq⟩
      obtain ⟨hin, hlt⟩ := mem_noted.1 hsc'
      obtain ⟨h₁, rfl⟩ := (index_inj hx hslot hlt hsc).1 heq
      exact ⟨h₁, hin⟩
    · rintro ⟨h₁, h₂⟩
      exact ⟨sc, mem_noted.2 ⟨h₂, hsc⟩, by rw [h₁]⟩
  unfold call
  dsimp only
  rw [noteSensed_eq_foldl, foldl_noteOn]
  exact if_congr hmem rfl rfl

/-- The cell of a sub-channel of the window after energy on one. -/
lemma SensingHistory.cells_energy {h : SensingHistory} {lo s c slot sc : ℕ} {mw : ℚ}
    (hs : lo ≤ s ∧ s < lo + h.windowSlots) (hslot : lo ≤ slot ∧ slot < lo + h.windowSlots)
    (hsc : sc < h.subchannels) :
    (h.call (.energy s c mw)).cells (h.index slot sc) =
      if s = slot ∧ c = sc then
        if (h.cells (h.index slot sc)).slot ≠ slot then
          { SensedCell.empty with slot, srssiMw := mw }
        else
          { h.cells (h.index slot sc) with srssiMw := (h.cells (h.index slot sc)).srssiMw + mw }
      else h.cells (h.index slot sc) := by
  unfold call noteEnergy
  dsimp only
  by_cases hc : h.subchannels ≤ c
  · rw [if_pos hc, if_neg (by rintro ⟨-, rfl⟩; omega)]
  · rw [if_neg hc]
    by_cases hat : s = slot ∧ c = sc
    · obtain ⟨rfl, rfl⟩ := hat
      rw [if_pos (show s = s ∧ c = c from ⟨rfl, rfl⟩)]
      split_ifs
      · exact Function.update_self ..
      · exact Function.update_self ..
    · have hne : h.index slot sc ≠ h.index s c := fun heq => by
        obtain ⟨rfl, rfl⟩ := (index_inj hslot hs hsc (Nat.lt_of_not_le hc)).1 heq
        exact hat ⟨rfl, rfl⟩
      rw [if_neg hat]
      split_ifs
      · exact Function.update_of_ne hne ..
      · exact Function.update_of_ne hne ..

/-- A note changes neither the size of the ring nor its layout. -/
lemma SensingHistory.call_size (h : SensingHistory) (c : SensingCall) :
    (h.call c).subchannels = h.subchannels ∧ (h.call c).windowSlots = h.windowSlots ∧
      (h.call c).index = h.index := by
  cases c with
  | sensed x =>
    unfold call
    dsimp only
    rw [noteSensed_eq_foldl, foldl_noteOn]
    exact ⟨rfl, rfl, rfl⟩
  | energy s c mw =>
    unfold call noteEnergy
    dsimp only
    split_ifs <;> exact ⟨rfl, rfl, rfl⟩
  | transmitted s => exact ⟨rfl, rfl, rfl⟩

/-- The slots in which the UE transmitted, with one more note of the window. -/
lemma SensingHistory.transmittedIn_call {h : SensingHistory} {c : SensingCall} {lo slot : ℕ}
    (hc : lo ≤ c.slot ∧ c.slot < lo + h.windowSlots)
    (hslot : lo ≤ slot ∧ slot < lo + h.windowSlots) :
    (h.call c).transmittedIn slot = true ↔ h.transmittedIn slot = true ∨ .transmitted slot = c := by
  cases c with
  | sensed x =>
    unfold call
    dsimp only
    rw [noteSensed_eq_foldl, foldl_noteOn]
    exact (or_iff_left nofun).symm
  | energy s c mw =>
    unfold call noteEnergy
    dsimp only
    split_ifs <;> exact (or_iff_left nofun).symm
  | transmitted s =>
    unfold call noteTransmitted transmittedIn
    dsimp only
    rw [SensingCall.transmitted.injEq, beq_iff_eq, beq_iff_eq]
    by_cases heq : slot % h.windowSlots = s % h.windowSlots
    · obtain rfl := slot_inj hslot hc heq
      rw [Function.update_self]
      exact (or_iff_right_of_imp fun _ => rfl).symm
    · rw [Function.update_of_ne heq]
      exact (or_iff_left fun h => heq (by rw [h])).symm

lemma strongest_append (calls : List SensingCall) (c : SensingCall) (slot sc : ℕ) :
    strongest (calls ++ [c]) slot sc =
      match c with
      | .sensed x =>
        if x.covers slot sc then stronger (strongest calls slot sc) x else strongest calls slot sc
      | _ => strongest calls slot sc := by
  unfold strongest
  rw [List.foldl_append, List.foldl_cons, List.foldl_nil]

/-- The view of a cell after a touch, from the view of the strongest announcement before. -/
lemma SensedCell.view_touch {c : SensedCell} {x : Sci} {best : Option Sci}
    (hfresh : c.slot ≠ x.resource.slot → best = none)
    (hview : c.slot = x.resource.slot → c.view = viewOf best) :
    (c.touch x).slot = x.resource.slot ∧ (c.touch x).view = viewOf (stronger best x) := by
  unfold touch
  split_ifs with hslot hlt
  · rw [hfresh hslot]
    exact ⟨rfl, rfl⟩
  · have hv := hview (not_not.1 hslot)
    refine ⟨not_not.1 hslot, ?_⟩
    cases best with
    | none => rfl
    | some b =>
      have hrsrp : c.rsrpDbm = b.rsrpDbm := congrArg Prod.fst hv
      rw [hrsrp, WithBot.coe_lt_coe] at hlt
      unfold stronger
      dsimp only
      rw [if_pos hlt]
      rfl
  · have hv := hview (not_not.1 hslot)
    refine ⟨not_not.1 hslot, ?_⟩
    cases best with
    | none =>
      have hrsrp : c.rsrpDbm = ⊥ := congrArg Prod.fst hv
      rw [hrsrp] at hlt
      exact absurd (WithBot.bot_lt_coe _) hlt
    | some b =>
      have hrsrp : c.rsrpDbm = b.rsrpDbm := congrArg Prod.fst hv
      rw [hrsrp, WithBot.coe_lt_coe] at hlt
      unfold stronger
      dsimp only
      rw [if_neg hlt]
      exact hv

/-- **The ring remembers the next note of the window.** -/
theorem Remembers.call {S W lo : ℕ} {calls : List SensingCall} {h : SensingHistory}
    (hr : Remembers S W lo calls h) {c : SensingCall} (hlo : lo ≤ c.slot) (hhi : c.slot < lo + W) :
    Remembers S W lo (calls ++ [c]) (h.call c) := by
  obtain ⟨rfl, rfl, hslot, hview, htx⟩ := hr
  obtain ⟨hS, hW, hindex⟩ := h.call_size c
  -- Cells and slots of the UE, with the notes before.
  suffices hcell : ∀ slot sc, lo ≤ slot → slot < lo + h.windowSlots → slot < 2 ^ 64 - 1 →
      sc < h.subchannels →
      (((h.call c).cells (h.index slot sc)).slot = slot ↔
        heard (calls ++ [c]) slot sc = true) ∧
      (heard (calls ++ [c]) slot sc = true →
        ((h.call c).cells (h.index slot sc)).view = viewOf (strongest (calls ++ [c]) slot sc)) by
    refine ⟨hS, hW, fun slot sc h₁ h₂ h₃ h₄ => ?_, fun slot sc h₁ h₂ h₃ h₄ => ?_,
      fun slot h₁ h₂ h₃ => ?_⟩
    · rw [hindex]
      exact (hcell slot sc h₁ h₂ h₃ h₄).1
    · rw [hindex]
      exact (hcell slot sc h₁ h₂ h₃ h₄).2
    · rw [SensingHistory.transmittedIn_call ⟨hlo, hhi⟩ ⟨h₁, h₂⟩, htx slot h₁ h₂ h₃,
        List.mem_append, List.mem_singleton]
  intro slot sc h₁ h₂ h₃ h₄
  have hs := hslot slot sc h₁ h₂ h₃ h₄
  have hv := hview slot sc h₁ h₂ h₃ h₄
  -- Nothing was heard where the cell holds another slot.
  have hnone : (h.cells (h.index slot sc)).slot ≠ slot → strongest calls slot sc = none :=
    fun hne => strongest_eq_none (Bool.eq_false_iff.2 fun hh => hne (hs.2 hh))
  rw [heard_append, strongest_append, Bool.or_eq_true, ← hs]
  cases c with
  | sensed x =>
    rw [SensingHistory.cells_sensed ⟨hlo, hhi⟩ ⟨h₁, h₂⟩ h₄]
    unfold SensingCall.hears
    dsimp only
    by_cases hx : x.covers slot sc = true
    · have hxs : x.resource.slot = slot := (of_decide_eq_true hx).1
      rw [if_pos hx, if_pos hx]
      obtain ⟨hts, htv⟩ :=
        SensedCell.view_touch (c := h.cells (h.index slot sc)) (x := x)
          (fun hne => hnone fun heq => hne (heq.trans hxs.symm))
          (fun heq => hv (hs.1 (heq.trans hxs)))
      exact ⟨iff_of_true (hts.trans hxs) (.inr hx), fun _ => htv⟩
    · rw [if_neg hx, if_neg hx]
      exact ⟨(or_iff_left hx).symm, fun hor => hv (hs.1 (hor.resolve_right hx))⟩
  | energy s c mw =>
    have hat : lo ≤ s ∧ s < lo + h.windowSlots := ⟨hlo, hhi⟩
    rw [SensingHistory.cells_energy hat ⟨h₁, h₂⟩ h₄]
    unfold SensingCall.hears
    dsimp only
    rw [decide_eq_true_eq]
    split_ifs with hat hne
    · rw [hnone hne]
      exact ⟨iff_of_true rfl (.inr hat), fun _ => rfl⟩
    · exact ⟨iff_of_true (not_not.1 hne) (.inr hat), fun _ => hv (hs.1 (not_not.1 hne))⟩
    · exact ⟨(or_iff_left hat).symm, fun hor => hv (hs.1 (hor.resolve_right hat))⟩
  | transmitted s =>
    exact ⟨(or_iff_left nofun).symm, fun hor => hv (hs.1 (hor.resolve_right nofun))⟩

/-- **The ring remembers the notes of the window.** -/
lemma remembers_after (S W lo : ℕ) {calls : List SensingCall}
    (hcalls : ∀ c ∈ calls, lo ≤ c.slot ∧ c.slot < lo + W) :
    Remembers S W lo calls (.after S W calls) := by
  induction calls using List.reverseRecOn with
  | nil =>
    refine ⟨rfl, rfl, fun slot sc _ _ hmax _ => ?_, fun _ _ _ _ _ _ h => absurd h nofun,
      fun slot _ _ hmax => ?_⟩
    · exact iff_of_false (fun h : 2 ^ 64 - 1 = slot => by omega) nofun
    · unfold SensingHistory.after SensingHistory.transmittedIn SensingHistory.new
      exact iff_of_false (fun h => absurd (beq_iff_eq.1 h) (Nat.ne_of_gt hmax)) List.not_mem_nil
  | append_singleton calls c ih =>
    have hafter : SensingHistory.after S W (calls ++ [c]) =
        (SensingHistory.after S W calls).call c := by
      unfold SensingHistory.after
      rw [List.foldl_append, List.foldl_cons, List.foldl_nil]
    obtain ⟨hlo, hhi⟩ := hcalls c (List.mem_append_right _ List.mem_cons_self)
    rw [hafter]
    exact (ih fun c hc => hcalls c (List.mem_append_left _ hc)).call hlo hhi

/-! ## What is excluded -/

/-- One slot is some whole periods, and at least one, after another. -/
def Repeats (slot period t : ℕ) : Prop := ∃ q, 0 < q ∧ t = slot + q * period

/-- A resource has a sub-channel from one up to another. -/
def SlResource.Meets (r : SlResource) (lo hi : ℕ) : Prop := r.subch < hi ∧ lo < r.subch + r.len

namespace SpsEngine

variable (e : SpsEngine) (calls : List SensingCall) (thresholdDbm : ℚ) (c : SlResource)

/-- A strongest announcement above the threshold that is repeated in the slot of a candidate. -/
def Announced (slot subch : ℕ) (x : Sci) : Prop :=
  subch < e.pool.subchannels ∧ strongest calls slot subch = some x ∧
    thresholdDbm ≤ x.rsrpDbm ∧ 0 < x.rriSlots ∧ Repeats slot x.rriSlots c.slot

/-- An announcement reserves a sub-channel of the candidate. -/
def Reserved : Prop :=
  ∃ slot subch x, e.Announced calls thresholdDbm c slot subch x ∧
    c.Meets x.resource.subch (x.resource.subch + x.resource.len)

/-- An announcement meets the candidate if it is moved to a sub-channel that remembers it. -/
def Projected : Prop :=
  ∃ slot subch x, e.Announced calls thresholdDbm c slot subch x ∧
    c.Meets subch (subch + x.resource.len)

/-- The UE transmitted whole periods before the candidate. -/
def Unsensed : Prop :=
  ∃ slot, .transmitted slot ∈ calls ∧ Repeats slot (e.params.rri.slots e.pool.mu) c.slot

/-- The UE transmitted whole periods before the candidate, and nothing was heard then on one of its
sub-channels. -/
def Unheard : Prop :=
  ∃ slot subch, .transmitted slot ∈ calls ∧ Repeats slot (e.params.rri.slots e.pool.mu) c.slot ∧
    (c.subch ≤ subch ∧ subch < c.subch + c.len) ∧ heard calls slot subch = false

variable {e calls thresholdDbm c} {u : UeState} {triggerSlot len W : ℕ}

/-- The slots at whole periods after a slot, up to another. -/
lemma mem_repeats {slot period last t : ℕ} (hpos : 0 < period) :
    t ∈ repeats slot period last ↔ Repeats slot period t ∧ t ≤ last := by
  unfold repeats Repeats
  rw [List.mem_map]
  constructor
  · rintro ⟨j, hj, rfl⟩
    have hle := (Nat.le_div_iff_mul_le hpos).1 (Nat.succ_le_of_lt (List.mem_range.1 hj))
    have hone : 1 * period ≤ (j + 1) * period := Nat.mul_le_mul_right _ (Nat.succ_pos j)
    exact ⟨⟨j + 1, Nat.succ_pos j, rfl⟩, by rw [Nat.succ_eq_add_one] at hle; omega⟩
  · rintro ⟨⟨q, hq, rfl⟩, hle⟩
    refine ⟨q - 1, List.mem_range.2 ?_, by rw [Nat.sub_add_cancel hq]⟩
    have hdiv : q ≤ (last - slot) / period := (Nat.le_div_iff_mul_le hpos).2 (by omega)
    omega

/-- The candidates end with the selection window and the pool. -/
lemma bounds_of_mem_candidates {r : SlResource} (h : r ∈ e.candidates triggerSlot len) :
    triggerSlot ≤ r.slot ∧ r.slot ≤ triggerSlot + e.params.t2Slots ∧
      r.subch + r.len ≤ e.pool.subchannels ∧ 0 < r.len := by
  unfold candidates at h
  dsimp only at h
  split at h
  · exact absurd h List.not_mem_nil
  · obtain ⟨slot, hslot, h⟩ := List.mem_flatMap.mp h
    obtain ⟨start, hstart, rfl⟩ := List.mem_map.mp h
    have hs := List.mem_range'_1.mp hslot
    have hst := List.mem_range.mp hstart
    dsimp only
    omega

lemma getElem?_exclude {i : ℕ} (hc : (e.candidates triggerSlot len)[i]? = some c) :
    (e.exclude u triggerSlot len thresholdDbm)[i]? = some true ↔
      (e.params.sensing = true → ∀ b ∈ e.blockers u triggerSlot thresholdDbm,
        b.1 = c.slot → ¬ c.Meets b.2.1 b.2.2) := by
  unfold exclude SlResource.Meets
  split_ifs with hs
  · dsimp only
    rw [List.getElem?_map, hc, Option.map_some, Option.some_inj, Bool.not_eq_true',
      List.any_eq_false]
    simp [hs]
  · rw [List.getElem?_map, hc]
    exact iff_of_true rfl fun h => absurd h hs

/-- What a cell of the window blocks. -/
def blockersAt (e : SpsEngine) (u : UeState) (thresholdDbm : ℚ) (last slot sc : ℕ) :
    List (ℕ × ℕ × ℕ) :=
  match u.history.cell slot sc with
  | none =>
    if u.history.transmittedIn slot && decide (0 < e.params.rri.ms) then
      (repeats slot (e.params.rri.slots e.pool.mu) last).map fun t => (t, sc, sc + 1)
    else []
  | some cell =>
    if cell.rriSlots = 0 ∨ cell.rsrpDbm < (thresholdDbm : WithBot ℚ) then []
    else (repeats slot cell.rriSlots last).map fun t => (t, sc, sc + max cell.len 1)

/-- The cells of the window block. -/
lemma mem_blockers {b : ℕ × ℕ × ℕ} (hwindow : u.history.windowSlots = W) :
    b ∈ e.blockers u triggerSlot thresholdDbm ↔
      ∃ slot sc, (triggerSlot - W ≤ slot ∧ slot < triggerSlot) ∧ sc < e.pool.subchannels ∧
        b ∈ e.blockersAt u thresholdDbm (triggerSlot + e.params.t2Slots) slot sc := by
  unfold blockers
  dsimp only
  rw [hwindow, List.mem_flatMap]
  constructor
  · rintro ⟨slot, hslot, hb⟩
    obtain ⟨sc, hsc, hb⟩ := List.mem_flatMap.1 hb
    have hin := List.mem_range'_1.1 hslot
    exact ⟨slot, sc, ⟨hin.1, by omega⟩, List.mem_range.1 hsc, hb⟩
  · rintro ⟨slot, sc, ⟨hlo, hhi⟩, hsc, hb⟩
    exact ⟨slot, List.mem_range'_1.2 ⟨hlo, by omega⟩,
      List.mem_flatMap.2 ⟨sc, List.mem_range.2 hsc, hb⟩⟩

lemma exists_repeats_iff {slot period last lo hi : ℕ} (hpos : 0 < period)
    (hlast : c.slot ≤ last) :
    (∃ b ∈ (repeats slot period last).map fun t => (t, lo, hi),
        b.1 = c.slot ∧ c.Meets b.2.1 b.2.2) ↔ Repeats slot period c.slot ∧ c.Meets lo hi := by
  constructor
  · rintro ⟨b, hb, heq, hmeets⟩
    obtain ⟨t, ht, rfl⟩ := List.mem_map.1 hb
    obtain rfl : t = c.slot := heq
    exact ⟨((mem_repeats hpos).1 ht).1, hmeets⟩
  · rintro ⟨hrep, hmeets⟩
    exact ⟨(c.slot, lo, hi), List.mem_map.2 ⟨c.slot, (mem_repeats hpos).2 ⟨hrep, hlast⟩, rfl⟩,
      rfl, hmeets⟩

/-- **What a cell blocks**: what its strongest announcement is repeated on, from its sub-channel, or
its sub-channel after whole periods of the UE if nothing was heard while the UE transmitted. -/
lemma exists_blockerAt_iff {last slot sc : ℕ}
    (hr : Remembers e.pool.subchannels W (triggerSlot - W) calls u.history)
    (hslot : triggerSlot - W ≤ slot ∧ slot < triggerSlot) (hmax : triggerSlot ≤ 2 ^ 64 - 1)
    (hsc : sc < e.pool.subchannels) (hafter : slot < c.slot) (hlast : c.slot ≤ last) :
    (∃ b ∈ e.blockersAt u thresholdDbm last slot sc, b.1 = c.slot ∧ c.Meets b.2.1 b.2.2) ↔
      (∃ x, e.Announced calls thresholdDbm c slot sc x ∧ c.Meets sc (sc + x.resource.len)) ∨
        .transmitted slot ∈ calls ∧ Repeats slot (e.params.rri.slots e.pool.mu) c.slot ∧
          (c.subch ≤ sc ∧ sc < c.subch + c.len) ∧ heard calls slot sc = false := by
  have hin : slot < triggerSlot - W + W := by omega
  have hlt : slot < 2 ^ 64 - 1 := by omega
  have hcell := hr.slot_iff slot sc hslot.1 hin hlt hsc
  have hsub : ¬ u.history.subchannels ≤ sc := by
    rw [hr.subchannels]
    exact Nat.not_le_of_lt hsc
  cases hheard : heard calls slot sc with
  | false =>
    rw [hheard] at hcell
    have hnone : u.history.cell slot sc = none := by
      unfold SensingHistory.cell
      dsimp only
      rw [if_neg hsub, if_neg fun heq => Bool.false_ne_true (hcell.1 heq)]
    have hno : ¬ ∃ x, e.Announced calls thresholdDbm c slot sc x ∧
        c.Meets sc (sc + x.resource.len) := by
      rintro ⟨x, ⟨-, hx, -⟩, -⟩
      rw [strongest_eq_none hheard] at hx
      cases hx
    rw [or_iff_right hno]
    unfold blockersAt
    rw [hnone]
    dsimp only
    have htx := hr.transmitted_iff slot hslot.1 hin hlt
    by_cases hms : 0 < e.params.rri.ms
    · have hperiod : 0 < e.params.rri.slots e.pool.mu :=
        Nat.mul_pos hms (Nat.two_pow_pos _)
      by_cases hsent : .transmitted slot ∈ calls
      · rw [if_pos (by rw [htx.2 hsent, decide_eq_true hms]; rfl),
          exists_repeats_iff hperiod hlast]
        unfold SlResource.Meets
        rw [Nat.lt_succ_iff]
        exact ⟨fun h => ⟨hsent, h.1, h.2, rfl⟩, fun h => ⟨h.2.1, h.2.2.1⟩⟩
      · rw [if_neg fun h => hsent (htx.1 (Bool.and_eq_true_iff.1 h).1)]
        exact iff_of_false (fun ⟨_, hb, _⟩ => absurd hb List.not_mem_nil) fun h => hsent h.1
    · -- A reservation without a period repeats in no later slot.
      rw [if_neg fun h => hms (of_decide_eq_true (Bool.and_eq_true_iff.1 h).2)]
      refine iff_of_false (fun ⟨_, hb, _⟩ => absurd hb List.not_mem_nil) ?_
      rintro ⟨-, ⟨q, -, hq⟩, -⟩
      have hzero : e.params.rri.slots e.pool.mu = 0 := by
        unfold Rri.slots
        rw [Nat.eq_zero_of_not_pos hms, Nat.zero_mul]
      rw [hzero, Nat.mul_zero] at hq
      omega
  | true =>
    have hview := hr.view_eq slot sc hslot.1 hin hlt hsc hheard
    have hsome : u.history.cell slot sc = some (u.history.cells (u.history.index slot sc)) := by
      unfold SensingHistory.cell
      dsimp only
      rw [if_neg hsub, if_pos (hcell.2 hheard)]
    rw [or_iff_left fun h => Bool.false_ne_true h.2.2.2.symm]
    unfold blockersAt
    rw [hsome]
    dsimp only
    generalize u.history.cells (u.history.index slot sc) = cell at hview
    obtain ⟨cslot, rsrp, rri, clen, mw⟩ := cell
    cases hx : strongest calls slot sc with
    | none =>
      rw [hx] at hview
      obtain ⟨rfl, rfl, rfl⟩ : rsrp = ⊥ ∧ rri = 0 ∧ clen = 0 := by
        simpa [SensedCell.view, viewOf] using hview
      rw [if_pos (.inl rfl)]
      refine iff_of_false (fun ⟨_, hb, _⟩ => absurd hb List.not_mem_nil) ?_
      rintro ⟨x, ⟨-, h, -⟩, -⟩
      rw [hx] at h
      cases h
    | some x =>
      rw [hx] at hview
      obtain ⟨rfl, rfl, rfl⟩ : rsrp = x.rsrpDbm ∧ rri = x.rriSlots ∧ clen = x.resource.len := by
        simpa [SensedCell.view, viewOf] using hview
      -- An announcement of a sub-channel has one.
      have hlen : max x.resource.len 1 = x.resource.len := by
        have hcov := of_decide_eq_true (covers_of_strongest hx).1
        omega
      simp only [WithBot.coe_lt_coe, hlen]
      by_cases hon : x.rriSlots = 0 ∨ x.rsrpDbm < thresholdDbm
      · rw [if_pos hon]
        refine iff_of_false (fun ⟨_, hb, _⟩ => absurd hb List.not_mem_nil) ?_
        rintro ⟨y, ⟨-, hy, hthr, hpos, -⟩, -⟩
        obtain rfl : x = y := Option.some.inj (hx.symm.trans hy)
        rcases hon with hzero | hweak
        · exact absurd hzero (Nat.ne_of_gt hpos)
        · exact absurd hweak (not_lt_of_ge hthr)
      · rw [if_neg hon]
        push Not at hon
        have hpos : 0 < x.rriSlots := Nat.pos_of_ne_zero hon.1
        rw [exists_repeats_iff hpos hlast]
        constructor
        · rintro ⟨hrep, hmeets⟩
          exact ⟨x, ⟨hsc, hx, hon.2, hpos, hrep⟩, hmeets⟩
        · rintro ⟨y, ⟨-, hy, -, -, hrep⟩, hmeets⟩
          obtain rfl : x = y := Option.some.inj (hx.symm.trans hy)
          exact ⟨hrep, hmeets⟩

/-- **What blocks a candidate**: announcements, each from the sub-channels that remember it, and the
sub-channels of which nothing was heard while the UE transmitted. -/
lemma exists_blocker_iff
    (hr : Remembers e.pool.subchannels W (triggerSlot - W) calls u.history)
    (hcalls : ∀ c ∈ calls, triggerSlot ≤ c.slot + W ∧ c.slot < triggerSlot)
    (hmax : triggerSlot ≤ 2 ^ 64 - 1) (hc : c ∈ e.candidates triggerSlot len) :
    (∃ b ∈ e.blockers u triggerSlot thresholdDbm, b.1 = c.slot ∧ c.Meets b.2.1 b.2.2) ↔
      e.Projected calls thresholdDbm c ∨ e.Unheard calls c := by
  obtain ⟨hle, hlast, hpool, -⟩ := bounds_of_mem_candidates hc
  have hat : ∀ {slot sc : ℕ}, triggerSlot - W ≤ slot ∧ slot < triggerSlot →
      sc < e.pool.subchannels →
      ((∃ b ∈ e.blockersAt u thresholdDbm (triggerSlot + e.params.t2Slots) slot sc,
          b.1 = c.slot ∧ c.Meets b.2.1 b.2.2) ↔
        (∃ x, e.Announced calls thresholdDbm c slot sc x ∧ c.Meets sc (sc + x.resource.len)) ∨
          .transmitted slot ∈ calls ∧ Repeats slot (e.params.rri.slots e.pool.mu) c.slot ∧
            (c.subch ≤ sc ∧ sc < c.subch + c.len) ∧ heard calls slot sc = false) :=
    fun hslot hsc =>
      exists_blockerAt_iff hr hslot hmax hsc (Nat.lt_of_lt_of_le hslot.2 hle) hlast
  constructor
  · rintro ⟨b, hb, hmeets⟩
    obtain ⟨slot, sc, hslot, hsc, hb⟩ := (mem_blockers hr.windowSlots).1 hb
    rcases (hat hslot hsc).1 ⟨b, hb, hmeets⟩ with ⟨x, hx⟩ | hun
    · exact .inl ⟨slot, sc, x, hx⟩
    · exact .inr ⟨slot, sc, hun⟩
  · have hback : ∀ {slot sc : ℕ}, triggerSlot - W ≤ slot ∧ slot < triggerSlot →
        sc < e.pool.subchannels →
        (∃ b ∈ e.blockersAt u thresholdDbm (triggerSlot + e.params.t2Slots) slot sc,
          b.1 = c.slot ∧ c.Meets b.2.1 b.2.2) →
        ∃ b ∈ e.blockers u triggerSlot thresholdDbm, b.1 = c.slot ∧ c.Meets b.2.1 b.2.2 := by
      rintro slot sc hslot hsc ⟨b, hb, hmeets⟩
      exact ⟨b, (mem_blockers hr.windowSlots).2 ⟨slot, sc, hslot, hsc, hb⟩, hmeets⟩
    have hwindow : ∀ x ∈ calls, triggerSlot - W ≤ x.slot ∧ x.slot < triggerSlot := fun x hx => by
      have := hcalls x hx
      omega
    rintro (⟨slot, sc, x, hx, hmeets⟩ | ⟨slot, sc, hsent, hrep, hin, hun⟩)
    · obtain ⟨hcov, hmem⟩ := covers_of_strongest hx.2.1
      have hslot := hwindow _ hmem
      obtain rfl : x.resource.slot = slot := (of_decide_eq_true hcov).1
      exact hback hslot hx.1 ((hat hslot hx.1).2 (.inl ⟨x, hx, hmeets⟩))
    · have hsc : sc < e.pool.subchannels := by omega
      have hslot := hwindow _ hsent
      exact hback hslot hsc ((hat hslot hsc).2 (.inr ⟨hsent, hrep, hin, hun⟩))

/-- **The candidates that are kept**: those that no announcement meets from a sub-channel that
remembers it, and that are not unheard. -/
theorem kept_iff (hhist : u.history = .after e.pool.subchannels W calls)
    (hcalls : ∀ c ∈ calls, triggerSlot ≤ c.slot + W ∧ c.slot < triggerSlot)
    (hmax : triggerSlot ≤ 2 ^ 64 - 1) {i : ℕ}
    (hc : (e.candidates triggerSlot len)[i]? = some c) :
    (e.exclude u triggerSlot len thresholdDbm)[i]? = some true ↔
      (e.params.sensing = true → ¬ e.Projected calls thresholdDbm c ∧ ¬ e.Unheard calls c) := by
  have hr : Remembers e.pool.subchannels W (triggerSlot - W) calls u.history := by
    rw [hhist]
    refine remembers_after _ _ _ fun c hc => ?_
    have := hcalls c hc
    omega
  rw [getElem?_exclude hc, ← not_or,
    ← exists_blocker_iff hr hcalls hmax (List.mem_of_getElem? hc)]
  refine imp_congr_right fun _ => ?_
  push Not
  exact Iff.rfl

lemma Unheard.unsensed (h : e.Unheard calls c) : e.Unsensed calls c := by
  obtain ⟨slot, _, hsent, hrep, -⟩ := h
  exact ⟨slot, hsent, hrep⟩

variable (e calls thresholdDbm c) in
/-- Where the exclusion is that of the standard: what could not be sensed is unheard or blocked
anyway, nothing is blocked from where it was remembered that is neither reserved nor unsensed, and
what is reserved is blocked from where it was remembered or unheard. -/
def Agrees : Prop :=
  if e.params.sensing = true then
    (e.Unsensed calls c → e.Unheard calls c ∨ e.Projected calls thresholdDbm c) ∧
      (e.Projected calls thresholdDbm c →
        e.Reserved calls thresholdDbm c ∨ e.Unsensed calls c) ∧
      (e.Reserved calls thresholdDbm c →
        e.Projected calls thresholdDbm c ∨ e.Unheard calls c)
  else ¬ e.Reserved calls thresholdDbm c ∧ ¬ e.Unsensed calls c

variable (e calls thresholdDbm c) in
/-- Where the exclusion is that of the standard if announcements reach as far to the right of each
sub-channel that remembers them as they are long. -/
def AgreesFromCells : Prop :=
  if e.params.sensing = true then
    e.Unsensed calls c → e.Unheard calls c ∨ e.Projected calls thresholdDbm c
  else ¬ e.Projected calls thresholdDbm c ∧ ¬ e.Unsensed calls c

/-- The validation profile of LTE, with ten packets a second. -/
def lteTen : SpsEngine := ⟨.molinaMasegosaHighway, .molinaMasegosa 10, 4, id⟩

/-- A UE transmits in a slot and measures energy on its first sub-channel. In another slot it hears
the first two sub-channels announced. -/
def twoNotes : List SensingCall :=
  [.transmitted 1950, .energy 1950 0 1, .sensed ⟨⟨1960, 0, 2⟩, -80, 100⟩]

/-- A UE after these notes. -/
def notedUe : UeState := { lteTen.newUe with history := .after 4 1000 twoNotes }

/-- **The exclusion is that of the standard exactly where the two agree**, whether announcements
reach what they reserve or as far as they are moved. -/
theorem exclude_standard_iff (hhist : u.history = .after e.pool.subchannels W calls)
    (hcalls : ∀ c ∈ calls, triggerSlot ≤ c.slot + W ∧ c.slot < triggerSlot)
    (hmax : triggerSlot ≤ 2 ^ 64 - 1) {i : ℕ}
    (hc : (e.candidates triggerSlot len)[i]? = some c) :
    (((e.exclude u triggerSlot len thresholdDbm)[i]? = some true ↔
        ¬ e.Reserved calls thresholdDbm c ∧ ¬ e.Unsensed calls c) ↔
      e.Agrees calls thresholdDbm c) ∧
    (((e.exclude u triggerSlot len thresholdDbm)[i]? = some true ↔
        ¬ e.Projected calls thresholdDbm c ∧ ¬ e.Unsensed calls c) ↔
      e.AgreesFromCells calls thresholdDbm c) := by
  have hunheard : e.Unheard calls c → e.Unsensed calls c := Unheard.unsensed
  rw [kept_iff hhist hcalls hmax hc]
  unfold Agrees AgreesFromCells
  split_ifs with hs
  · rw [forall_prop_of_true hs]
    constructor
    · tauto
    · tauto
  · have hall : e.params.sensing = true → ¬ e.Projected calls thresholdDbm c ∧
        ¬ e.Unheard calls c := fun h => absurd h hs
    exact ⟨iff_true_left hall, iff_true_left hall⟩

theorem exclude_standard_twoNotes :
    (((lteTen.exclude notedUe 2000 1 (-110))[238]? = some true ↔
        ¬ lteTen.Reserved twoNotes (-110) ⟨2060, 2, 1⟩ ∧ ¬ lteTen.Unsensed twoNotes ⟨2060, 2, 1⟩) ↔
      lteTen.Agrees twoNotes (-110) ⟨2060, 2, 1⟩) ∧
    (((lteTen.exclude notedUe 2000 1 (-110))[238]? = some true ↔
        ¬ lteTen.Projected twoNotes (-110) ⟨2060, 2, 1⟩ ∧
          ¬ lteTen.Unsensed twoNotes ⟨2060, 2, 1⟩) ↔
      lteTen.AgreesFromCells twoNotes (-110) ⟨2060, 2, 1⟩) :=
  exclude_standard_iff (W := 1000) rfl (by decide) (by decide) (by decide +kernel)

/-- A candidate is kept that could not be sensed, and another one is excluded that nothing reserves
and that was sensed. -/
theorem exclusion_differs :
    ((lteTen.candidates 2000 1)[196]? = some ⟨2050, 0, 1⟩ ∧
      (lteTen.exclude notedUe 2000 1 (-110))[196]? = some true ∧
      lteTen.Unsensed twoNotes ⟨2050, 0, 1⟩) ∧
    (lteTen.candidates 2000 1)[238]? = some ⟨2060, 2, 1⟩ ∧
      (lteTen.exclude notedUe 2000 1 (-110))[238]? = some false ∧
      ¬ lteTen.Reserved twoNotes (-110) ⟨2060, 2, 1⟩ ∧
      ¬ lteTen.Unsensed twoNotes ⟨2060, 2, 1⟩ := by
  have hrri : lteTen.params.rri.slots lteTen.pool.mu = 100 := by decide
  have hkept : [196, 238].map (fun i => (lteTen.exclude notedUe 2000 1 (-110))[i]?) =
      [some true, some false] := by decide +kernel
  obtain ⟨hkept, hexcluded⟩ := List.cons.inj hkept
  refine ⟨⟨by decide +kernel, hkept, ?_⟩, by decide +kernel, (List.cons.inj hexcluded).1, ?_, ?_⟩
  · exact ⟨1950, List.mem_cons_self, 1, Nat.one_pos, by rw [hrri]⟩
  · rintro ⟨slot, sc, x, ⟨-, hx, -⟩, hmeets⟩
    have hmem := (covers_of_strongest hx).2
    obtain rfl : x = ⟨⟨1960, 0, 2⟩, -80, 100⟩ := by simpa [twoNotes] using hmem
    exact absurd hmeets.1 (by decide)
  · rintro ⟨slot, hsent, q, -, hq⟩
    obtain rfl : slot = 1950 := by simpa [twoNotes] using hsent
    rw [hrri] at hq
    have hslot : 2060 = 1950 + q * 100 := hq
    omega

end SpsEngine

end V2xw.Radio
