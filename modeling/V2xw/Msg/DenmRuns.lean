import V2xw.Lib.Mealy
import V2xw.Msg.Denm

/-!
# Histories of DENM events

What a station is told to transmit about an event, over any history of calls in the order of time.
An observer keeps, for each event, what was asked for and what was reported; every report follows
from that and from the instant of the poll. A repetition is scheduled before the end of the
repetition duration, and a poll that comes late still reports it.

## Main definitions

* `DenmCall`, `DenmService.call` — the calls of the service.
* `Told` — what was asked for and reported about an event.
* `ActiveEvent.Overdue` — a repetition is due and its duration is over.

## Main results

* `Known` — an event that is alive stands as the observer knows it.
* `Stands.call` — so do all events of the service, after every call.
* `denm_lifecycle` — what a poll reports after any history.
* `repetition_after_duration` — a late poll reports a repetition after its duration.
-/

namespace V2xw.Msg

open Core

/-! ## Calls -/

/-- A call of the service. -/
inductive DenmCall
  | create (now : SimTime) (validity : Duration) (repetition : Option Repetition)
  | update (id : EventId) (now : SimTime)
  | cancel (id : EventId) (now : SimTime)
  | negate (id : EventId) (now : SimTime)
  | poll (now : SimTime)
  deriving DecidableEq, Repr

/-- The instant of a call. -/
def DenmCall.time : DenmCall → SimTime
  | .create now _ _ | .update _ now | .cancel _ now | .negate _ now | .poll now => now

/-- Whether a call creates an event. -/
def DenmCall.creates : DenmCall → Bool
  | .create .. => true
  | _ => false

/-- What a call returns. -/
inductive DenmReply
  | created (id : EventId)
  | accepted (done : Bool)
  | actions (due : List DenmAction)
  deriving DecidableEq, Repr

/-- One call. -/
def DenmService.call (s : DenmService) : DenmCall → DenmReply × DenmService
  | .create now validity repetition => (s.create now validity repetition).map .created id
  | .update id now => (s.update id now).map .accepted (fun s => s)
  | .cancel id now => (s.cancel id now).map .accepted (fun s => s)
  | .negate id now => (s.negate id now).map .accepted (fun s => s)
  | .poll now => (s.poll now).map .actions id

/-- The service of a station after a history of calls. -/
def DenmService.after (stationId : UInt32) (calls : List DenmCall) : DenmService :=
  Mealy.run DenmService.call (.new stationId) calls

/-! ## What an observer keeps -/

/-- What was asked for and reported about an event. -/
structure Told where
  /-- The event as it was created. -/
  created : Option (SimTime × Duration × Option Repetition) := none
  /-- What the polls reported about it, the last report last. -/
  reports : List (SimTime × DenmAction) := []
  /-- Whether something was asked for since the last poll. -/
  asked : Bool := false
  /-- The last kind of termination that was asked for. -/
  ending : Option TerminationKind := none
  deriving DecidableEq, Repr

namespace Told

/-- A poll reports something, or nothing. -/
def polled (g : Told) (now : SimTime) (due : List DenmAction) : Told :=
  { g with reports := g.reports ++ due.map (now, ·), asked := false }

/-- One call and its reply. -/
def note (id : EventId) (g : Told) : DenmCall → DenmReply → Told
  | .create now validity repetition, .created id' =>
    if id' = id then { g with created := some (now, validity, repetition), asked := true } else g
  | .update id' _, .accepted true => if id' = id then { g with asked := true } else g
  | .cancel id' _, .accepted true =>
    if id' = id then { g with ending := some .cancellation, asked := true } else g
  | .negate id' _, .accepted true =>
    if id' = id then { g with ending := some .negation, asked := true } else g
  | .poll now, .actions due => g.polled now (due.filter (·.event = id))
  | _, _ => g

lemma note_update (g : Told) (id i : EventId) (t : SimTime) (done : Bool) :
    g.note i (.update id t) (.accepted done) =
      if done = true ∧ id = i then { g with asked := true } else g := by
  cases done <;> simp [note]

lemma note_cancel (g : Told) (id i : EventId) (t : SimTime) (done : Bool) :
    g.note i (.cancel id t) (.accepted done) =
      if done = true ∧ id = i then { g with ending := some .cancellation, asked := true }
      else g := by
  cases done <;> simp [note]

lemma note_negate (g : Told) (id i : EventId) (t : SimTime) (done : Bool) :
    g.note i (.negate id t) (.accepted done) =
      if done = true ∧ id = i then { g with ending := some .negation, asked := true } else g := by
  cases done <;> simp [note]

/-- Whether the termination of the event was reported. -/
def Ended (g : Told) : Prop := ∃ x ∈ g.reports, ∃ id kind, x.2 = .termination id kind

end Told

/-- What was asked for and reported about an event, over a history of calls. -/
def told (stationId : UInt32) (calls : List DenmCall) (id : EventId) : Told :=
  Mealy.log DenmService.call (Told.note id) (.new stationId) {} calls

/-! ## One event -/

/-- **An event that is alive stands as the observer knows it.** -/
structure Known (e : ActiveEvent) (g : Told) (now : SimTime) : Prop where
  created : ∃ r, g.created = some (e.detectionTime, e.validity, r) ∧
    e.repetition = r.filter fun r => r.interval.ns ≠ 0 ∧ r.duration.ns ≠ 0
  ending : e.pendingTermination = g.ending
  original : e.sentOriginal = true ↔ g.reports ≠ []
  going : ¬ g.Ended
  /-- What was asked for since the last poll is due. -/
  asked : g.asked = true → (∃ u, e.nextTx = some u ∧ u ≤ now) ∧
    (g.reports ≠ [] → g.ending = none → e.pendingUpdate = true)
  /-- Otherwise the next transmission is an interval after the last report. -/
  idle : g.asked = false → g.ending = none ∧ g.reports ≠ [] ∧
    ∀ u, e.nextTx = some u → ∃ r last, e.repetition = some r ∧ g.reports.getLast? = some last ∧
      u = last.1 + r.interval.ns

lemma ActiveEvent.nextRepetition_eq {e : ActiveEvent} {now u : SimTime}
    (h : e.nextRepetition now = some u) : ∃ r, e.repetition = some r ∧ u = now + r.interval.ns := by
  obtain ⟨r, hr, hnext⟩ := Option.bind_eq_some_iff.1 h
  dsimp only at hnext
  split_ifs at hnext with hlt
  refine ⟨r, hr, ?_⟩
  obtain rfl := Option.some.inj hnext
  have hend : min (now + r.interval.ns) u64Max < u64Max :=
    Nat.lt_of_lt_of_le hlt.1 (Nat.min_le_right _ _)
  exact Nat.min_eq_left (Nat.le_of_not_lt fun hgt => by
    rw [Nat.min_eq_right hgt.le] at hend
    exact absurd hend (Nat.lt_irrefl _))

namespace Known

variable {e : ActiveEvent} {g : Told} {now t : SimTime}

/-- What a poll reports about an event that goes on. -/
structure Going (e : ActiveEvent) (g : Told) (t : SimTime) (due : Option DenmAction) : Prop where
  first : g.reports = [] → due = some (.original e.id)
  later : g.reports ≠ [] → due ≠ some (.original e.id)
  asked : g.asked = true → due.isSome
  going : ∀ id kind, due ≠ some (.termination id kind)
  spaced : ∀ id, due = some (.repetition id) → ∃ r last, e.repetition = some r ∧
    g.reports.getLast? = some last ∧ last.1 + r.interval.ns ≤ t

/-- A transmission is of an event that goes on. -/
lemma transmit (h : Known e g now) (hending : g.ending = none)
    (hdue : e.nextTx.any (· ≤ t) = true) :
    Going e g t (some (e.transmit t).1) ∧
      Known (e.transmit t).2 (g.polled t [(e.transmit t).1]) t := by
  obtain ⟨u, hu, hle⟩ := (Option.any_eq_true _ _).1 hdue
  have hle : u ≤ t := of_decide_eq_true hle
  -- The next transmission is scheduled from this one, whichever it is.
  have hnext : ∀ a : DenmAction, ∀ v, e.nextRepetition t = some v → ∃ r last,
      e.repetition = some r ∧ (g.polled t [a]).reports.getLast? = some last ∧
        v = last.1 + r.interval.ns := by
    intro a v hv
    obtain ⟨r, hr, heq⟩ := ActiveEvent.nextRepetition_eq hv
    exact ⟨r, (t, a), hr, List.getLast?_concat, heq⟩
  have hgoing : ∀ a : DenmAction, (∀ id kind, a ≠ .termination id kind) →
      ¬ (g.polled t [a]).Ended := by
    rintro a ha ⟨x, hx, id, kind, heq⟩
    rcases List.mem_append.1 hx with hx | hx
    · exact h.going ⟨x, hx, id, kind, heq⟩
    · obtain rfl := List.mem_singleton.1 hx
      exact ha id kind heq
  have hmore : ∀ a : DenmAction, (g.polled t [a]).reports ≠ [] := by
    intro a hnil
    exact List.cons_ne_nil _ _ (List.append_eq_nil_iff.1 hnil).2
  unfold ActiveEvent.transmit
  dsimp only
  split_ifs with hfirst hupdate
  · -- The original.
    have hnil : g.reports = [] := by
      by_contra hne
      rw [h.original.2 hne] at hfirst
      cases hfirst
    refine ⟨⟨fun _ => rfl, fun hne => absurd hnil hne, fun _ => rfl, nofun, nofun⟩, h.created,
      h.ending, iff_of_true rfl (hmore _), hgoing _ nofun, nofun, fun _ => ⟨hending, hmore _, ?_⟩⟩
    exact hnext _
  · -- An update.
    have hsent : e.sentOriginal = true := by simpa using hfirst
    have hne := h.original.1 hsent
    refine ⟨⟨fun hnil => absurd hnil hne, nofun, fun _ => rfl, nofun, nofun⟩, h.created,
      h.ending, iff_of_true hsent (hmore _), hgoing _ nofun, nofun,
      fun _ => ⟨hending, hmore _, ?_⟩⟩
    exact hnext _
  · -- A repetition: nothing was asked for since the last poll.
    have hsent : e.sentOriginal = true := by simpa using hfirst
    have hne := h.original.1 hsent
    refine ⟨⟨fun hnil => absurd hnil hne, nofun, fun _ => rfl, nofun, fun _ _ => ?_⟩, h.created,
      h.ending, iff_of_true hsent (hmore _), hgoing _ nofun, nofun,
      fun _ => ⟨hending, hmore _, ?_⟩⟩
    · have hidle : g.asked = false := by
        by_contra hasked
        exact hupdate ((h.asked (Bool.eq_true_of_not_eq_false hasked)).2 hne hending)
      obtain ⟨r, last, hr, hlast, heq⟩ := (h.idle hidle).2.2 u hu
      exact ⟨r, last, hr, hlast, heq ▸ hle⟩
    · exact hnext _

/-- **What a poll does to an event**: its termination, if that was asked for; nothing, if it has
expired; and else it goes on. -/
lemma poll_cases (h : Known e g now) (ht : now ≤ t) :
    (∃ kind, g.ending = some kind ∧ e.poll t = (some (.termination e.id kind), none)) ∨
    (g.ending = none ∧ e.validity.after e.detectionTime ≤ t ∧ e.poll t = (none, none)) ∨
    g.ending = none ∧ t < e.validity.after e.detectionTime ∧ Going e g t (e.poll t).1 ∧
      ∃ e', (e.poll t).2 = some e' ∧ e'.id = e.id ∧
        Known e' (g.polled t (e.poll t).1.toList) t := by
  unfold ActiveEvent.poll
  have hending := h.ending
  cases hg : g.ending with
  | some kind =>
    rw [hg] at hending
    have hasked : g.asked = true := by
      by_contra hno
      have hnone := (h.idle (Bool.eq_false_of_not_eq_true hno)).1
      rw [hg] at hnone
      cases hnone
    obtain ⟨⟨u, hu, hle⟩, -⟩ := h.asked hasked
    have hdue : e.nextTx.any (· ≤ t) = true := by
      rw [hu]
      exact decide_eq_true (hle.trans ht)
    rw [hending, hdue]
    exact .inl ⟨kind, rfl, rfl⟩
  | none =>
    rw [hg] at hending
    rw [hending]
    by_cases hexpired : e.validity.after e.detectionTime ≤ t
    · exact .inr (.inl ⟨rfl, hexpired, if_pos hexpired⟩)
    · refine .inr (.inr ⟨rfl, Nat.lt_of_not_le hexpired, ?_⟩)
      simp only [ge_iff_le, if_neg hexpired]
      cases hdue : e.nextTx.any (· ≤ t) with
      | true =>
        obtain ⟨hgoing, hknown⟩ := h.transmit hg hdue
        exact ⟨hgoing, _, rfl, (e.transmit_spec t).2.1, hknown⟩
      | false =>
        -- Nothing is due, so nothing was asked for since the last poll.
        have hidle : g.asked = false := by
          by_contra hasked
          obtain ⟨⟨u, hu, hle⟩, -⟩ := h.asked (Bool.eq_true_of_not_eq_false hasked)
          rw [hu] at hdue
          exact absurd (hle.trans ht) (of_decide_eq_false hdue)
        have hsame : g.polled t [] = g := by
          unfold Told.polled
          rw [List.map_nil, List.append_nil, ← hidle]
        obtain ⟨-, hreports, hnext⟩ := h.idle hidle
        refine ⟨⟨fun hnil => absurd hnil hreports, fun _ => nofun, fun hasked => ?_,
          fun _ _ => nofun, fun _ => nofun⟩, e, rfl, rfl, ?_⟩
        · rw [hidle] at hasked
          cases hasked
        · change Known e (g.polled t []) t
          rw [hsame]
          refine ⟨h.created, h.ending, h.original, h.going, fun hasked => ?_, h.idle⟩
          rw [hidle] at hasked
          cases hasked

lemma later (h : Known e g now) (ht : now ≤ t) : Known e g t :=
  { h with
    asked := fun hasked =>
      have ⟨⟨u, hu, hle⟩, hupdate⟩ := h.asked hasked
      ⟨⟨u, hu, hle.trans ht⟩, hupdate⟩ }

lemma updated (h : Known e g now) (t : SimTime) :
    Known { e with pendingUpdate := true, nextTx := some t } { g with asked := true } t :=
  ⟨h.created, h.ending, h.original, h.going, fun _ => ⟨⟨t, rfl, Nat.le_refl _⟩, fun _ _ => rfl⟩,
    nofun⟩

lemma terminated (h : Known e g now) (t : SimTime) (kind : TerminationKind) :
    Known { e with pendingTermination := some kind, nextTx := some t }
      { g with ending := some kind, asked := true } t :=
  ⟨h.created, rfl, h.original, h.going, fun _ => ⟨⟨t, rfl, Nat.le_refl _⟩, fun _ => nofun⟩, nofun⟩

end Known

/-- **An event that is not alive**: it never was, or its termination was reported, or it expired. -/
def Told.Gone (g : Told) (now : SimTime) : Prop :=
  g.asked = false ∧ (g = {} ∨ g.Ended ∨
    g.ending = none ∧ ∃ d v r, g.created = some (d, v, r) ∧ Duration.after v d ≤ now)

lemma Told.Gone.later {g : Told} {now t : SimTime} (h : g.Gone now) (ht : now ≤ t) : g.Gone t := by
  obtain ⟨hasked, h | h | ⟨hending, d, v, r, hcreated, hle⟩⟩ := h
  · exact ⟨hasked, .inl h⟩
  · exact ⟨hasked, .inr (.inl h)⟩
  · exact ⟨hasked, .inr (.inr ⟨hending, d, v, r, hcreated, hle.trans ht⟩)⟩

lemma Told.Gone.polled {g : Told} {now : SimTime} (h : g.Gone now) : (g.polled now []).Gone now := by
  have hreports : (g.polled now []).reports = g.reports := by simp [Told.polled]
  obtain ⟨-, rfl | ⟨x, hx, hend⟩ | h⟩ := h
  · exact ⟨rfl, .inl rfl⟩
  · exact ⟨rfl, .inr (.inl ⟨x, hreports ▸ hx, hend⟩)⟩
  · exact ⟨rfl, .inr (.inr h)⟩

/-! ## All events -/

/-- **The events of the service stand as the observer knows them**, after `n` creations. -/
structure Stands (s : DenmService) (g : EventId → Told) (n : ℕ) (now : SimTime) : Prop where
  next : s.allocator.next.toNat = n
  distinct : (s.events.map (·.id)).Nodup
  alive : ∀ e ∈ s.events, Known e (g e.id) now
  gone : ∀ id, s.isActive id = false → (g id).Gone now
  fresh : ∀ id : EventId, n ≤ id.sequenceNumber.toNat → g id = {}

namespace DenmService

variable {s : DenmService}

/-- Where the identifiers differ, a change is of the one event under its identifier. -/
lemma amend_eq (hdistinct : (s.events.map (·.id)).Nodup) (id : EventId)
    (f : ActiveEvent → ActiveEvent) :
    s.amend id f = if s.isActive id then
      (true, { s with events := s.events.map fun e => if e.id = id then f e else e })
      else (false, s) := by
  unfold amend
  cases hfind : s.events.findIdx? (·.id == id) with
  | none =>
    have hnone : s.isActive id = false := by
      rw [List.findIdx?_eq_none_iff] at hfind
      simpa [isActive] using hfind
    rw [hnone]
    rfl
  | some i =>
    obtain ⟨hi, hid, -⟩ := List.findIdx?_eq_some_iff_getElem.1 hfind
    have hid : s.events[i].id = id := by simpa using hid
    have hactive : s.isActive id = true := isActive_iff.2 ⟨_, List.getElem_mem hi, hid⟩
    rw [if_pos hactive]
    have hmap : s.events.modify i f = s.events.map fun e => if e.id = id then f e else e := by
      refine List.ext_getElem (by simp) fun j hj _ => ?_
      have hj : j < s.events.length := by simpa using hj
      rw [List.getElem_modify, List.getElem_map]
      by_cases hij : i = j
      · subst hij
        rw [if_pos rfl, if_pos hid]
      · have hne : s.events[j].id ≠ id := by
          intro hjd
          have hi' : i < (s.events.map (·.id)).length := by simpa using hi
          have hj' : j < (s.events.map (·.id)).length := by simpa using hj
          have heq : (s.events.map (·.id))[i] = (s.events.map (·.id))[j] := by
            rw [List.getElem_map, List.getElem_map, hid, hjd]
          exact hij (hdistinct.getElem_inj_iff.1 heq)
        rw [if_neg hij, if_neg hne]
    exact congrArg (fun l => (true, { s with events := l })) hmap

lemma filter_of_gone {id : EventId} (h : s.isActive id = false) (t : SimTime) :
    (s.poll t).1.filter (·.event = id) = [] := by
  refine List.filter_eq_nil_iff.2 fun a ha => ?_
  intro hid
  have hactive := mem_poll ha
  rw [of_decide_eq_true hid, h] at hactive
  cases hactive

/-- What a poll reports about an event that is alive: what that event gives. -/
lemma filter_of_alive (hdistinct : (s.events.map (·.id)).Nodup) {e : ActiveEvent}
    (he : e ∈ s.events) (t : SimTime) :
    (s.poll t).1.filter (·.event = e.id) = (e.poll t).1.toList := by
  have hperm : s.sorted.Perm s.events := List.perm_insertionSort _ _
  have hdistinct : (s.sorted.map (·.id)).Nodup := (hperm.map _).nodup_iff.2 hdistinct
  have he := hperm.mem_iff.2 he
  unfold poll
  generalize s.sorted = l at hdistinct he
  dsimp only
  induction l with
  | nil => cases he
  | cons x l ih =>
    rw [List.map_cons, List.nodup_cons] at hdistinct
    obtain ⟨hx, hdistinct⟩ := hdistinct
    -- No other event reports anything under this identifier.
    have hothers : ∀ l' : List ActiveEvent, (∀ y ∈ l', y.id ≠ e.id) →
        (l'.filterMap fun y => (y.poll t).1).filter (·.event = e.id) = [] := by
      intro l' hl'
      refine List.filter_eq_nil_iff.2 fun a ha hid => ?_
      obtain ⟨y, hy, hpoll⟩ := List.mem_filterMap.1 ha
      exact hl' y hy ((ActiveEvent.event_of_poll hpoll).symm.trans (of_decide_eq_true hid))
    rw [List.filterMap_cons]
    rcases List.mem_cons.1 he with rfl | hmem
    · have hrest := hothers l fun y hy hid => hx (hid ▸ List.mem_map_of_mem hy)
      cases hpoll : (e.poll t).1 with
      | none => exact hrest
      | some a =>
        dsimp only
        rw [List.filter_cons, if_pos (decide_eq_true (ActiveEvent.event_of_poll hpoll)), hrest]
        rfl
    · have hne : x.id ≠ e.id := fun hid => hx (hid ▸ List.mem_map_of_mem hmem)
      cases hpoll : (x.poll t).1 with
      | none => exact ih hdistinct hmem
      | some a =>
        dsimp only
        rw [List.filter_cons, if_neg, ih hdistinct hmem]
        rw [ActiveEvent.event_of_poll hpoll]
        simpa using hne

/-- A poll keeps the identifiers apart. -/
lemma distinct_poll (hdistinct : (s.events.map (·.id)).Nodup) (t : SimTime) :
    ((s.poll t).2.events.map (·.id)).Nodup := by
  have hperm : s.sorted.Perm s.events := List.perm_insertionSort _ _
  have hdistinct : (s.sorted.map (·.id)).Nodup := (hperm.map _).nodup_iff.2 hdistinct
  refine hdistinct.sublist ?_
  change ((s.sorted.filterMap fun e => (e.poll t).2).map (·.id)).Sublist _
  generalize s.sorted = l
  induction l with
  | nil => exact .slnil
  | cons x l ih =>
    rw [List.filterMap_cons]
    cases hpoll : (x.poll t).2 with
    | none => exact ih.cons _
    | some e' =>
      dsimp only
      rw [List.map_cons, List.map_cons, (ActiveEvent.id_of_poll hpoll).1]
      exact ih.cons_cons _

end DenmService

namespace Stands

variable {s : DenmService} {g : EventId → Told} {n : ℕ} {now : SimTime}

lemma new (stationId : UInt32) : Stands (.new stationId) (fun _ => {}) 0 0 where
  next := rfl
  distinct := List.nodup_nil
  alive e he := by cases he
  gone _ _ := ⟨rfl, .inl rfl⟩
  fresh _ _ := rfl

/-- A new event has a new identifier, as long as the counter has not wrapped. -/
lemma create (h : Stands s g n now) {t : SimTime} (ht : now ≤ t) (hfew : n + 1 < 65536)
    (validity : Duration) (repetition : Option Repetition) :
    Stands (s.create t validity repetition).2
      (fun id => (g id).note id (.create t validity repetition)
        (.created (s.create t validity repetition).1)) (n + 1) t := by
  have hnext := h.next
  have hnew : g ⟨s.allocator.stationId, s.allocator.next⟩ = {} := h.fresh _ hnext.ge
  have hdead : ∀ e ∈ s.events, e.id ≠ ⟨s.allocator.stationId, s.allocator.next⟩ := by
    intro e he hid
    obtain ⟨r, hr, -⟩ := (h.alive e he).created
    rw [hid, hnew] at hr
    cases hr
  have hother : ∀ id, id ≠ ⟨s.allocator.stationId, s.allocator.next⟩ →
      (g id).note id (.create t validity repetition)
        (.created (s.create t validity repetition).1) = g id := fun id hid => if_neg hid.symm
  refine ⟨?_, ?_, fun e he => ?_, fun id hid => ?_, fun id hid => ?_⟩
  · change (s.allocator.next + 1).toNat = n + 1
    rw [UInt16.toNat_add, hnext]
    exact Nat.mod_eq_of_lt hfew
  · change ((s.events ++ [_]).map fun e : ActiveEvent => e.id).Nodup
    rw [List.map_append]
    refine List.Nodup.append h.distinct (List.nodup_singleton _) ?_
    intro id hid hmem
    obtain ⟨e, he, rfl⟩ := List.mem_map.1 hid
    exact hdead e he (List.mem_singleton.1 hmem)
  · rcases List.mem_append.1 he with he | he
    · rw [hother _ (hdead e he)]
      exact (h.alive e he).later ht
    · obtain rfl := List.mem_singleton.1 he
      have hnote : (g ⟨s.allocator.stationId, s.allocator.next⟩).note
          ⟨s.allocator.stationId, s.allocator.next⟩ (.create t validity repetition)
          (.created (s.create t validity repetition).1) =
          { created := some (t, validity, repetition), asked := true } := by
        rw [hnew]
        exact if_pos rfl
      refine hnote ▸ ⟨⟨repetition, rfl, rfl⟩, rfl, by simp, ?_, fun _ => ⟨⟨t, rfl, Nat.le_refl _⟩,
        fun hne => absurd rfl hne⟩, nofun⟩
      rintro ⟨x, hx, -⟩
      cases hx
  · have hne : id ≠ ⟨s.allocator.stationId, s.allocator.next⟩ := by
      rintro rfl
      have hactive : (s.create t validity repetition).2.isActive
          ⟨s.allocator.stationId, s.allocator.next⟩ = true :=
        DenmService.isActive_iff.2 ⟨_, List.mem_append_right _ List.mem_cons_self, rfl⟩
      rw [hid] at hactive
      cases hactive
    rw [hother id hne]
    refine (h.gone id ?_).later ht
    by_contra hactive
    obtain ⟨e, he, heid⟩ := DenmService.isActive_iff.1 (Bool.eq_true_of_not_eq_false hactive)
    have : (s.create t validity repetition).2.isActive id = true :=
      DenmService.isActive_iff.2 ⟨e, List.mem_append_left _ he, heid⟩
    rw [hid] at this
    cases this
  · rw [hother id]
    · exact h.fresh id (Nat.le_of_succ_le hid)
    · rintro rfl
      exact absurd hid (by rw [hnext]; exact Nat.not_succ_le_self n)

/-- A request changes the event it names, and what the observer keeps of it. -/
lemma amend (h : Stands s g n now) {t : SimTime} (ht : now ≤ t) (id : EventId)
    {f : ActiveEvent → ActiveEvent} {k : Told → Told}
    (hid : ∀ e, (f e).id = e.id)
    (hf : ∀ e, Known e (g e.id) now → Known (f e) (k (g e.id)) t)
    {g' : EventId → Told}
    (hg : ∀ i, g' i = if (s.amend id f).1 = true ∧ id = i then k (g i) else g i) :
    Stands (s.amend id f).2 g' n t := by
  rw [DenmService.amend_eq h.distinct] at hg ⊢
  cases hactive : s.isActive id with
  | false =>
    rw [hactive] at hg
    have hsame : g' = g := funext fun i => (hg i).trans (if_neg (by simp))
    rw [hsame, if_neg Bool.false_ne_true]
    exact ⟨h.next, h.distinct, fun e he => (h.alive e he).later ht,
      fun i hi => (h.gone i hi).later ht, h.fresh⟩
  | true =>
    rw [hactive] at hg
    have hmap : (s.events.map fun e => if e.id = id then f e else e).map (·.id) =
        s.events.map (·.id) := by
      rw [List.map_map]
      refine List.map_congr_left fun e _ => ?_
      dsimp only [Function.comp_apply]
      split_ifs
      · exact hid e
      · rfl
    have hsame : ∀ i, i ≠ id → g' i = g i := fun i hi => (hg i).trans (if_neg fun hb => hi hb.2.symm)
    rw [if_pos rfl]
    refine ⟨h.next, hmap ▸ h.distinct, fun e he => ?_, fun i hi => ?_, fun i hi => ?_⟩
    · obtain ⟨e₀, he₀, rfl⟩ := List.mem_map.1 he
      split_ifs with heid
      · rw [hid, hg, if_pos ⟨rfl, heid.symm⟩]
        exact hf e₀ (h.alive e₀ he₀)
      · rw [hsame _ heid]
        exact (h.alive e₀ he₀).later ht
    · have hgone : s.isActive i = false := by
        by_contra hyes
        obtain ⟨e, he, heid⟩ := DenmService.isActive_iff.1 (Bool.eq_true_of_not_eq_false hyes)
        have hin : i ∈ (s.events.map fun e => if e.id = id then f e else e).map (·.id) := by
          rw [hmap]
          exact List.mem_map.2 ⟨e, he, heid⟩
        obtain ⟨e', he', heid'⟩ := List.mem_map.1 hin
        have hyes' := (DenmService.isActive_iff (s := ⟨s.allocator, s.events.map
          fun e => if e.id = id then f e else e⟩)).2 ⟨e', he', heid'⟩
        rw [hi] at hyes'
        cases hyes'
      have hne : i ≠ id := by
        rintro rfl
        rw [hactive] at hgone
        cases hgone
      rw [hsame i hne]
      exact (h.gone i hgone).later ht
    · have hne : i ≠ id := by
        rintro rfl
        obtain ⟨e, he, heid⟩ := DenmService.isActive_iff.1 hactive
        obtain ⟨r, hr, -⟩ := (h.alive e he).created
        rw [heid, h.fresh i hi] at hr
        cases hr
      rw [hsame i hne]
      exact h.fresh i hi

/-- A poll. -/
lemma poll (h : Stands s g n now) {t : SimTime} (ht : now ≤ t) :
    Stands (s.poll t).2 (fun id => (g id).polled t ((s.poll t).1.filter (·.event = id))) n t := by
  refine ⟨h.next, DenmService.distinct_poll h.distinct t, fun e' he' => ?_, fun id hid => ?_,
    fun id hid => ?_⟩
  · obtain ⟨e, he, hpoll⟩ := List.mem_filterMap.1 he'
    have he := DenmService.mem_sorted.1 he
    have hknown := h.alive e he
    have heid := (ActiveEvent.id_of_poll hpoll).1
    rw [heid, DenmService.filter_of_alive h.distinct he]
    rcases hknown.poll_cases ht with ⟨kind, -, hend⟩ | ⟨-, -, hexpired⟩ |
      ⟨-, -, -, e'', he'', -, hnext⟩
    · rw [hend] at hpoll
      cases hpoll
    · rw [hexpired] at hpoll
      cases hpoll
    · obtain rfl := Option.some.inj (hpoll.symm.trans he'')
      exact hnext
  · cases hactive : s.isActive id with
    | false =>
      rw [DenmService.filter_of_gone hactive]
      exact ((h.gone id hactive).later ht).polled
    | true =>
      obtain ⟨e, he, rfl⟩ := DenmService.isActive_iff.1 hactive
      rw [DenmService.filter_of_alive h.distinct he]
      have hknown := h.alive e he
      rcases hknown.poll_cases ht with ⟨kind, -, hend⟩ | ⟨hending, hle, hexpired⟩ |
        ⟨-, -, -, e', he', heid, -⟩
      · rw [hend]
        exact ⟨rfl, .inr (.inl ⟨_, List.mem_append_right _ List.mem_cons_self, _, _, rfl⟩)⟩
      · rw [hexpired]
        obtain ⟨r, hr, -⟩ := hknown.created
        exact ⟨rfl, .inr (.inr ⟨hending, _, _, r, hr, hle⟩)⟩
      · have hkept : (s.poll t).2.isActive e.id = true := by
          refine DenmService.isActive_iff.2 ⟨e', List.mem_filterMap.2 ⟨e, ?_, he'⟩, heid⟩
          exact DenmService.mem_sorted.2 he
        rw [hid] at hkept
        cases hkept
  · have hgone : s.isActive id = false := by
      by_contra hyes
      obtain ⟨e, he, rfl⟩ := DenmService.isActive_iff.1 (Bool.eq_true_of_not_eq_false hyes)
      obtain ⟨r, hr, -⟩ := (h.alive e he).created
      rw [h.fresh _ hid] at hr
      cases hr
    rw [DenmService.filter_of_gone hgone, h.fresh id hid]
    rfl

/-- **Every call** leaves the events as the observer knows them. -/
theorem call (h : Stands s g n now) (c : DenmCall) (ht : now ≤ c.time)
    (hfew : c.creates = true → n + 1 < 65536) :
    Stands (s.call c).2 (fun id => (g id).note id c (s.call c).1)
      (n + if c.creates then 1 else 0) c.time := by
  cases c with
  | create t validity repetition => exact h.create ht (hfew rfl) validity repetition
  | update id t =>
    exact h.amend ht id (f := fun e => { e with pendingUpdate := true, nextTx := some t })
      (k := fun g => { g with asked := true }) (fun _ => rfl) (fun _ he => he.updated t)
      fun i => Told.note_update (g i) id i t _
  | cancel id t =>
    exact h.amend ht id
      (f := fun e => { e with pendingTermination := some .cancellation, nextTx := some t })
      (k := fun g => { g with ending := some .cancellation, asked := true }) (fun _ => rfl)
      (fun _ he => he.terminated t _) fun i => Told.note_cancel (g i) id i t _
  | negate id t =>
    exact h.amend ht id
      (f := fun e => { e with pendingTermination := some .negation, nextTx := some t })
      (k := fun g => { g with ending := some .negation, asked := true }) (fun _ => rfl)
      (fun _ he => he.terminated t _) fun i => Told.note_negate (g i) id i t _
  | poll t => exact h.poll ht

end Stands

/-! ## What a poll reports -/

/-- An event whose repetition is due when the repetition duration is over: nothing else is asked
for, and the event has not expired. -/
def ActiveEvent.Overdue (e : ActiveEvent) (t : SimTime) : Prop :=
  e.pendingTermination = none ∧ t < e.validity.after e.detectionTime ∧
    e.nextTx.any (· ≤ t) = true ∧ e.sentOriginal = true ∧ e.pendingUpdate = false ∧
    ∃ r, e.repetition = some r ∧ r.duration.after e.detectionTime ≤ t

lemma ActiveEvent.poll_eq_repetition_iff {e : ActiveEvent} {t : SimTime} {id : EventId} :
    (e.poll t).1 = some (.repetition id) ↔ id = e.id ∧ e.pendingTermination = none ∧
      t < e.validity.after e.detectionTime ∧ e.nextTx.any (· ≤ t) = true ∧
      e.sentOriginal = true ∧ e.pendingUpdate = false := by
  unfold poll transmit
  cases hending : e.pendingTermination <;> cases hdue : e.nextTx.any (· ≤ t) <;>
    by_cases hexpired : e.validity.after e.detectionTime ≤ t <;>
    cases hsent : e.sentOriginal <;> cases hupdate : e.pendingUpdate <;>
    simp [hexpired, Nat.not_lt.2, Nat.lt_of_not_le, eq_comm]

/-- **What a poll reports about an event**, by what an observer keeps of it. -/
structure Reports (g : Told) (id : EventId) (t : SimTime) (due : List DenmAction) : Prop where
  /-- Nothing is reported of what was not created, or after a termination. -/
  alive : ∀ a ∈ due, a.event = id → (∃ d v r, g.created = some (d, v, r)) ∧ ¬ g.Ended
  /-- The original is the first report, at the first poll before the expiry. -/
  original : .original id ∈ due ↔ g.reports = [] ∧ g.ending = none ∧
    ∃ d v r, g.created = some (d, v, r) ∧ t < Duration.after v d
  later : .repetition id ∈ due ∨ .update id ∈ due → g.reports ≠ []
  /-- Whatever does not terminate comes before the expiry, and not after a termination was asked
  for. -/
  valid : ∀ a ∈ due, a.event = id → (∀ kind, a ≠ .termination id kind) →
    g.ending = none ∧ ∃ d v r, g.created = some (d, v, r) ∧ t < Duration.after v d
  /-- A repetition comes an interval after the last report. -/
  spaced : .repetition id ∈ due → ∃ d v r last, g.created = some (d, v, some r) ∧
    g.reports.getLast? = some last ∧ last.1 + r.interval.ns ≤ t
  /-- What was asked for is answered, before the expiry. -/
  asked : g.asked = true → (∃ d v r, g.created = some (d, v, r) ∧ t < Duration.after v d) →
    ∃ a ∈ due, a.event = id
  /-- A termination that was asked for is reported once, of the last kind, also past the expiry. -/
  termination : ∀ kind, .termination id kind ∈ due ↔ g.ending = some kind ∧ ¬ g.Ended

lemma DenmService.mem_poll_iff {s : DenmService} {t : SimTime} {a : DenmAction} :
    a ∈ (s.poll t).1 ↔ ∃ e ∈ s.events, (e.poll t).1 = some a := by
  unfold DenmService.poll
  simp only [List.mem_filterMap, mem_sorted]

namespace Stands

variable {s : DenmService} {g : EventId → Told} {n : ℕ} {now t : SimTime}

lemma pairwise_poll (h : Stands s g n now) (t : SimTime) :
    (s.poll t).1.Pairwise fun a b => a.event < b.event := by
  have hperm : s.sorted.Perm s.events := List.perm_insertionSort _ _
  have hdistinct : (s.sorted.map (·.id)).Nodup := (hperm.map _).nodup_iff.2 h.distinct
  have hsorted : s.sorted.Pairwise fun a b => a.id ≤ b.id := List.pairwise_insertionSort _ _
  have hstrict : s.sorted.Pairwise fun a b => a.id < b.id :=
    (hsorted.and (List.pairwise_map.1 hdistinct)).imp fun hab => lt_of_le_of_ne hab.1 hab.2
  refine List.Pairwise.filterMap _ (fun e f hlt a ha b hb => ?_) hstrict
  rw [ActiveEvent.event_of_poll ha, ActiveEvent.event_of_poll hb]
  exact hlt

/-- **What a poll reports about an event.** -/
theorem reports (h : Stands s g n now) (ht : now ≤ t) (id : EventId) :
    Reports (g id) id t (s.poll t).1 := by
  cases hactive : s.isActive id with
  | false =>
    have hnone : ∀ a ∈ (s.poll t).1, a.event ≠ id := by
      rintro a ha rfl
      rw [DenmService.mem_poll ha] at hactive
      cases hactive
    have hgone := (h.gone id hactive).later ht
    -- What expired has no time left.
    have hexpired : (g id).reports = [] → (g id).ending = none →
        ¬ ∃ d v r, (g id).created = some (d, v, r) ∧ t < Duration.after v d := by
      rintro hnil - ⟨d, v, r, hcreated, hlt⟩
      obtain ⟨-, hnever | ⟨x, hx, -⟩ | ⟨-, d', v', r', hcreated', hle⟩⟩ := hgone
      · rw [hnever] at hcreated
        cases hcreated
      · rw [hnil] at hx
        cases hx
      · obtain ⟨rfl, rfl, rfl⟩ := Option.some.inj (hcreated.symm.trans hcreated')
        exact absurd hlt (Nat.not_lt.2 hle)
    refine ⟨fun a ha heq => absurd heq (hnone a ha),
      iff_of_false (fun ha => hnone _ ha rfl) fun hx => hexpired hx.1 hx.2.1 hx.2.2,
      fun ha => (ha.elim (fun ha => hnone _ ha rfl) fun ha => hnone _ ha rfl).elim,
      fun a ha heq => absurd heq (hnone a ha), fun ha => absurd rfl (hnone _ ha), fun hasked => ?_,
      fun kind => iff_of_false (fun ha => hnone _ ha rfl) fun hx => ?_⟩
    · rw [hgone.1] at hasked
      cases hasked
    · obtain ⟨-, hnever | hended | ⟨hending, -⟩⟩ := hgone
      · rw [hnever] at hx
        cases hx.1
      · exact hx.2 hended
      · rw [hending] at hx
        cases hx.1
  | true =>
    obtain ⟨e, he, rfl⟩ := DenmService.isActive_iff.1 hactive
    have hknown := h.alive e he
    have hmem : ∀ a : DenmAction, a.event = e.id → (a ∈ (s.poll t).1 ↔ (e.poll t).1 = some a) := by
      intro a ha
      have hfilter := DenmService.filter_of_alive h.distinct he t
      rw [← Option.mem_toList, ← hfilter, List.mem_filter]
      simp [ha]
    obtain ⟨r₀, hcreated, hrepetition⟩ := hknown.created
    have hvalid : (∃ d v r, (g e.id).created = some (d, v, r) ∧ t < Duration.after v d) ↔
        t < e.validity.after e.detectionTime := by
      constructor
      · rintro ⟨d, v, r, hsome, hlt⟩
        obtain ⟨rfl, rfl, rfl⟩ := Option.some.inj (hsome.symm.trans hcreated)
        exact hlt
      · exact fun hlt => ⟨_, _, _, hcreated, hlt⟩
    rcases hknown.poll_cases ht with ⟨kind, hending, hpoll⟩ | ⟨hending, hle, hpoll⟩ |
      ⟨hending, hlt, hgoing, -⟩
    · -- The termination.
      simp only [hpoll] at hmem
      have hno : ∀ a : DenmAction, a.event = e.id → a ∈ (s.poll t).1 →
          a = .termination e.id kind := fun a ha hin =>
        (Option.some.inj ((hmem a ha).1 hin)).symm
      refine ⟨fun a ha heq => ⟨⟨_, _, _, hcreated⟩, hknown.going⟩, iff_of_false (fun ha => ?_) ?_,
        fun ha => ?_, fun a ha heq hne => absurd (hno a heq ha) (hne kind), fun ha => ?_,
        fun _ _ => ⟨_, (hmem _ rfl).2 rfl, rfl⟩, fun kind' => ?_⟩
      · cases hno _ rfl ha
      · rw [hending]
        exact fun hx => nomatch hx.2.1
      · rcases ha with ha | ha
        · cases hno _ rfl ha
        · cases hno _ rfl ha
      · cases hno _ rfl ha
      · rw [hmem _ rfl, hending]
        constructor
        · intro heq
          cases heq
          exact ⟨rfl, hknown.going⟩
        · rintro ⟨heq, -⟩
          cases heq
          rfl
    · -- Expired.
      have hno : ∀ a : DenmAction, a.event = e.id → a ∉ (s.poll t).1 := by
        intro a ha hin
        rw [hmem a ha, hpoll] at hin
        cases hin
      have hlate := hvalid.not.2 (Nat.not_lt.2 hle)
      refine ⟨fun a ha heq => absurd ha (hno a heq),
        iff_of_false (fun ha => hno _ rfl ha) fun hx => hlate hx.2.2,
        fun ha => (ha.elim (fun ha => hno _ rfl ha) fun ha => hno _ rfl ha).elim,
        fun a ha heq => absurd ha (hno a heq), fun ha => absurd ha (hno _ rfl),
        fun _ hx => absurd hx hlate, fun kind => iff_of_false (fun ha => hno _ rfl ha) fun hx => ?_⟩
      rw [hending] at hx
      cases hx.1
    · -- The event goes on.
      refine ⟨fun a ha heq => ⟨⟨_, _, _, hcreated⟩, hknown.going⟩, ?_, fun ha hnil => ?_,
        fun a ha heq hne => ⟨hending, hvalid.2 hlt⟩, fun ha => ?_, fun hasked _ => ?_,
        fun kind => iff_of_false (fun ha => ?_) fun hx => ?_⟩
      · rw [hmem _ rfl, hvalid]
        constructor
        · intro hdue
          refine ⟨?_, hending, hlt⟩
          by_contra hne
          exact hgoing.later hne hdue
        · exact fun hx => hgoing.first hx.1
      · have hfirst := hgoing.first hnil
        rcases ha with ha | ha
        · rw [hmem _ rfl, hfirst] at ha
          cases ha
        · rw [hmem _ rfl, hfirst] at ha
          cases ha
      · obtain ⟨r, last, hr, hlast, hle⟩ := hgoing.spaced _ ((hmem _ rfl).1 ha)
        rw [hr] at hrepetition
        obtain ⟨hr₀, -⟩ := Option.filter_eq_some_iff.1 hrepetition.symm
        rw [hr₀] at hcreated
        exact ⟨_, _, r, last, hcreated, hlast, hle⟩
      · obtain ⟨a, ha⟩ := Option.isSome_iff_exists.1 (hgoing.asked hasked)
        have hevent := ActiveEvent.event_of_poll ha
        exact ⟨a, (hmem a hevent).2 ha, hevent⟩
      · exact hgoing.going _ _ ((hmem _ rfl).1 ha)
      · rw [hending] at hx
        cases hx.1

/-- A poll that reports something is not before the next deadline. -/
lemma nextDeadline_le (hsome : (s.poll t).1 ≠ []) :
    ∃ d, s.nextDeadline = some d ∧ d ≤ t := by
  obtain ⟨a, ha⟩ := List.exists_mem_of_ne_nil _ hsome
  obtain ⟨e, he, hpoll⟩ := DenmService.mem_poll_iff.1 ha
  have hdue : e.nextTx.any (· ≤ t) = true := by
    by_contra hno
    have hno := Bool.eq_false_of_not_eq_true hno
    unfold ActiveEvent.poll at hpoll
    rw [hno] at hpoll
    cases hending : e.pendingTermination with
    | none =>
      simp only [hending, Bool.false_eq_true, if_false] at hpoll
      split_ifs at hpoll
    | some kind =>
      simp only [hending, Bool.false_eq_true, if_false] at hpoll
      split_ifs at hpoll
  obtain ⟨u, hu, hle⟩ := (Option.any_eq_true _ _).1 hdue
  have hin : u ∈ s.events.filterMap (·.nextTx) := List.mem_filterMap.2 ⟨e, he, hu⟩
  unfold DenmService.nextDeadline
  cases hmin : (s.events.filterMap (·.nextTx)).min? with
  | none =>
    rw [List.min?_eq_none_iff.1 hmin] at hin
    cases hin
  | some d => exact ⟨d, rfl, ((List.min?_eq_some_iff.1 hmin).2 u hin).trans (of_decide_eq_true hle)⟩

/-- **Repetitions end with their duration** exactly where no event is overdue. -/
lemma repetition_iff (h : Stands s g n now) (ht : now ≤ t) :
    (∀ id d v r, .repetition id ∈ (s.poll t).1 → (g id).created = some (d, v, some r) →
      t < Duration.after r.duration d) ↔ ∀ e ∈ s.events, ¬ e.Overdue t := by
  constructor
  · rintro hends e he ⟨hending, hlt, hdue, hsent, hupdate, r, hr, hle⟩
    obtain ⟨r₀, hcreated, hrepetition⟩ := (h.alive e he).created
    rw [hr] at hrepetition
    obtain ⟨rfl, -⟩ := Option.filter_eq_some_iff.1 hrepetition.symm
    have hpoll := ActiveEvent.poll_eq_repetition_iff.2 ⟨rfl, hending, hlt, hdue, hsent, hupdate⟩
    exact absurd (hends _ _ _ r (DenmService.mem_poll_iff.2 ⟨e, he, hpoll⟩) hcreated)
      (Nat.not_lt.2 hle)
  · rintro hnone id d v r hmem hcreated
    obtain ⟨e, he, hpoll⟩ := DenmService.mem_poll_iff.1 hmem
    obtain ⟨rfl, hending, hlt, hdue, hsent, hupdate⟩ := ActiveEvent.poll_eq_repetition_iff.1 hpoll
    have hknown := h.alive e he
    obtain ⟨r₀, hcreated₀, hrepetition⟩ := hknown.created
    obtain ⟨rfl, hrest⟩ := Prod.mk.inj (Option.some.inj (hcreated.symm.trans hcreated₀))
    obtain ⟨-, rfl⟩ := Prod.mk.inj hrest
    -- The instruction is one, since a repetition was scheduled.
    obtain ⟨r', -, hr', -⟩ : ∃ r last, e.repetition = some r ∧
        (g e.id).reports.getLast? = some last ∧ last.1 + r.interval.ns ≤ t := by
      rcases hknown.poll_cases ht with ⟨kind, -, hend⟩ | ⟨-, -, hexpired⟩ | ⟨-, -, hgoing, -⟩
      · rw [hend] at hpoll
        cases hpoll
      · rw [hexpired] at hpoll
        cases hpoll
      · exact hgoing.spaced _ hpoll
    have hsame : r' = r := by
      rw [hr'] at hrepetition
      obtain ⟨hsome, -⟩ := Option.filter_eq_some_iff.1 hrepetition.symm
      exact (Option.some.inj hsome).symm
    by_contra hlate
    exact hnone e he ⟨hending, hlt, hdue, hsent, hupdate, r, hsame ▸ hr', Nat.not_lt.1 hlate⟩

end Stands

/-! ## Histories -/

/-- After every history in the order of time, the events stand as the observer knows them. -/
lemma stands_after (stationId : UInt32) (calls : List DenmCall)
    (hsorted : (calls.map DenmCall.time).Pairwise (· ≤ ·))
    (hfew : calls.countP DenmCall.creates < 65536) :
    ∃ now, Stands (.after stationId calls) (told stationId calls)
      (calls.countP DenmCall.creates) now ∧ ∀ t, (∀ c ∈ calls, c.time ≤ t) → now ≤ t := by
  induction calls using List.reverseRecOn with
  | nil => exact ⟨0, Stands.new stationId, fun t _ => Nat.zero_le t⟩
  | append_singleton calls c ih =>
    rw [List.map_append, List.pairwise_append] at hsorted
    rw [List.countP_append, List.countP_singleton] at hfew
    obtain ⟨now, hstands, hlast⟩ := ih hsorted.1 (Nat.lt_of_le_of_lt (Nat.le_add_right _ _) hfew)
    have hle : now ≤ c.time := hlast c.time fun c' hc' =>
      hsorted.2.2 _ (List.mem_map_of_mem hc') _ List.mem_cons_self
    refine ⟨c.time, ?_, fun t ht => ht c (by simp)⟩
    have htold : told stationId (calls ++ [c]) = fun id => (told stationId calls id).note id c
        ((DenmService.after stationId calls).call c).1 :=
      funext fun id => Mealy.log_append _ _ calls [c] _ _
    rw [htold, DenmService.after, Mealy.run_concat, List.countP_append, List.countP_singleton]
    exact hstands.call c hle fun hcreates => by rwa [if_pos hcreates] at hfew

/-- **The lifecycle of DENM events.** After any history of calls in the order of time with fewer
than 65536 creations, a poll reports at most one action about each event, in the order of the
identifiers; what it reports about an event follows from what was asked for and reported before; no
poll that reports anything is before the next deadline; and no repetition comes after the repetition
duration if and only if no event is overdue at the poll. -/
theorem denm_lifecycle (stationId : UInt32) (calls : List DenmCall) (t : SimTime)
    (hsorted : ((calls ++ [DenmCall.poll t]).map DenmCall.time).Pairwise (· ≤ ·))
    (hfew : calls.countP DenmCall.creates < 65536) :
    ((DenmService.after stationId calls).poll t).1.Pairwise (fun a b => a.event < b.event) ∧
    (∀ id, Reports (told stationId calls id) id t
      ((DenmService.after stationId calls).poll t).1) ∧
    (∀ t', ((DenmService.after stationId calls).poll t').1 ≠ [] →
      ∃ d, (DenmService.after stationId calls).nextDeadline = some d ∧ d ≤ t') ∧
    ((∀ id d v r, .repetition id ∈ ((DenmService.after stationId calls).poll t).1 →
        (told stationId calls id).created = some (d, v, some r) →
        t < Duration.after r.duration d) ↔
      ∀ e ∈ (DenmService.after stationId calls).events, ¬ e.Overdue t) := by
  rw [List.map_append, List.pairwise_append] at hsorted
  obtain ⟨now, hstands, hlast⟩ := stands_after stationId calls hsorted.1 hfew
  have hle : now ≤ t := hlast t fun c hc =>
    hsorted.2.2 _ (List.mem_map_of_mem hc) _ List.mem_cons_self
  exact ⟨hstands.pairwise_poll t, hstands.reports hle, fun _ => Stands.nextDeadline_le,
    hstands.repetition_iff hle⟩

/-- An event that is repeated every second for five seconds, valid for a minute. -/
def repeated : DenmCall := .create 0 ⟨60000000000⟩ (some ⟨⟨1000000000⟩, ⟨5000000000⟩⟩)

/-- The lifecycle of an event that is updated and then negated. -/
theorem denm_lifecycle_negated :
    let calls := [repeated, .poll 0, .update ⟨1, 0⟩ 300000000, .poll 300000000,
      .negate ⟨1, 0⟩ 70000000000]
    (∀ id, Reports (told 1 calls id) id 70000000000
      ((DenmService.after 1 calls).poll 70000000000).1) ∧
    (told 1 calls ⟨1, 0⟩).ending = some .negation :=
  ⟨(denm_lifecycle 1 _ 70000000000 (by decide) (by decide)).2.1, by decide +kernel⟩

/-- **A repetition after its duration**: polled late, an event whose repetition ended after five
seconds is repeated after ten. -/
theorem repetition_after_duration :
    ((DenmService.after 1 [repeated, .poll 0]).poll 10000000000).1 = [.repetition ⟨1, 0⟩] ∧
      (told 1 [repeated, .poll 0] ⟨1, 0⟩).created =
        some (0, ⟨60000000000⟩, some ⟨⟨1000000000⟩, ⟨5000000000⟩⟩) ∧
      Duration.after ⟨5000000000⟩ 0 < 10000000000 := by
  decide +kernel

end V2xw.Msg
