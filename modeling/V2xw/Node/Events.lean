import V2xw.Msg.Denm
import V2xw.Node.Runtime

/-!
# The event services

`EventServices` of `crates/v2xw-node/src/events.rs`: the messages a unit sends because something
happened. The position belief is a parameter, with the floating-point arithmetic on positions; the
encoders of the messages are left out but for what they look up.

## Main definitions

* `EventServices` — the state of the services, with `due`.
* `EventServices.raised` — the hazard event a call of `due` raises.
* `EventServices.Identified` — every hazard event of a run has its own identity.

## Main results

* `EventServices.data_of_due` — what `due` returns can be built.
* `hazards_identified` — which runs give every hazard event its own identity.

## Design

The two ways in which an identity goes wrong both come from `renew`, which replaces the service by a
new one when the pseudonym has changed and nothing is alive, and keeps it otherwise. An event raised
while the old service is kept is raised under the old station, and a service made for a station that
was left earlier counts from 0 again. The invariant behind the counting is that the events raised
under the station of the present service are those numbered below its counter.
-/

namespace V2xw.Node

open Core Msg
open Record (F64)

/-! ## Parameters -/

/-- The belief and the arithmetic the services are built over. -/
structure EventModels where
  Belief : Type
  /-- `FixQuality::has_position` of the estimate's fix. -/
  hasPosition : Belief → Bool
  /-- A reference point, rounded to metres. -/
  mapKey : Vec3 → ℤ ×ₗ ℤ
  /-- The nearest of these junctions ahead of the belief, within `SRM_RANGE_M`. -/
  nearestAhead : List Vec3 → Belief → Option Vec3

/-- Which message services a node runs. -/
structure ServiceSet where
  cam : Bool := false
  bsm : Bool := false
  denm : Bool := false
  spat : Bool := false
  map : Bool := false
  srm : Bool := false
  ssm : Bool := false
  deriving DecidableEq, Repr

/-- How often a vehicle repeats its signal request. -/
def srmInterval : Duration := .fromMillis 1000

/-- The closest together two signal statuses may be. -/
def ssmMinInterval : Duration := .fromMillis 100

/-- How long a heard MAP stays usable. -/
def mapMemory : Duration := .fromMillis 5000

/-- The repetition interval of a hard-braking event. -/
def denmRepetition : Duration := .fromMillis 100

/-- The repetition duration of a hard-braking event, and its validity. -/
def denmValidity : Duration := .fromMillis 2000

/-- One event message due: what to build. -/
inductive EventRequest
  | denm (action : DenmAction)
  /-- A signal request toward the junction with this reference point. -/
  | srm (target : Vec3)
  /-- A signal status answering this many requests. -/
  | ssm (requests : ℕ)
  deriving DecidableEq, Repr

/-- The message type a request becomes. -/
def EventRequest.msgType : EventRequest → MsgType
  | .denm _ => .denm
  | .srm _ => .srm
  | .ssm _ => .ssm

/-- The bits of `-EEBL_DECEL_THRESHOLD_MPS2`, which is -3.92. -/
def eeblThresholdBits : UInt64 := 0xC00F5C28F5C28F5C

/-- The bits of the negative infinity. Every pattern above them is not a number. -/
def negInfinityBits : UInt64 := 0xFFF0000000000000

/-- Whether an acceleration is at or below `-EEBL_DECEL_THRESHOLD_MPS2`: among the negative numbers,
the order of the bit patterns is that of the magnitudes. -/
def hardBraking (a : F64) : Bool := eeblThresholdBits ≤ a.bits ∧ a.bits ≤ negInfinityBits

/-! ## The services -/

/-- The state of the event and infrastructure services of a node. -/
structure EventServices (M : EventModels) where
  spat : Option (List UInt8) := none
  map : Option (List UInt8) := none
  /-- The vehicle's own longitudinal acceleration. -/
  ownAccel : Option F64 := none
  /-- Whether the vehicle was already braking hard at the last step. -/
  braking : Bool := false
  denm : Option DenmService := none
  /-- The detection instant and position of each live event. -/
  denmEvents : OrdMap EventId (SimTime × M.Belief) := ∅
  /-- The junctions whose MAP was heard, and when. -/
  mapsHeard : OrdMap (ℤ ×ₗ ℤ) (Vec3 × SimTime) := ∅
  lastSrm : Option SimTime := none
  /-- Signal requests received and not yet answered. -/
  requestsPending : ℕ := 0
  lastSsm : Option SimTime := none
  denmRaised : ℕ := 0

/-- What a call of `due` is given. -/
structure DueCall (M : EventModels) where
  now : SimTime
  belief : M.Belief
  services : ServiceSet
  /-- The identifier the node is transmitting under now. -/
  stationId : Option UInt32

variable {M : EventModels}

namespace EventServices

/-- Installs the payload the controller feed produced. -/
def setInfraPayload (s : EventServices M) (ty : MsgType) (bytes : List UInt8) : EventServices M :=
  match ty with
  | .spat => { s with spat := some bytes }
  | .map => { s with map := some bytes }
  | _ => s

/-- The installed payload for `ty`. -/
def infraPayload (s : EventServices M) : MsgType → Option (List UInt8)
  | .spat => s.spat
  | .map => s.map
  | _ => none

/-- Tells the services the vehicle's own acceleration. -/
def setOwnAcceleration (s : EventServices M) (a : F64) : EventServices M :=
  { s with ownAccel := some a }

/-- Learns from a message the applications received. -/
def onDelivered (s : EventServices M) (m : VerifiedMessage) : EventServices M :=
  match m.verification, m.msgType with
  | .invalid, _ | .revoked, _ => s
  | _, .map =>
    match m.claimedPos with
    | some p => { s with mapsHeard := s.mapsHeard.insert (M.mapKey p) (p, m.receivedAt) }
    | none => s
  | _, .srm => { s with requestsPending := satAdd32 s.requestsPending 1 }
  | _, _ => s

/-! ### Hazard events -/

/-- The service a call works with: a new one for the station, when there is none or the one in place
is for another station and has nothing alive. -/
def renew (s : EventServices M) (stationId : Option UInt32) : EventServices M :=
  match stationId with
  | some sid =>
    if s.denm.all fun d => d.stationId ≠ sid ∧ d.activeLen = 0 then
      { s with denm := some (.new sid) }
    else s
  | none => s

/-- Announces a hazard event. -/
def announce (s : EventServices M) (now : SimTime) (belief : M.Belief) : EventServices M :=
  match s.denm with
  | none => s
  | some service =>
    let (id, service) := service.create now denmValidity (some ⟨denmRepetition, denmValidity⟩)
    { s with
      denm := some service
      denmEvents := s.denmEvents.insert id (now, belief)
      denmRaised := s.denmRaised + 1 }

/-- The vehicle has begun to brake hard since the last step, and knows where it is. -/
def risingEdge (s : EventServices M) (belief : M.Belief) : Bool :=
  s.ownAccel.any hardBraking && !s.braking && M.hasPosition belief

/-- Raises an event on the rising edge of hard braking. -/
def raiseOnHardBraking (s : EventServices M) (now : SimTime) (belief : M.Belief) :
    EventServices M :=
  match s.ownAccel with
  | none => s
  | some a =>
    let s' := if s.risingEdge belief then s.announce now belief else s
    { s' with braking := hardBraking a }

/-- The events due, with the detection data of the events that are gone forgotten. -/
def pollDenm (s : EventServices M) (now : SimTime) : List DenmAction × EventServices M :=
  match s.denm with
  | none => ([], s)
  | some service =>
    let (actions, service) := service.poll now
    (actions,
      { s with
        denm := some service
        denmEvents := s.denmEvents.filter fun id _ => service.isActive id })

/-- The hazard events of a call. -/
def dueDenm (s : EventServices M) (c : DueCall M) : List DenmAction × EventServices M :=
  ((s.renew c.stationId).raiseOnHardBraking c.now c.belief).pollDenm c.now

/-! ### Signal requests and statuses -/

/-- Whether `interval` has passed since `last`. -/
def spaced (interval : Duration) (now : SimTime) (last : Option SimTime) : Bool :=
  last.all fun t => now - t ≥ interval.ns

/-- The nearest junction ahead whose MAP was heard recently. -/
def priorityTarget (s : EventServices M) (now : SimTime) (belief : M.Belief) :
    Option Vec3 × EventServices M :=
  let heard := s.mapsHeard.filter fun _ x => now - x.2 ≤ mapMemory.ns
  (if M.hasPosition belief then M.nearestAhead (heard.toList.map (·.2.1)) belief else none,
    { s with mapsHeard := heard })

/-- The signal request of a call. -/
def dueSrm (s : EventServices M) (now : SimTime) (belief : M.Belief) :
    List EventRequest × EventServices M :=
  match s.priorityTarget now belief with
  | (none, s) => ([], s)
  | (some target, s) =>
    if spaced srmInterval now s.lastSrm then ([.srm target], { s with lastSrm := some now })
    else ([], s)

/-- The signal status of a call. -/
def dueSsm (s : EventServices M) (now : SimTime) : List EventRequest × EventServices M :=
  if s.requestsPending > 0 ∧ spaced ssmMinInterval now s.lastSsm then
    ([.ssm s.requestsPending], { s with lastSsm := some now, requestsPending := 0 })
  else ([], s)

/-- Every event message due. -/
def due (s : EventServices M) (c : DueCall M) : List EventRequest × EventServices M :=
  let (denms, s) := if c.services.denm then s.dueDenm c else ([], s)
  let (srms, s) := if c.services.srm then s.dueSrm c.now c.belief else ([], s)
  let (ssms, s) := if c.services.ssm then s.dueSsm c.now else ([], s)
  (denms.map .denm ++ srms ++ ssms, s)

/-- The detection data the encoder of a request needs. -/
def detection (s : EventServices M) : EventRequest → Option (SimTime × M.Belief)
  | .denm action => s.denmEvents[action.event]?
  | _ => none

end EventServices

/-! ## Runs -/

/-- What the runtime does to the services. -/
inductive EventOp (M : EventModels)
  | setInfraPayload (ty : MsgType) (bytes : List UInt8)
  | setOwnAcceleration (a : F64)
  | onDelivered (m : VerifiedMessage)
  | due (c : DueCall M)

namespace EventServices

/-- One operation on the services. -/
def perform (s : EventServices M) : EventOp M → EventServices M
  | .setInfraPayload ty bytes => s.setInfraPayload ty bytes
  | .setOwnAcceleration a => s.setOwnAcceleration a
  | .onDelivered m => s.onDelivered m
  | .due c => (s.due c).2

/-- The services after a run. -/
def after (s : EventServices M) (ops : List (EventOp M)) : EventServices M := ops.foldl perform s

/-- The event a call of `due` raises: the next identifier of the service it works with. -/
def raised (s : EventServices M) (c : DueCall M) : Option EventId :=
  if c.services.denm && s.risingEdge c.belief then
    (s.renew c.stationId).denm.map fun d => d.allocator.allocate.1
  else none

/-- The event an operation raises, with the station the node transmits under. -/
def raisedBy (s : EventServices M) : EventOp M → List (EventId × Option UInt32)
  | .due c => (s.raised c).toList.map fun id => (id, c.stationId)
  | _ => []

/-- The events raised in a run, in order, each with the station the call was given. -/
def raisedIn : EventServices M → List (EventOp M) → List (EventId × Option UInt32)
  | _, [] => []
  | s, op :: ops => s.raisedBy op ++ raisedIn (s.perform op) ops

/-! ## What a call does -/

@[simp] lemma denm_setInfraPayload (s : EventServices M) (ty : MsgType) (bytes : List UInt8) :
    (s.setInfraPayload ty bytes).denm = s.denm := by
  unfold setInfraPayload
  split <;> rfl

@[simp] lemma denmEvents_setInfraPayload (s : EventServices M) (ty : MsgType)
    (bytes : List UInt8) : (s.setInfraPayload ty bytes).denmEvents = s.denmEvents := by
  unfold setInfraPayload
  split <;> rfl

@[simp] lemma denm_onDelivered (s : EventServices M) (m : VerifiedMessage) :
    (s.onDelivered m).denm = s.denm := by
  unfold onDelivered
  split
  · rfl
  · rfl
  · split <;> rfl
  · rfl
  · rfl

@[simp] lemma denmEvents_onDelivered (s : EventServices M) (m : VerifiedMessage) :
    (s.onDelivered m).denmEvents = s.denmEvents := by
  unfold onDelivered
  split
  · rfl
  · rfl
  · split <;> rfl
  · rfl
  · rfl

/-- Signal requests do not touch the hazard events. -/
lemma dueSrm_frame (s : EventServices M) (now : SimTime) (belief : M.Belief) :
    (s.dueSrm now belief).2.denm = s.denm ∧
      (s.dueSrm now belief).2.denmEvents = s.denmEvents ∧
      ∀ a, .denm a ∉ (s.dueSrm now belief).1 := by
  have hframe : (s.priorityTarget now belief).2.denm = s.denm ∧
      (s.priorityTarget now belief).2.denmEvents = s.denmEvents := ⟨rfl, rfl⟩
  unfold dueSrm
  split
  next s' htarget =>
    rw [htarget] at hframe
    exact ⟨hframe.1, hframe.2, by simp⟩
  next target s' htarget =>
    rw [htarget] at hframe
    split_ifs
    · exact ⟨hframe.1, hframe.2, by simp⟩
    · exact ⟨hframe.1, hframe.2, by simp⟩

lemma dueSsm_frame (s : EventServices M) (now : SimTime) :
    (s.dueSsm now).2.denm = s.denm ∧ (s.dueSsm now).2.denmEvents = s.denmEvents ∧
      ∀ a, .denm a ∉ (s.dueSsm now).1 := by
  unfold dueSsm
  split_ifs
  · exact ⟨rfl, rfl, by simp⟩
  · exact ⟨rfl, rfl, by simp⟩

/-- The hazard events of a call are those of the DEN basic service, if the node runs it. -/
lemma due_denm (s : EventServices M) (c : DueCall M) :
    let x := if c.services.denm then s.dueDenm c else ([], s)
    (s.due c).2.denm = x.2.denm ∧ (s.due c).2.denmEvents = x.2.denmEvents ∧
      ∀ a, .denm a ∈ (s.due c).1 → a ∈ x.1 := by
  intro x
  have hsrm : ∀ t : EventServices M,
      let y := if c.services.srm then t.dueSrm c.now c.belief else ([], t)
      y.2.denm = t.denm ∧ y.2.denmEvents = t.denmEvents ∧ ∀ a, .denm a ∉ y.1 := by
    intro t
    cases c.services.srm with
    | true => exact t.dueSrm_frame c.now c.belief
    | false => exact ⟨rfl, rfl, by simp⟩
  have hssm : ∀ t : EventServices M,
      let y := if c.services.ssm then t.dueSsm c.now else ([], t)
      y.2.denm = t.denm ∧ y.2.denmEvents = t.denmEvents ∧ ∀ a, .denm a ∉ y.1 := by
    intro t
    cases c.services.ssm with
    | true => exact t.dueSsm_frame c.now
    | false => exact ⟨rfl, rfl, by simp⟩
  obtain ⟨hdenm, hevents, hout⟩ := hsrm x.2
  obtain ⟨hdenm', hevents', hout'⟩ :=
    hssm (if c.services.srm then x.2.dueSrm c.now c.belief else ([], x.2)).2
  refine ⟨hdenm'.trans hdenm, hevents'.trans hevents, fun a ha => ?_⟩
  change .denm a ∈ x.1.map EventRequest.denm ++ _ ++ _ at ha
  simp only [List.mem_append, List.mem_map, EventRequest.denm.injEq, exists_eq_right] at ha
  exact (ha.resolve_right (hout' a)).resolve_right (hout a)

/-! ## Detection data -/

/-- Nothing alive is terminated, and everything alive has its detection data. -/
structure Sound (s : EventServices M) : Prop where
  lasting : ∀ d, s.denm = some d → ∀ e ∈ d.events, e.pendingTermination = none
  stored : ∀ d, s.denm = some d → ∀ id, d.isActive id = true → s.denmEvents[id]?.isSome

lemma Sound.congr {s t : EventServices M} (h : s.Sound) (hdenm : t.denm = s.denm)
    (hevents : t.denmEvents = s.denmEvents) : t.Sound :=
  ⟨fun d hd => h.lasting d (hdenm ▸ hd), fun d hd => hevents ▸ h.stored d (hdenm ▸ hd)⟩

lemma Sound.renew {s : EventServices M} (h : s.Sound) (stationId : Option UInt32) :
    (s.renew stationId).Sound := by
  unfold EventServices.renew
  split
  next sid =>
    split_ifs
    · refine ⟨fun d hd => ?_, fun d hd id hid => ?_⟩
      · obtain rfl : DenmService.new sid = d := Option.some.inj hd
        simp [DenmService.new]
      · obtain rfl : DenmService.new sid = d := Option.some.inj hd
        simp [DenmService.isActive, DenmService.new] at hid
    · exact h
  next => exact h

lemma Sound.announce {s : EventServices M} (h : s.Sound) (now : SimTime) (belief : M.Belief) :
    (s.announce now belief).Sound := by
  unfold EventServices.announce
  split
  next hnone => exact h
  next service hsome =>
    have hlasting := h.lasting service hsome
    have hstored := h.stored service hsome
    refine ⟨fun d hd e he => ?_, fun d hd id hid => ?_⟩
    · obtain rfl := Option.some.inj hd
      rcases List.mem_append.1 he with he | he
      · exact hlasting e he
      · obtain rfl := List.mem_singleton.1 he
        rfl
    · obtain rfl := Option.some.inj hd
      change (s.denmEvents.insert _ _)[id]?.isSome
      rw [OrdMap.get_insert]
      split_ifs with heq
      · rfl
      · obtain ⟨e, he, hid⟩ := DenmService.isActive_iff.1 hid
        rcases List.mem_append.1 he with he | he
        · exact hstored id (DenmService.isActive_iff.2 ⟨e, he, hid⟩)
        · obtain rfl := List.mem_singleton.1 he
          exact absurd hid heq

lemma Sound.raiseOnHardBraking {s : EventServices M} (h : s.Sound) (now : SimTime)
    (belief : M.Belief) : (s.raiseOnHardBraking now belief).Sound := by
  unfold EventServices.raiseOnHardBraking
  split
  next => exact h
  next a _ =>
    split_ifs
    · exact (h.announce now belief).congr rfl rfl
    · exact h.congr rfl rfl

/-- A poll keeps what is alive and its data, and what it sends is among that. -/
lemma Sound.pollDenm {s : EventServices M} (h : s.Sound) (now : SimTime) :
    (s.pollDenm now).2.Sound ∧
      ∀ a ∈ (s.pollDenm now).1, ((s.pollDenm now).2.denmEvents[a.event]?).isSome := by
  unfold EventServices.pollDenm
  split
  next hnone => exact ⟨h, by simp⟩
  next service hsome =>
    have hlasting := h.lasting service hsome
    have hkept : ∀ id, (service.poll now).2.isActive id = true →
        ((s.denmEvents.filter fun id _ => (service.poll now).2.isActive id)[id]?).isSome := by
      intro id hid
      obtain ⟨e, he, rfl⟩ := DenmService.isActive_iff.1 hid
      obtain ⟨e', he', heq, -⟩ := DenmService.of_mem_events_poll he
      obtain ⟨v, hv⟩ := Option.isSome_iff_exists.1
        (h.stored service hsome e.id (DenmService.isActive_iff.2 ⟨e', he', heq.symm⟩))
      rw [OrdMap.get_filter, hv]
      simp [hid]
    refine ⟨⟨fun d hd e he => ?_, fun d hd id hid => ?_⟩, fun a ha => ?_⟩
    · obtain rfl := Option.some.inj hd
      obtain ⟨e', he', -, hend⟩ := DenmService.of_mem_events_poll he
      rw [hend, hlasting e' he']
    · obtain rfl := Option.some.inj hd
      exact hkept id hid
    · exact hkept _ (DenmService.isActive_poll hlasting ha)

/-- **What is due can be built**: a sound state stays sound, and every hazard event returned has its
detection data. -/
theorem data_of_due {s : EventServices M} (h : s.Sound) (c : DueCall M) :
    (s.due c).2.Sound ∧
      ∀ a, .denm a ∈ (s.due c).1 → ((s.due c).2.detection (.denm a)).isSome := by
  have hpart : let x := if c.services.denm then s.dueDenm c else ([], s)
      x.2.Sound ∧ ∀ a ∈ x.1, (x.2.denmEvents[a.event]?).isSome := by
    cases c.services.denm with
    | true => exact ((h.renew c.stationId).raiseOnHardBraking c.now c.belief).pollDenm c.now
    | false => exact ⟨h, by simp⟩
  obtain ⟨hdenm, hevents, hout⟩ := s.due_denm c
  refine ⟨hpart.1.congr hdenm hevents, fun a ha => ?_⟩
  change ((s.due c).2.denmEvents[a.event]?).isSome
  rw [hevents]
  exact hpart.2 a (hout a ha)

lemma sound_after (ops : List (EventOp M)) : ∀ {s : EventServices M}, s.Sound →
    (s.after ops).Sound := by
  induction ops with
  | nil => exact fun h => h
  | cons op ops ih =>
    intro s h
    refine ih (s := s.perform op) ?_
    cases op with
    | setInfraPayload ty bytes => exact h.congr (by simp [perform]) (by simp [perform])
    | setOwnAcceleration a => exact h.congr rfl rfl
    | onDelivered m => exact h.congr (by simp [perform]) (by simp [perform])
    | due c => exact (data_of_due h c).1

lemma sound_new : Sound ({} : EventServices M) := ⟨by simp, by simp⟩

/-! ## Identifiers -/

/-- The counter the next identifier comes from. -/
def allocator (s : EventServices M) : Option ActionIdAllocator := s.denm.map (·.allocator)

lemma allocator_pollDenm (s : EventServices M) (now : SimTime) :
    (s.pollDenm now).2.allocator = s.allocator := by
  unfold pollDenm
  split
  next => rfl
  next service hsome => simp [allocator, hsome, DenmService.poll]

lemma allocator_announce (s : EventServices M) (now : SimTime) (belief : M.Belief) :
    (s.announce now belief).allocator = s.allocator.map fun a => a.allocate.2 := by
  unfold announce
  split
  next hnone => simp [allocator, hnone]
  next service hsome => simp [allocator, hsome, DenmService.create]

lemma allocator_raiseOnHardBraking (s : EventServices M) (now : SimTime) (belief : M.Belief) :
    (s.raiseOnHardBraking now belief).allocator =
      if s.risingEdge belief then s.allocator.map fun a => a.allocate.2 else s.allocator := by
  unfold raiseOnHardBraking
  split
  next hnone => simp [risingEdge, hnone]
  next a _ =>
    split_ifs
    · exact s.allocator_announce now belief
    · rfl

@[simp] lemma risingEdge_renew (s : EventServices M) (stationId : Option UInt32)
    (belief : M.Belief) : (s.renew stationId).risingEdge belief = s.risingEdge belief := by
  unfold renew
  split
  · split_ifs <;> rfl
  · rfl

/-- The event a call raises is the one the counter gives, and the counter moves on. -/
lemma raised_spec (s : EventServices M) (c : DueCall M) :
    (s.raised c = none ∧ ((s.due c).2.allocator = s.allocator ∨
        (s.due c).2.allocator = (s.renew c.stationId).allocator)) ∨
      ∃ a, (s.renew c.stationId).allocator = some a ∧ s.raised c = some a.allocate.1 ∧
        (s.due c).2.allocator = some a.allocate.2 := by
  have hdue : (s.due c).2.allocator =
      (if c.services.denm then s.dueDenm c else ([], s)).2.allocator := by
    simp only [allocator, (s.due_denm c).1]
  rw [hdue]
  cases hdenm : c.services.denm with
  | false => exact .inl ⟨by simp [raised, hdenm], .inl rfl⟩
  | true =>
    have hpart : (s.dueDenm c).2.allocator = if s.risingEdge c.belief then
        (s.renew c.stationId).allocator.map fun a => a.allocate.2
        else (s.renew c.stationId).allocator := by
      rw [dueDenm, allocator_pollDenm, allocator_raiseOnHardBraking, risingEdge_renew]
    simp only [if_true, hpart]
    cases hedge : s.risingEdge c.belief with
    | false => exact .inl ⟨by simp [raised, hedge], .inr rfl⟩
    | true =>
      cases hd : (s.renew c.stationId).denm with
      | none => exact .inl ⟨by simp [raised, hd], .inr (by simp [allocator, hd])⟩
      | some d =>
        refine .inr ⟨d.allocator, by simp [allocator, hd], by simp [raised, hdenm, hedge, hd], ?_⟩
        simp [allocator, hd]

/-- The service a call works with is the one in place, or a new one for the station of the call. -/
lemma allocator_renew (s : EventServices M) (stationId : Option UInt32) :
    ((s.renew stationId).allocator = s.allocator ∧ ∀ sid, stationId = some sid →
        ∃ d, s.denm = some d ∧ (d.stationId = sid ∨ d.activeLen ≠ 0)) ∨
      ∃ sid, stationId = some sid ∧ (s.renew stationId).allocator = some (.new sid) ∧
        ∀ d, s.denm = some d → d.stationId ≠ sid ∧ d.activeLen = 0 := by
  unfold renew
  cases stationId with
  | none => exact .inl ⟨rfl, by simp⟩
  | some sid =>
    dsimp only
    split_ifs with hall
    · refine .inr ⟨sid, rfl, rfl, fun d hd => ?_⟩
      simpa only [hd, Option.all_some, decide_eq_true_eq] using hall
    · refine .inl ⟨rfl, fun sid' hsid => ?_⟩
      obtain rfl := Option.some.inj hsid
      cases hd : s.denm with
      | none => simp [hd] at hall
      | some d =>
        refine ⟨d, rfl, ?_⟩
        simp only [hd, Option.all_some, decide_eq_true_eq] at hall
        exact or_iff_not_imp_left.2 fun hne => fun hnil => hall ⟨hne, hnil⟩

/-- A call raises an event: the vehicle has begun to brake hard, and there is a station to raise it
under. -/
def Raises (s : EventServices M) (c : DueCall M) : Prop :=
  c.services.denm = true ∧ s.risingEdge c.belief = true ∧
    (s.denm.isSome = true ∨ c.stationId.isSome = true)

instance (s : EventServices M) (c : DueCall M) : Decidable (s.Raises c) :=
  inferInstanceAs (Decidable (_ ∧ _ ∧ _))

/-- The calls that raise an event are those that have an event to raise. -/
lemma raised_isSome {s : EventServices M} {c : DueCall M} :
    (s.raised c).isSome = true ↔ s.Raises c := by
  have hdenm : (s.renew c.stationId).denm.isSome = (s.denm.isSome || c.stationId.isSome) := by
    unfold renew
    cases c.stationId with
    | none => simp
    | some sid =>
      dsimp only
      split_ifs with hall
      · simp
      · cases hd : s.denm with
        | none => simp [hd] at hall
        | some d => simp
  unfold raised Raises
  rw [← Bool.or_eq_true, ← hdenm]
  cases c.services.denm <;> cases s.risingEdge c.belief <;> simp

/-- The present call names a station, and gives its event an identifier of its own: the service in
place counts for that station already, or nothing was ever raised under that station and no event of
another one is alive. -/
def Distinguishes (ids : List EventId) (s : EventServices M) (c : DueCall M) : Prop :=
  ∃ sid, c.stationId = some sid ∧
    ((∃ d, s.denm = some d ∧ d.stationId = sid ∧ d.allocator.next ≠ 0) ∨
      (∀ d, s.denm = some d → d.stationId = sid ∨ d.activeLen = 0) ∧
        ∀ id ∈ ids, id.originatingStationId ≠ sid)

/-- The condition in terms of the counter the call works with. -/
lemma distinguishes_iff {ids : List EventId} {s : EventServices M} {c : DueCall M}
    {a : ActionIdAllocator} (ha : (s.renew c.stationId).allocator = some a) :
    Distinguishes ids s c ↔ c.stationId = some a.stationId ∧
      (a.next = 0 → ∀ id ∈ ids, id.originatingStationId ≠ a.stationId) := by
  have hold : s.allocator = some a → ∃ d, s.denm = some d ∧ d.allocator = a :=
    Option.map_eq_some_iff.1
  constructor
  · rintro ⟨sid, hsid, hcase⟩
    rw [hsid]
    rcases s.allocator_renew c.stationId with ⟨hsame, hkept⟩ | ⟨sid', hsid', hnew, hidle⟩
    · obtain ⟨d, hd, rfl⟩ := hold (hsame ▸ ha)
      obtain ⟨d', hd', hor⟩ := hkept sid hsid
      obtain rfl := Option.some.inj (hd.symm.trans hd')
      rcases hcase with ⟨d', hd', rfl, hnext⟩ | ⟨hall, hfresh⟩
      · obtain rfl := Option.some.inj (hd.symm.trans hd')
        exact ⟨rfl, fun hzero => absurd hzero hnext⟩
      · obtain rfl : d.stationId = sid := hor.elim id fun hne => (hall d hd).resolve_right hne
        exact ⟨rfl, fun _ => hfresh⟩
    · obtain rfl := Option.some.inj (hsid.symm.trans hsid')
      obtain rfl := Option.some.inj (hnew.symm.trans ha)
      refine ⟨rfl, fun _ => ?_⟩
      rcases hcase with ⟨d, hd, heq, -⟩ | ⟨-, hfresh⟩
      · exact absurd heq (hidle d hd).1
      · exact hfresh
  · rintro ⟨hsid, hfresh⟩
    refine ⟨a.stationId, hsid, ?_⟩
    rcases s.allocator_renew c.stationId with ⟨hsame, -⟩ | ⟨sid', -, hnew, hidle⟩
    · obtain ⟨d, hd, rfl⟩ := hold (hsame ▸ ha)
      by_cases hzero : d.allocator.next = 0
      · refine .inr ⟨fun d' hd' => .inl ?_, hfresh hzero⟩
        obtain rfl := Option.some.inj (hd.symm.trans hd')
        rfl
      · exact .inl ⟨d, hd, rfl, hzero⟩
    · obtain rfl := Option.some.inj (hnew.symm.trans ha)
      exact .inr ⟨fun d hd => .inr (hidle d hd).2, hfresh rfl⟩

/-! ## Runs and their events -/

/-- The counter, against the events raised so far: it has not counted further than them, and where
an event of a station was raised, so was its first. -/
structure Counted (ids : List EventId) (a : Option ActionIdAllocator) : Prop where
  bound : ∀ x, a = some x → x.next.toNat ≤ ids.length
  begun : ∀ x, a = some x → x.next ≠ 0 → ⟨x.stationId, 0⟩ ∈ ids
  first : ∀ id ∈ ids, ⟨id.originatingStationId, 0⟩ ∈ ids

/-- The events raised so far are distinct, and those of the station in place are below its
counter. -/
structure Fresh (ids : List EventId) (a : Option ActionIdAllocator) : Prop where
  nodup : ids.Nodup
  below : ∀ x, a = some x → x.next ≠ 0 → ∀ id ∈ ids, id.originatingStationId = x.stationId →
    id.sequenceNumber.toNat < x.next.toNat

lemma Counted.renew {ids : List EventId} {s : EventServices M} (h : Counted ids s.allocator)
    (stationId : Option UInt32) : Counted ids (s.renew stationId).allocator := by
  rcases s.allocator_renew stationId with ⟨hsame, -⟩ | ⟨sid, -, hnew, -⟩
  · rw [hsame]
    exact h
  · rw [hnew]
    refine ⟨fun x hx => ?_, fun x hx hne => ?_, h.first⟩
    · cases hx
      exact Nat.zero_le _
    · cases hx
      exact absurd rfl hne

lemma Fresh.renew {ids : List EventId} {s : EventServices M} (h : Fresh ids s.allocator)
    (stationId : Option UInt32) : Fresh ids (s.renew stationId).allocator := by
  rcases s.allocator_renew stationId with ⟨hsame, -⟩ | ⟨sid, -, hnew, -⟩
  · rw [hsame]
    exact h
  · rw [hnew]
    refine ⟨h.nodup, fun x hx hne => ?_⟩
    cases hx
    exact absurd rfl hne

lemma Counted.allocate {ids : List EventId} {a : ActionIdAllocator} (h : Counted ids (some a)) :
    Counted (ids ++ [a.allocate.1]) (some a.allocate.2) := by
  have hbegun : (⟨a.stationId, 0⟩ : EventId) ∈ ids ++ [a.allocate.1] := by
    by_cases hzero : a.next = 0
    · exact List.mem_append_right _ (by simp [ActionIdAllocator.allocate, hzero])
    · exact List.mem_append_left _ (h.begun a rfl hzero)
  refine ⟨fun x hx => ?_, fun x hx _ => ?_, fun id hid => ?_⟩
  · obtain rfl := Option.some.inj hx
    have hle := h.bound a rfl
    have hmod : (a.next + 1).toNat ≤ a.next.toNat + 1 := by
      rw [UInt16.toNat_add]
      exact Nat.mod_le _ _
    rw [List.length_append]
    exact hmod.trans (Nat.succ_le_succ hle)
  · obtain rfl := Option.some.inj hx
    exact hbegun
  · rcases List.mem_append.1 hid with hid | hid
    · exact List.mem_append_left _ (h.first id hid)
    · obtain rfl := List.mem_singleton.1 hid
      exact hbegun

lemma Fresh.allocate {ids : List EventId} {a : ActionIdAllocator} (h : Fresh ids (some a))
    (hcounted : Counted ids (some a)) (hlength : ids.length + 1 < 65536)
    (hfresh : a.next = 0 → ∀ id ∈ ids, id.originatingStationId ≠ a.stationId) :
    Fresh (ids ++ [a.allocate.1]) (some a.allocate.2) := by
  have hnext : (a.next + 1).toNat = a.next.toNat + 1 := by
    have hle := hcounted.bound a rfl
    rw [UInt16.toNat_add]
    exact Nat.mod_eq_of_lt (by simp; omega)
  have hbelow : ∀ id ∈ ids, id.originatingStationId = a.stationId →
      id.sequenceNumber.toNat < a.next.toNat := by
    intro id hid hstation
    by_cases hzero : a.next = 0
    · exact absurd hstation (hfresh hzero id hid)
    · exact h.below a rfl hzero id hid hstation
  refine ⟨List.nodup_append.2 ⟨h.nodup, List.nodup_singleton _, fun id hid new hnew => ?_⟩,
    fun x hx _ id hid hstation => ?_⟩
  · obtain rfl := List.mem_singleton.1 hnew
    rintro rfl
    exact Nat.lt_irrefl _ (hbelow _ hid rfl)
  · obtain rfl := Option.some.inj hx
    change _ < (a.next + 1).toNat
    rw [hnext]
    rcases List.mem_append.1 hid with hid | hid
    · exact Nat.lt_succ_of_lt (hbelow id hid hstation)
    · obtain rfl := List.mem_singleton.1 hid
      exact Nat.lt_succ_self _

/-- The identifiers of the events raised in a run. -/
def idsOf (ops : List (EventOp M)) : List EventId := (raisedIn {} ops).map Prod.fst

lemma raisedIn_append (ops ops' : List (EventOp M)) : ∀ s : EventServices M,
    raisedIn s (ops ++ ops') = raisedIn s ops ++ raisedIn (s.after ops) ops' := by
  induction ops with
  | nil => exact fun s => rfl
  | cons op ops ih => exact fun s => by simp [raisedIn, ih, after]

lemma after_snoc (s : EventServices M) (ops : List (EventOp M)) (op : EventOp M) :
    s.after (ops ++ [op]) = (s.after ops).perform op := by simp [after]

lemma idsOf_snoc (ops : List (EventOp M)) (op : EventOp M) :
    idsOf (ops ++ [op]) = idsOf ops ++ ((after {} ops).raisedBy op).map Prod.fst := by
  simp [idsOf, raisedIn_append, raisedIn]

lemma quiet_perform (s : EventServices M) (op : EventOp M) (h : ∀ c, op ≠ .due c) :
    (s.perform op).allocator = s.allocator ∧ s.raisedBy op = [] := by
  cases op with
  | setInfraPayload ty bytes => simp [perform, allocator, raisedBy]
  | setOwnAcceleration a => exact ⟨rfl, rfl⟩
  | onDelivered m => simp [perform, allocator, raisedBy]
  | due c => exact absurd rfl (h c)

/-- The counter is right after every run. -/
lemma counted_after (ops : List (EventOp M)) :
    Counted (idsOf ops) (after {} ops).allocator := by
  induction ops using List.reverseRecOn with
  | nil => exact ⟨nofun, nofun, nofun⟩
  | append_singleton ops op ih =>
    rw [idsOf_snoc, after_snoc]
    by_cases hdue : ∃ c, op = .due c
    · obtain ⟨c, rfl⟩ := hdue
      have hrenew := ih.renew c.stationId
      rcases (after {} ops).raised_spec c with ⟨hnone, hsame | hsame⟩ | ⟨a, ha, hraised, hnext⟩
      · simpa [raisedBy, hnone, perform, hsame] using ih
      · simpa [raisedBy, hnone, perform, hsame] using hrenew
      · simpa [raisedBy, hraised, perform, hnext] using (ha ▸ hrenew).allocate
    · obtain ⟨hsame, hnone⟩ := quiet_perform (after {} ops) op fun c hc => hdue ⟨c, hc⟩
      simpa [hsame, hnone] using ih

/-- Every call of the run that raises an event distinguishes it. -/
def Separated (ops : List (EventOp M)) : Prop :=
  ∀ pre c post, ops = pre ++ .due c :: post → (after {} pre).Raises c →
    Distinguishes (idsOf pre) (after {} pre) c

lemma Separated.of_append {ops ops' : List (EventOp M)} (h : Separated (ops ++ ops')) :
    Separated ops := fun pre c post hops =>
  h pre c (post ++ ops') (by rw [hops, List.append_assoc, List.cons_append])

/-- In a run that separates its events, the counter gives fresh identifiers and every event carries
the station of its call. -/
lemma fresh_after (ops : List (EventOp M)) (hsep : Separated ops)
    (hlength : (idsOf ops).length < 65536) : Fresh (idsOf ops) (after {} ops).allocator ∧
      ∀ x ∈ raisedIn {} ops, x.2 = some x.1.originatingStationId := by
  induction ops using List.reverseRecOn with
  | nil => exact ⟨⟨List.nodup_nil, nofun⟩, nofun⟩
  | append_singleton ops op ih =>
    rw [idsOf_snoc] at hlength ⊢
    rw [after_snoc]
    obtain ⟨hfresh, hstations⟩ := ih hsep.of_append
      (lt_of_le_of_lt (by simp [List.length_append]) hlength)
    have hrun : raisedIn {} (ops ++ [op]) = raisedIn {} ops ++ (after {} ops).raisedBy op := by
      simp [raisedIn_append, raisedIn]
    rw [hrun]
    by_cases hdue : ∃ c, op = .due c
    · obtain ⟨c, rfl⟩ := hdue
      have hrenew := hfresh.renew c.stationId
      rcases (after {} ops).raised_spec c with ⟨hnone, hsame | hsame⟩ | ⟨a, ha, hraised, hnext⟩
      · simpa [raisedBy, hnone, perform, hsame] using And.intro hfresh hstations
      · simpa [raisedBy, hnone, perform, hsame] using And.intro hrenew hstations
      · have hcall := hsep ops c [] rfl (raised_isSome.1 (by rw [hraised]; rfl))
        obtain ⟨hstation, hfirst⟩ := (distinguishes_iff ha).1 hcall
        have hcounted := (counted_after ops).renew c.stationId
        rw [ha] at hrenew hcounted
        have hbound : (idsOf ops).length + 1 < 65536 := by
          simpa [raisedBy, hraised] using hlength
        have hnew := hrenew.allocate hcounted hbound hfirst
        refine ⟨by simpa [raisedBy, hraised, perform, hnext] using hnew, fun x hx => ?_⟩
        rcases List.mem_append.1 hx with hx | hx
        · exact hstations x hx
        · obtain rfl : x = (a.allocate.1, c.stationId) := by
            simpa [raisedBy, hraised] using hx
          exact hstation
    · obtain ⟨hsame, hnone⟩ := quiet_perform (after {} ops) op fun c hc => hdue ⟨c, hc⟩
      simpa [hsame, hnone] using And.intro hfresh hstations

/-! ## Identities -/

/-- **Every hazard event has its own identity**: it carries the station its call was given, no two
events carry the same identifier, and what a call returns about an event can be built. -/
structure Identified (ops : List (EventOp M)) : Prop where
  originator : ∀ x ∈ raisedIn {} ops, x.2 = some x.1.originatingStationId
  unique : (idsOf ops).Nodup
  encodable : ∀ pre c post, ops = pre ++ .due c :: post → ∀ a, .denm a ∈ ((after {} pre).due c).1 →
    (((after {} pre).due c).2.detection (.denm a)).isSome

end EventServices

open EventServices in
/-- **Which runs identify their events.** In a run of fewer than 65536 events, every hazard event
has its own identity exactly if every call that raises one names a station and either works with a
service that counts for that station already, or with a station under which nothing was raised
before, while no event of another station is alive.

**Proof sketch.** A service that counts already has raised exactly the events below its counter. A
new service starts at 0, and if anything was raised under its station before, 0 was. -/
theorem hazards_identified (ops : List (EventOp M)) (h : (raisedIn {} ops).length < 65536) :
    Identified ops ↔ Separated ops := by
  have hlength : (idsOf ops).length < 65536 := by rwa [idsOf, List.length_map]
  constructor
  · rintro ⟨horiginator, hunique, -⟩ pre c post hops hraises
    obtain ⟨id, hid⟩ := Option.isSome_iff_exists.1 (raised_isSome.2 hraises)
    rcases (after {} pre).raised_spec c with ⟨hnone, -⟩ | ⟨a, ha, hraised, -⟩
    · rw [hid] at hnone
      cases hnone
    · have hrun : raisedIn {} ops = raisedIn {} pre ++ (a.allocate.1, c.stationId) ::
          raisedIn ((after {} pre).perform (.due c)) post := by
        rw [hops, raisedIn_append, raisedIn]
        simp [raisedBy, hraised]
      refine (distinguishes_iff ha).2
        ⟨horiginator (a.allocate.1, c.stationId) (by simp [hrun]), fun hzero id hmem heq => ?_⟩
      have hfirst := (counted_after pre).first id hmem
      have hnew : a.allocate.1 ∉ idsOf pre := by
        rw [idsOf, hrun, List.map_append, List.map_cons] at hunique
        exact fun hin => (List.nodup_append.1 hunique).2.2 _ hin _ List.mem_cons_self rfl
      refine hnew ?_
      rwa [heq, ← hzero] at hfirst
  · intro hsep
    obtain ⟨hfresh, hstations⟩ := fresh_after ops hsep hlength
    exact ⟨hstations, hfresh.nodup, fun pre c post _ =>
      (data_of_due (sound_after pre sound_new) c).2⟩

/-! ## A braking vehicle -/

/-- A belief that is only whether there is a fix. -/
def bareEvents : EventModels where
  Belief := Bool
  hasPosition b := b
  mapKey _ := toLex (0, 0)
  nearestAhead _ _ := none

/-- The vehicle coasts. -/
def coast : EventOp bareEvents := .setOwnAcceleration ⟨0⟩

/-- The vehicle brakes with 5 m/s². -/
def brake : EventOp bareEvents := .setOwnAcceleration ⟨0xC014000000000000⟩

/-- A call at a second, with a fix, transmitting under `sid`. -/
def dueAt (seconds : ℕ) (sid : UInt32) : EventOp bareEvents :=
  .due ⟨seconds * 1000000000, true, { denm := true }, some sid⟩

/-- The check of `EventServices.Separated` along a run. -/
def separatedCheck : List EventId → EventServices bareEvents → List (EventOp bareEvents) → Bool
  | _, _, [] => true
  | ids, s, op :: ops =>
    (match op with
      | .due c => !decide (s.Raises c) || ((s.renew c.stationId).allocator.any fun a =>
          c.stationId == some a.stationId &&
            (a.next != 0 || ids.all fun id => id.originatingStationId != a.stationId))
      | _ => true) &&
      separatedCheck (ids ++ (s.raisedBy op).map Prod.fst) (s.perform op) ops

open EventServices in
/-- A run that passes the check separates its events. -/
lemma separated_of_check {ops : List (EventOp bareEvents)}
    (h : separatedCheck [] {} ops = true) : Separated ops := by
  have hrun : ∀ (pre ops : List (EventOp bareEvents)),
      separatedCheck (idsOf pre) (after {} pre) ops = true →
      ∀ mid c post, ops = mid ++ .due c :: post → (after {} (pre ++ mid)).Raises c →
        Distinguishes (idsOf (pre ++ mid)) (after {} (pre ++ mid)) c := by
    intro pre ops
    induction ops generalizing pre with
    | nil => exact fun _ mid c post hops => absurd hops.symm (by simp)
    | cons op ops ih =>
      intro hcheck mid c post hops hraises
      simp only [separatedCheck, Bool.and_eq_true] at hcheck
      cases mid with
      | nil =>
        obtain ⟨rfl, rfl⟩ := List.cons.inj hops
        rw [List.append_nil] at hraises ⊢
        have hcall := hcheck.1
        simp only [hraises, decide_true, Bool.not_true, Bool.false_or, Option.any_eq_true] at hcall
        obtain ⟨a, ha, hcall⟩ := hcall
        refine (distinguishes_iff ha).2 ?_
        simpa [imp_iff_not_or] using hcall
      | cons op' mid =>
        obtain ⟨rfl, rfl⟩ := List.cons.inj hops
        have hrest := ih (pre ++ [op]) (by rw [idsOf_snoc, after_snoc]; exact hcheck.2)
          mid c post rfl
        simp only [List.append_assoc, List.singleton_append] at hrest
        exact hrest hraises
  exact fun pre c post hops => hrun [] ops h pre c post hops

/-- Two braking episodes under one pseudonym, and a third under the next, a while later. -/
def threeEpisodes : List (EventOp bareEvents) :=
  [brake, dueAt 0 7, coast, dueAt 1 7, brake, dueAt 2 7, coast, dueAt 10 8, brake, dueAt 11 8]

/-- Three episodes, three identities. -/
theorem hazards_identified_three : EventServices.Identified threeEpisodes :=
  (hazards_identified threeEpisodes (by decide +kernel)).2
    (separated_of_check (by decide +kernel))

/-- A second episode under a new pseudonym, while the event of the first is alive. -/
def rotatedWhileAlive : List (EventOp bareEvents) :=
  [brake, dueAt 0 7, coast, dueAt 1 8, brake, dueAt 1 8]

/-- A second episode under the first pseudonym, which the node has left and come back to. -/
def returned : List (EventOp bareEvents) :=
  [brake, dueAt 0 7, coast, dueAt 10 7, dueAt 11 8, dueAt 12 7, brake, dueAt 13 7]

/-- Under the new pseudonym the event names the old station, and back under the old one it has the
identifier of the first event. -/
theorem hazards_confused :
    EventServices.raisedIn {} rotatedWhileAlive = [(⟨7, 0⟩, some 7), (⟨7, 1⟩, some 8)] ∧
      EventServices.raisedIn {} returned = [(⟨7, 0⟩, some 7), (⟨7, 0⟩, some 7)] ∧
      ¬ EventServices.Identified rotatedWhileAlive ∧ ¬ EventServices.Identified returned := by
  have hrotated : EventServices.raisedIn {} rotatedWhileAlive =
      [(⟨7, 0⟩, some 7), (⟨7, 1⟩, some 8)] := by decide +kernel
  have hreturned : EventServices.raisedIn {} returned =
      [(⟨7, 0⟩, some 7), (⟨7, 0⟩, some 7)] := by decide +kernel
  refine ⟨hrotated, hreturned, fun h => ?_, fun h => ?_⟩
  · have horiginator := h.originator (⟨7, 1⟩, some 8) (by simp [hrotated])
    exact absurd horiginator (by decide)
  · have hunique := h.unique
    rw [EventServices.idsOf, hreturned] at hunique
    exact absurd hunique (by decide)

end V2xw.Node
