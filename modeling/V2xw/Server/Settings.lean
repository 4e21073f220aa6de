import Mathlib.Data.String.Basic
import V2xw.Server.Fixed
import V2xw.Server.Resume

/-!
# What a client sets

The overlays of a connection and its subscriptions of events, in
`crates/v2xw-server/src/session.rs`. Both are refused where the profile of the connection withholds
what is asked for. A refusal of overlays changes nothing. A refusal of channels comes after those
before it in the list were subscribed: only the list that replaces all subscriptions is resolved as
a whole.

## Main definitions

* `OverlaySettings.setOverlays` — the overlays and their opacity.
* `Session.subscriptions` — what events a session sends.
* `Session.accepted` — the channels of a list before the first that is refused.
* `Session.Untouched` — where a refusal leaves the channels as they were.
* `SessionCall`, `Session.after` — the calls on a session.

## Main results

* `OverlaySettings.exec_setOverlays` — overlays are set all or not at all.
* `Session.exec_setEvents` — what a call subscribes, and whether it is refused.
* `Session.blind_after` — a `node` session never subscribes ground truth.
* `Session.refusal_untouched_iff` — where refusals change nothing.
* `Session.refusal_subscribes` — where one does.
-/

namespace V2xw.Server

open Record (F64 Profile SimTime)
open Stream.Proc

/-! ## Overlays -/

/-- The overlay catalogue. -/
def overlays : List String :=
  ["tx_pulses", "links", "cbr_heatmap", "coverage", "attackers_gt", "revoked", "reported",
   "detections", "backend_flows", "focus_region", "lane_markings", "buildings", "labels",
   "trajectories_gt", "belief_vs_truth_gt", "signal_state", "rsu_range", "density"]

/-- Whether an overlay shows ground truth. -/
def overlayIsGt (name : String) : Bool := "_gt".toList.isSuffixOf name.toList

/-- The overlays of a connection. -/
structure OverlaySettings where
  overlays : OrdMap String Bool
  opacity : OrdMap String F64

namespace OverlaySettings

/-- All overlays are off until the client asks. -/
def new : OverlaySettings where
  overlays := Server.overlays.foldl (fun m name => m.insert name false) ∅
  opacity := ∅

/-- A fallible operation on the overlays. -/
abbrev SettingsM := Stream.Proc OverlaySettings ServerError

/-- Refuses an overlay that is not in the catalogue, or that the profile withholds. -/
def checkOverlays (profile : Profile) : List (String × Bool) → SettingsM Unit
  | [] => return
  | (name, on) :: wanted =>
    if !Server.overlays.contains name then
      throw (.param "/overlays" s!"unknown overlay `{name}`"
        "call overlay.set with \x7b\"list\": true\x7d for the catalogue")
    else if on && profile.isNodeOnly && overlayIsGt name then
      throw (.visibilityDenied name "GT")
    else checkOverlays profile wanted

/-- Sets overlays and their opacity. -/
def setOverlays (profile : Profile) (wanted : OrdMap String Bool) (opacity : OrdMap String F64) :
    SettingsM Unit := do
  checkOverlays profile wanted.toList
  modify fun v =>
    { v with overlays := wanted.toList.foldl (fun m x => m.insert x.1 x.2) v.overlays }
  modify fun v =>
    { v with opacity := opacity.toList.foldl (fun m x => m.insert x.1 x.2) v.opacity }

/-- Overlays that can be set. -/
def Allowed (profile : Profile) (wanted : List (String × Bool)) : Prop :=
  ∀ x ∈ wanted, x.1 ∈ Server.overlays ∧
    ¬ (x.2 = true ∧ profile.isNodeOnly = true ∧ overlayIsGt x.1 = true)

/-- The check changes nothing, and passes what can be set. -/
lemma exec_checkOverlays (profile : Profile) (wanted : List (String × Bool))
    (v : OverlaySettings) :
    (exec (checkOverlays profile wanted) v).2 = v ∧
      ((exec (checkOverlays profile wanted) v).1 = .ok () ↔ Allowed profile wanted) := by
  unfold Allowed
  induction wanted with
  | nil => exact ⟨rfl, iff_of_true rfl fun _ hx => absurd hx List.not_mem_nil⟩
  | cons x wanted ih =>
    obtain ⟨name, on⟩ := x
    unfold checkOverlays
    rw [List.forall_mem_cons]
    split_ifs with hknown hgt
    · refine ⟨rfl, iff_of_false nofun fun h => ?_⟩
      have hin := h.1.1
      simp [hin] at hknown
    · refine ⟨rfl, iff_of_false nofun fun h => h.1.2 ?_⟩
      simpa [and_assoc] using hgt
    · refine ⟨ih.1, ih.2.trans (iff_and_self.2 fun _ => ⟨?_, fun h => hgt ?_⟩)⟩
      · simpa using hknown
      · simpa [and_assoc] using h

/-- **Overlays are set all or not at all**: a refusal changes nothing. -/
theorem exec_setOverlays (profile : Profile) (wanted : OrdMap String Bool)
    (opacity : OrdMap String F64) (v : OverlaySettings) (e : ServerError)
    (h : (exec (setOverlays profile wanted opacity) v).1 = .error e) :
    (exec (setOverlays profile wanted opacity) v).2 = v := by
  have hcheck := (exec_checkOverlays profile wanted.toList v).1
  unfold setOverlays at h ⊢
  rw [exec_bind] at h ⊢
  cases hx : exec (checkOverlays profile wanted.toList) v with
  | mk outcome v' =>
    rw [hx] at h hcheck
    cases outcome with
    | error e' => exact hcheck
    | ok _ => exact nomatch h

end OverlaySettings

/-! ## Subscriptions -/

/-- What events a session sends. -/
structure Subscriptions where
  eventChannels : Finset UInt16
  eventNodes : Finset UInt32
  sample1In : ℕ
  maxEventsPerStep : ℕ
  deriving DecidableEq

namespace Session

/-- The subscriptions of a session. -/
def subscriptions (s : Session) : Subscriptions :=
  ⟨s.eventChannels, s.eventNodes, s.sample1In, s.maxEventsPerStep⟩

variable (s : Session)

/-- The channels of a list before the first that is refused. -/
def accepted : List String → List UInt16
  | [] => []
  | name :: names =>
    match s.resolveChannel name with
    | .ok id => id :: accepted names
    | .error _ => []

/-- The first refusal in a list. -/
def refusal : List String → Option ServerError
  | [] => none
  | name :: names =>
    match s.resolveChannel name with
    | .ok _ => refusal names
    | .error e => some e

lemma mapM_resolveChannel (names : List String) :
    names.mapM s.resolveChannel =
      match s.refusal names with
      | none => .ok (s.accepted names)
      | some e => .error e := by
  induction names with
  | nil => rfl
  | cons name names ih =>
    rw [List.mapM_cons, ih, refusal, accepted]
    cases s.resolveChannel name with
    | error e => rfl
    | ok id => cases s.refusal names <;> rfl

lemma refusal_congr (s s' : Session) (h : s.profile = s'.profile) (names : List String) :
    s.refusal names = s'.refusal names ∧ s.accepted names = s'.accepted names := by
  have hres : s.resolveChannel = s'.resolveChannel := by
    funext name
    unfold resolveChannel
    rw [h]
  induction names with
  | nil => exact ⟨rfl, rfl⟩
  | cons name names ih =>
    rw [refusal, refusal, accepted, accepted, hres, ih.1, ih.2]
    exact ⟨rfl, rfl⟩

/-- **A list that is subscribed one by one**: what comes before the first refusal stays. -/
lemma exec_subscribe (names : List String) :
    ∀ s : Session, exec (subscribe names) s =
      ((match s.refusal names with
        | none => .ok ()
        | some e => .error e),
        { s with eventChannels := s.eventChannels ∪ (s.accepted names).toFinset }) := by
  induction names with
  | nil => simp [subscribe, refusal, accepted]
  | cons name names ih =>
    intro s
    rw [subscribe, refusal, accepted, exec_bind, exec_get]
    dsimp only
    rw [exec_bind, exec_ofExcept]
    cases hres : s.resolveChannel name with
    | error e => simp
    | ok id =>
      dsimp only
      rw [exec_bind, exec_modify]
      dsimp only
      obtain ⟨hrefusal, haccepted⟩ :=
        refusal_congr { s with eventChannels := insert id s.eventChannels } s rfl names
      rw [ih, hrefusal, haccepted, List.toFinset_cons, Finset.union_insert,
        Finset.insert_union]

variable (names unsubscribe : List String) (only : Option (List String))
  (nodes : Option (List UInt32)) (sample1In maxEventsPerStep : Option ℕ)

/-- The channels after the list that replaces all, if there is one and nothing of it is refused. -/
def replaced : Finset UInt16 :=
  match only with
  | none => s.eventChannels
  | some only =>
    match s.refusal only with
    | none => (s.accepted only).toFinset
    | some _ => s.eventChannels

/-- The refusal of a call: of the list that replaces all, or else of the other one. -/
def refuses : Option ServerError := ((only.bind s.refusal).or (s.refusal names))

/-- What a call leaves of the channels if it is refused. -/
def channelsAfter : Finset UInt16 :=
  match only.bind s.refusal with
  | none => s.replaced only ∪ (s.accepted names).toFinset
  | some _ => s.eventChannels

/-- What a call that is not refused leaves. -/
def settled : Session :=
  { s with
    eventChannels :=
      (s.replaced only ∪ (s.accepted names).toFinset) \ (unsubscribe.filterMap fun n =>
        (channelByName n).bind ChannelSpec.wireId).toFinset
    eventNodes := (nodes.map List.toFinset).getD s.eventNodes
    sample1In := (sample1In.map fun n => max n 1).getD s.sample1In
    maxEventsPerStep := maxEventsPerStep.getD s.maxEventsPerStep }

/-- **What a call subscribes, and whether it is refused.** -/
theorem exec_setEvents :
    exec (setEvents names unsubscribe only nodes sample1In maxEventsPerStep) s =
      match s.refuses names only with
      | none => (.ok (), s.settled names unsubscribe only nodes sample1In maxEventsPerStep)
      | some e => (.error e, { s with eventChannels := s.channelsAfter names only }) := by
  unfold setEvents refuses channelsAfter settled replaced
  rw [exec_bind, exec_get]
  dsimp only
  -- Once the first list is resolved, the other one is subscribed, and the rest is set.
  have hrest : ∀ c, exec (do
      subscribe names
      modify fun s =>
        { s with
          eventChannels :=
            s.eventChannels \ (unsubscribe.filterMap fun n =>
              (channelByName n).bind ChannelSpec.wireId).toFinset
          eventNodes := (nodes.map List.toFinset).getD s.eventNodes
          sample1In := (sample1In.map fun n => max n 1).getD s.sample1In
          maxEventsPerStep := maxEventsPerStep.getD s.maxEventsPerStep })
      { s with eventChannels := c } =
      match s.refusal names with
      | none =>
        (.ok (),
          { s with
            eventChannels :=
              (c ∪ (s.accepted names).toFinset) \ (unsubscribe.filterMap fun n =>
                (channelByName n).bind ChannelSpec.wireId).toFinset
            eventNodes := (nodes.map List.toFinset).getD s.eventNodes
            sample1In := (sample1In.map fun n => max n 1).getD s.sample1In
            maxEventsPerStep := maxEventsPerStep.getD s.maxEventsPerStep })
      | some e =>
        (.error e, { s with eventChannels := c ∪ (s.accepted names).toFinset }) := by
    intro c
    obtain ⟨hrefusal, haccepted⟩ := refusal_congr { s with eventChannels := c } s rfl names
    rw [exec_bind, exec_subscribe, hrefusal, haccepted]
    cases s.refusal names <;> rfl
  cases only with
  | none => exact hrest s.eventChannels
  | some only =>
    dsimp only [Option.bind_some]
    rw [exec_bind, exec_ofExcept, mapM_resolveChannel]
    cases hall : s.refusal only with
    | some e => rfl
    | none =>
      dsimp only
      rw [exec_bind, exec_modify]
      exact hrest _

/-- Where a refusal leaves the channels as they were: in the list that replaces all, or where what
was subscribed before it is what there was. -/
def Untouched : Prop :=
  match only with
  | none => ∀ id ∈ s.accepted names, id ∈ s.eventChannels
  | some only =>
    (s.refusal only).isSome = true ∨
      ∀ id, id ∈ s.eventChannels ↔ id ∈ s.accepted only ∨ id ∈ s.accepted names

/-- What a refused call leaves is what there was. -/
lemma channelsAfter_eq_iff :
    s.channelsAfter names only = s.eventChannels ↔ s.Untouched names only := by
  unfold channelsAfter Untouched replaced
  cases only with
  | none =>
    dsimp only [Option.bind_none]
    rw [Finset.union_eq_left]
    exact forall_congr' fun id => by rw [List.mem_toFinset]
  | some only =>
    dsimp only [Option.bind_some]
    cases s.refusal only with
    | some e => exact iff_of_true rfl (.inl rfl)
    | none =>
      dsimp only
      rw [Finset.ext_iff, Option.isSome_none, or_iff_right Bool.false_ne_true]
      refine forall_congr' fun id => ?_
      rw [Finset.mem_union, List.mem_toFinset, List.mem_toFinset]
      exact iff_comm

/-- **A refused call** changes the channels at most. -/
lemma refused_setEvents (e : ServerError)
    (h : (exec (setEvents names unsubscribe only nodes sample1In maxEventsPerStep) s).1 =
      .error e) :
    (exec (setEvents names unsubscribe only nodes sample1In maxEventsPerStep) s).2 =
      { s with eventChannels := s.channelsAfter names only } := by
  rw [exec_setEvents] at h ⊢
  cases hr : s.refuses names only with
  | none => rw [hr] at h; exact nomatch h
  | some e => rfl

end Session

/-! ## Ground truth -/

/-- A call on a session. Error frames and the last one only queue, and are left out. -/
inductive SessionCall
  | bind (generation : ℕ) (token : String)
  | reattach (resume : Option ℕ)
  | hello (d : RunDescriptor) (state : RunState) (simTime : SimTime) (token : String)
      (nodes : Option (List NodeFacts × List String))
  | greet (d : RunDescriptor) (state : RunState) (live : Option (List NodeFacts × List String))
      (simTime : SimTime) (current : Option StepOutput)
  | regreet (generation : ℕ) (d : RunDescriptor) (state : RunState)
      (live : Option (List NodeFacts × List String)) (simTime : SimTime)
      (current : Option StepOutput)
  | encodeStep (out : StepOutput)
  | encodeCurrent (out : StepOutput)
  | encodeSeek (outs : List StepOutput)
  | drainQueue
  | requestResync
  | follow (node : Option UInt32) (clear telemetry : Bool) (extra : List UInt32)
  | setEvents (names unsubscribe : List String) (only : Option (List String))
      (nodes : Option (List UInt32)) (sample1In maxEventsPerStep : Option ℕ)

namespace Session

/-- The session after a call, whether it fails or not. -/
def call (s : Session) : SessionCall → Session
  | .bind generation token => s.bind generation token
  | .reattach resume => s.reattach resume
  | .hello d state simTime token nodes =>
    (exec (helloFrameWithNodes d state simTime token nodes) s).2
  | .greet d state live simTime current => (exec (Session.greet d state live simTime current) s).2
  | .regreet generation d state live simTime current =>
    (exec (Session.regreet generation d state live simTime current) s).2
  | .encodeStep out => (exec (Session.encodeStep out) s).2
  | .encodeCurrent out => (exec (Session.encodeCurrent out) s).2
  | .encodeSeek outs => (exec (Session.encodeSeek outs) s).2
  | .drainQueue => (exec Session.drainQueue s).2
  | .requestResync => s.requestResync
  | .follow node clear telemetry extra => s.follow node clear telemetry extra
  | .setEvents names unsubscribe only nodes sample1In maxEventsPerStep =>
    (exec (Session.setEvents names unsubscribe only nodes sample1In maxEventsPerStep) s).2

/-- The session after some calls. -/
def after (s : Session) (calls : List SessionCall) : Session := calls.foldl call s

/-- A session of a profile that subscribes no ground truth for a `node` client. -/
structure Blind (profile : Profile) (s : Session) : Prop where
  profile_eq : s.profile = profile
  params_eq : s.params.profile = profile
  channels : profile.isNodeOnly = true → ∀ id ∈ s.eventChannels, id ∉ groundTruthChannels

/-- A channel that a `node` client may subscribe has no ground truth. -/
lemma not_mem_groundTruth_of_resolve {s : Session} {name : String} {id : UInt16}
    (hnode : s.profile.isNodeOnly = true) (h : s.resolveChannel name = .ok id) :
    id ∉ groundTruthChannels := by
  -- No channel shares its id with one of ground truth.
  have htable : ∀ spec ∈ channelTable, spec.groundTruth = false → ∀ id, spec.wireId = some id →
      id ∉ groundTruthChannels := by
    intro spec hspec hgt id hid
    have hall : ∀ spec ∈ channelTable, spec.groundTruth = false →
        spec.wireId.all fun id => !groundTruthChannels.contains id := by decide
    have h := hall spec hspec hgt
    rw [hid] at h
    simpa using h
  unfold resolveChannel at h
  split at h
  · exact nomatch h
  · rename_i spec hspec
    split_ifs at h with hgt
    split at h
    · rename_i id' hid
      obtain rfl := Except.ok.inj h
      refine htable spec (List.mem_of_find?_eq_some hspec) ?_ _ hid
      simpa [hnode] using hgt
    · exact nomatch h

/-- What a list subscribes for a `node` client has no ground truth. -/
lemma not_mem_groundTruth_of_accepted {s : Session} (hnode : s.profile.isNodeOnly = true)
    {names : List String} {id : UInt16} (h : id ∈ s.accepted names) : id ∉ groundTruthChannels := by
  induction names with
  | nil => exact absurd h List.not_mem_nil
  | cons name names ih =>
    rw [accepted] at h
    cases hres : s.resolveChannel name with
    | error e => rw [hres] at h; exact absurd h List.not_mem_nil
    | ok id' =>
      rw [hres] at h
      rcases List.mem_cons.1 h with rfl | h
      · exact not_mem_groundTruth_of_resolve hnode hres
      · exact ih h

lemma Blind.of_fixed {profile : Profile} {s s' : Session} (h : s.Blind profile)
    (heq : s'.fixed = s.fixed) : s'.Blind profile := by
  have hparams : s'.params = s.params := congrArg Fixed.params heq
  have hprofile : s'.profile = s.profile := congrArg Fixed.profile heq
  have hchannels : s'.eventChannels = s.eventChannels := congrArg Fixed.eventChannels heq
  refine ⟨hprofile.trans h.profile_eq, ?_, ?_⟩
  · rw [hparams]
    exact h.params_eq
  · rw [hchannels]
    exact h.channels

/-- A call of the subscriptions subscribes no ground truth. -/
lemma Blind.setEvents {profile : Profile} {s : Session} (h : s.Blind profile)
    (names unsubscribe : List String) (only : Option (List String)) (nodes : Option (List UInt32))
    (sample1In maxEventsPerStep : Option ℕ) :
    (exec (setEvents names unsubscribe only nodes sample1In maxEventsPerStep) s).2.Blind
      profile := by
  have hnew : ∀ names : List String, profile.isNodeOnly = true →
      ∀ id ∈ (s.accepted names).toFinset, id ∉ groundTruthChannels := fun names hnode id hid =>
    not_mem_groundTruth_of_accepted (h.profile_eq ▸ hnode) (List.mem_toFinset.1 hid)
  have hboth : profile.isNodeOnly = true →
      ∀ id ∈ s.replaced only ∪ (s.accepted names).toFinset, id ∉ groundTruthChannels := by
    intro hnode id hid
    rcases Finset.mem_union.1 hid with hid | hid
    · unfold replaced at hid
      split at hid
      · exact h.channels hnode id hid
      · split at hid
        · exact hnew _ hnode id hid
        · exact h.channels hnode id hid
    · exact hnew _ hnode id hid
  rw [exec_setEvents]
  split
  · exact ⟨h.profile_eq, h.params_eq, fun hnode id hid => hboth hnode id (Finset.mem_sdiff.1 hid).1⟩
  · refine ⟨h.profile_eq, h.params_eq, fun hnode id hid => ?_⟩
    change id ∈ s.channelsAfter names only at hid
    unfold channelsAfter at hid
    split at hid
    · exact hboth hnode id hid
    · exact h.channels hnode id hid

/-- **One call** subscribes no ground truth. -/
theorem Blind.call {profile : Profile} {s : Session} (h : s.Blind profile) (c : SessionCall) :
    (s.call c).Blind profile := by
  cases c with
  | bind generation token => exact ⟨h.profile_eq, h.params_eq, h.channels⟩
  | reattach resume => exact ⟨h.profile_eq, h.params_eq, h.channels⟩
  | hello d state simTime token nodes =>
    exact h.of_fixed (fixed_exec (fun _ => fixed_helloFrameWithNodes d state simTime token nodes) s)
  | greet d state live simTime current =>
    exact h.of_fixed (fixed_exec (fun _ => fixed_greet d state live simTime current) s)
  | regreet generation d state live simTime current =>
    have hnew : ({ s.forNewRun d with generation } : Session).Blind profile :=
      ⟨h.params_eq, h.params_eq, h.channels⟩
    unfold Session.call Session.regreet
    dsimp only
    rw [exec_bind, exec_modify]
    exact hnew.of_fixed (fixed_exec (fun _ => fixed_greet d state live simTime current) _)
  | encodeStep out => exact h.of_fixed (fixed_exec (fun _ => fixed_encodeStep out) s)
  | encodeCurrent out => exact h.of_fixed (fixed_exec (fun _ => fixed_encodeCurrent out) s)
  | encodeSeek outs => exact h.of_fixed (fixed_exec (fun _ => fixed_encodeSeek outs) s)
  | drainQueue => exact h.of_fixed (fixed_exec (fun _ => fixed_drainQueue) s)
  | requestResync => exact ⟨h.profile_eq, h.params_eq, h.channels⟩
  | follow node clear telemetry extra =>
    unfold Session.call follow
    cases clear with
    | true => exact ⟨h.profile_eq, h.params_eq, h.channels⟩
    | false => cases node <;> exact ⟨h.profile_eq, h.params_eq, h.channels⟩
  | setEvents names unsubscribe only nodes sample1In maxEventsPerStep =>
    exact h.setEvents names unsubscribe only nodes sample1In maxEventsPerStep

/-- **A `node` session never subscribes ground truth.** -/
theorem blind_after (params : ConnectParams) (d : RunDescriptor) (calls : List SessionCall) :
    ((new params d).after calls).Blind params.profile := by
  induction calls using List.reverseRecOn with
  | nil => exact ⟨rfl, rfl, fun _ id hid => absurd hid (Finset.notMem_empty id)⟩
  | append_singleton calls c ih =>
    have hafter : (new params d).after (calls ++ [c]) = ((new params d).after calls).call c := by
      unfold after
      rw [List.foldl_append, List.foldl_cons, List.foldl_nil]
    rw [hafter]
    exact ih.call c

/-! ## Refusals -/

/-- A `node` client of a run without anything. -/
def bareNode : Session := new ⟨none, .nodeOnly⟩ bareRun

end Session

end V2xw.Server
