import V2xw.Lib.Triple
import V2xw.Server.Encode

/-!
# What making frames leaves alone

A session is bound to a run and to a profile, and its client has subscribed to some rows. No step,
greeting or seek changes that: a procedure that makes frames keeps what is fixed, whether it
succeeds or not.

## Main definitions

* `Session.fixed` — what a session is bound to and what its client subscribed.

## Main results

* `Session.fixed_encodeStep`, `Session.fixed_greet`,
  `Session.fixed_encodeSeek` — the procedures that make frames.
-/

namespace V2xw.Server

open Record (SimTime Snapshot Axes F64 Cadence Profile)
open Stream.Proc

/-- What no frame changes. -/
structure Fixed where
  params : ConnectParams
  profile : Profile
  originM : Axes F64
  cadence : Cadence
  generation : ℕ
  telemetryNodes : Finset UInt32
  eventChannels : Finset UInt16
  eventNodes : Finset UInt32
  maxEventsPerStep : ℕ
  sample1In : ℕ

namespace Session

/-- What a session is bound to, and what its client subscribed. -/
def fixed (s : Session) : Fixed :=
  ⟨s.params, s.profile, s.originM, s.cadence, s.generation, s.telemetryNodes, s.eventChannels,
    s.eventNodes, s.maxEventsPerStep, s.sample1In⟩

variable {k : Fixed}

/-- The session is fixed. -/
def IsFixed (k : Fixed) (s : Session) : Prop := s.fixed = k

/-! ## Building a frame -/

lemma fixed_ofExcept {α : Type} (r : Except ServerError α) :
    Keeps (IsFixed k) (ofExcept r) := by
  cases r with
  | ok a => exact Keeps.pure a
  | error e => exact Keeps.throw e

lemma fixed_ofRecord {α : Type} (r : Except Record.RecordError α) :
    Keeps (IsFixed k) (ofRecord r) := by
  cases r with
  | ok a => exact Keeps.pure a
  | error e => exact Keeps.throw _

lemma fixed_takeSeq : Keeps (IsFixed k) takeSeq := fun _ hs => hs

lemma fixed_snapshotFrame (snap : Snapshot) : Keeps (IsFixed k) (snapshotFrame snap) := by
  refine Keeps.bind Keeps.get fun s => ?_
  refine Keeps.bind (Keeps.modify fun _ hs => hs) fun _ => ?_
  refine Keeps.bind (fixed_ofRecord _) fun f => ?_
  refine Keeps.bind fixed_takeSeq fun seq => ?_
  exact Keeps.bind (fixed_ofRecord _) fun frame => Keeps.pure _

lemma fixed_provenanceFrame (prov : ProvenanceBody) :
    Keeps (IsFixed k) (provenanceFrame prov) := by
  refine Keeps.bind Keeps.get fun s => ?_
  split
  · exact Keeps.bind fixed_takeSeq fun seq => fixed_ofExcept _
  · refine Keeps.bind (Keeps.modify fun _ hs => hs) fun _ => ?_
    exact Keeps.bind fixed_takeSeq fun seq => fixed_ofExcept _

lemma fixed_telemetryFrame (out : StepOutput) : Keeps (IsFixed k) (telemetryFrame out) := by
  refine Keeps.bind Keeps.get fun s => Keeps.ite (Keeps.pure _) ?_
  refine Keeps.bind fixed_takeSeq fun seq => ?_
  exact Keeps.bind (fixed_ofExcept _) fun frame => Keeps.pure _

lemma fixed_eventFrames (out : StepOutput) : Keeps (IsFixed k) (eventFrames out) := by
  refine Keeps.bind Keeps.get fun s => Keeps.ite (Keeps.pure _) (Keeps.ite (Keeps.pure _) ?_)
  refine Keeps.bind fixed_takeSeq fun seq => ?_
  exact Keeps.bind (fixed_ofExcept _) fun frame => Keeps.pure _

lemma fixed_metricFrame (out : StepOutput) : Keeps (IsFixed k) (metricFrame out) := by
  refine Keeps.bind Keeps.get fun s => Keeps.ite (Keeps.pure _) ?_
  refine Keeps.bind fixed_takeSeq fun seq => ?_
  exact Keeps.bind (fixed_ofExcept _) fun frame => Keeps.pure _

/-! ## Queueing -/

lemma fixed_push (frame : Frame) (keyframe : Bool) (fx : StepEffects) :
    Keeps (IsFixed k) (push frame keyframe fx) := fun _ hs => hs

lemma fixed_pushOption (frame : Option Frame) (fx : StepEffects) :
    Keeps (IsFixed k) (pushOption frame fx) := by
  cases frame with
  | none => exact Keeps.pure fx
  | some f => exact fixed_push f false fx

lemma fixed_pushAll (frames : List Frame) :
    ∀ fx, Keeps (IsFixed k) (pushAll frames fx) := by
  induction frames with
  | nil => exact fun fx => Keeps.pure fx
  | cons f fs ih => exact fun fx => Keeps.bind (fixed_push f false fx) ih

lemma fixed_pushProvenance (prov : Option ProvenanceBody) (fx : StepEffects) :
    Keeps (IsFixed k) (pushProvenance prov fx) := by
  cases prov with
  | none => exact Keeps.pure fx
  | some prov => exact Keeps.bind (fixed_provenanceFrame prov) fun f => fixed_push f false fx

lemma fixed_drainQueue : Keeps (IsFixed k) drainQueue := fun _ hs => hs

lemma fixed_forwardLoop (frames : List Frame) :
    ∀ fx, Keeps (IsFixed k) (forwardLoop frames fx) := by
  induction frames with
  | nil => exact fun fx => Keeps.pure fx
  | cons f fs ih =>
    intro fx
    refine Keeps.bind Keeps.get fun s => ?_
    dsimp only
    split
    · refine Keeps.bind (Keeps.modify fun _ hs => hs) fun _ => ?_
      refine Keeps.bind (fixed_ofRecord _) fun stripped => ?_
      split
      · exact ih fx
      · exact Keeps.bind (Keeps.modify fun _ hs => hs) fun _ => Keeps.bind (fixed_push _ _ _) ih
    · refine Keeps.bind (Keeps.pure _) fun stripped => ?_
      split
      · exact ih fx
      · exact Keeps.bind (Keeps.modify fun _ hs => hs) fun _ => Keeps.bind (fixed_push _ _ _) ih

/-! ## Steps -/

lemma fixed_takeProvenance (keyframe : Bool) (fx : StepEffects) :
    Keeps (IsFixed k) (takeProvenance keyframe fx) := by
  refine Keeps.ite (Keeps.bind Keeps.get fun s => ?_) (Keeps.pure fx)
  exact Keeps.bind (Keeps.modify fun _ hs => hs) fun _ => fixed_pushProvenance _ fx

lemma fixed_noticeDrops (fx : StepEffects) : Keeps (IsFixed k) (noticeDrops fx) := by
  refine Keeps.bind Keeps.get fun s => Keeps.ite (Keeps.pure fx) ?_
  split
  · exact Keeps.pure fx
  · exact Keeps.bind (Keeps.modify fun _ hs => hs) fun _ => Keeps.pure _

lemma fixed_pushSnapshot (out : StepOutput) : Keeps (IsFixed k) (pushSnapshot out) := by
  refine Keeps.bind (Keeps.modify fun _ hs => hs) fun _ => ?_
  refine Keeps.bind (fixed_snapshotFrame _) fun p => Keeps.bind Keeps.get fun s => ?_
  refine Keeps.bind (Keeps.modify fun _ hs => hs) fun _ => ?_
  exact Keeps.bind (fixed_push _ _ _) fun fx => Keeps.pure _

lemma fixed_pushRows (out : StepOutput) (fx : StepEffects) :
    Keeps (IsFixed k) (pushRows out fx) := by
  refine Keeps.bind (fixed_telemetryFrame out) fun telemetry => ?_
  refine Keeps.bind (fixed_pushOption telemetry fx) fun fx => ?_
  refine Keeps.bind (fixed_eventFrames out) fun events => ?_
  refine Keeps.bind (fixed_pushAll events fx) fun fx => ?_
  exact Keeps.bind (fixed_metricFrame out) fun metric => fixed_pushOption metric fx

lemma fixed_encodeFresh (out : StepOutput) : Keeps (IsFixed k) (encodeFresh out) := by
  refine Keeps.bind (fixed_pushSnapshot out) fun p => ?_
  refine Keeps.bind (fixed_takeProvenance p.2 p.1) fun fx => ?_
  refine Keeps.bind (fixed_pushProvenance out.provenance fx) fun fx => ?_
  refine Keeps.bind (fixed_pushRows out fx) fun fx => ?_
  refine Keeps.bind (fixed_noticeDrops fx) fun fx => ?_
  exact Keeps.bind fixed_drainQueue fun frames => Keeps.pure _

/-- **A step** changes nothing that is fixed. -/
theorem fixed_encodeStep (out : StepOutput) : Keeps (IsFixed k) (encodeStep out) := by
  refine Keeps.ite (Keeps.bind Keeps.get fun s => ?_) ?_
  · exact Keeps.ite (Keeps.pure _) (fixed_encodeFresh out)
  · refine Keeps.bind (fixed_forwardLoop out.recorded _) fun fx => ?_
    exact Keeps.bind fixed_drainQueue fun frames => Keeps.pure _

/-! ## Greetings -/

lemma fixed_encodeCurrent (out : StepOutput) : Keeps (IsFixed k) (encodeCurrent out) := by
  refine Keeps.bind (Keeps.modify fun _ hs => hs) fun _ => ?_
  exact Keeps.bind (fixed_encodeStep _) fun fx => Keeps.pure _

lemma fixed_finishHello (body : HelloBody) : Keeps (IsFixed k) (finishHello body) := by
  refine Keeps.bind Keeps.get fun s => Keeps.bind (Keeps.modify fun _ hs => hs) fun _ => ?_
  exact fixed_ofExcept _

lemma fixed_helloFrameWithNodes (d : RunDescriptor) (state : RunState) (simTime : SimTime)
    (token : String) (nodes : Option (List NodeFacts × List String)) :
    Keeps (IsFixed k) (helloFrameWithNodes d state simTime token nodes) := by
  refine Keeps.bind Keeps.get fun s => ?_
  split
  all_goals exact Keeps.bind (Keeps.modify fun _ hs => hs) fun _ => fixed_finishHello _

/-- **A greeting** changes nothing that is fixed. -/
theorem fixed_greet (d : RunDescriptor) (state : RunState)
    (live : Option (List NodeFacts × List String)) (simTime : SimTime)
    (current : Option StepOutput) : Keeps (IsFixed k) (greet d state live simTime current) := by
  refine Keeps.bind Keeps.get fun s => ?_
  refine Keeps.bind (fixed_helloFrameWithNodes d state simTime _ live) fun hello => ?_
  refine Keeps.bind Keeps.get fun s => ?_
  split
  · exact Keeps.ite (Keeps.bind (fixed_encodeCurrent _) fun frames => Keeps.pure _) (Keeps.pure _)
  · exact Keeps.pure _

/-! ## Seeks -/

lemma fixed_seekLoop (outs : List StepOutput) :
    ∀ acc, Keeps (IsFixed k) (seekLoop outs acc) := by
  induction outs with
  | nil => exact fun acc => Keeps.pure acc
  | cons out outs ih =>
    refine fun acc => Keeps.bind ?_ fun p => ih _
    refine Keeps.bind (fixed_snapshotFrame _) fun p => ?_
    exact Keeps.bind (Keeps.modify fun _ hs => hs) fun _ => Keeps.pure _

/-- **A seek** changes nothing that is fixed. -/
theorem fixed_encodeSeek (outs : List StepOutput) : Keeps (IsFixed k) (encodeSeek outs) := by
  refine Keeps.bind Keeps.get fun s => ?_
  split
  · exact Keeps.pure _
  · refine Keeps.bind (Keeps.modify fun _ hs => hs) fun _ => ?_
    refine Keeps.bind (fixed_seekLoop outs _) fun answer => Keeps.bind ?_ fun fs => Keeps.pure _
    refine Keeps.bind (fixed_telemetryFrame _) fun frame => ?_
    split
    · exact Keeps.pure _
    · exact Keeps.bind (Keeps.modify fun _ hs => hs) fun _ => Keeps.pure _

lemma fixed_exec {α : Type} {x : SessionM α} (h : ∀ k, Keeps (IsFixed k) x) (s : Session) :
    (exec x s).2.fixed = s.fixed :=
  (h s.fixed).exec (s := s) rfl

end Session

end V2xw.Server
