import Mathlib.Data.List.Forall2
import V2xw.Server.Resume

/-!
# String ids

Frames of provenance name strings by their id in the symbol table of the connection. A client builds
that table from its `Hello` and from the strings that provenance appends. The ids of a run are
numbered against the table of the run, which does not have the token and the labels that a `Hello`
appended: the session moves the ids of a run that is produced, and forwards those of a recording as
they are.

## Main definitions

* `Reading`, `Resolves` — ids that mean the same in two tables.
* `Link`, `links` — a connection and the table its client has built.
* `Legible` — the groups of a recording whose ids survive the forwarding.

## Main results

* `ids_resolve` — ids resolve to what they were numbered for.
* `ids_misread` — a recording of which they do not.
-/

namespace V2xw.Server

open Record (SimTime MsgType)
open Stream.Proc

/-! ## Readings -/

/-- The provenance that a body is, in a frame of a message type. -/
def Body.read (kind : Option MsgType) (body : Body) : Option ProvenanceBody :=
  match kind, body with
  | some .provenance, .provenance b => some b
  | _, _ => none

/-- The provenance a frame carries. -/
def Frame.provenance (f : Frame) : Option ProvenanceBody := Body.read f.kind f.body

/-- The provenance that frames carry. -/
def provenances (fs : List Frame) : List ProvenanceBody := fs.filterMap Frame.provenance

/-- Provenance with the symbol table before it. -/
structure Reading where
  table : List String
  body : ProvenanceBody
  deriving DecidableEq

/-- The string an id denotes: the body extends the table. -/
def Reading.denotes (r : Reading) (id : UInt32) : Option String :=
  (r.table ++ r.body.extension)[id.toNat]?

/-- Bodies read one after the other. -/
def readings : List String → List ProvenanceBody → List Reading
  | _, [] => []
  | table, b :: bs => ⟨table, b⟩ :: readings (table ++ b.extension) bs

/-- The table after some bodies. -/
def tableAfter (table : List String) (bs : List ProvenanceBody) : List String :=
  table ++ bs.flatMap ProvenanceBody.extension

/-- **The ids mean the same on both ends**: each id the client reads denotes what the id in its
place was numbered for. -/
def Resolves (read numbered : Reading) : Prop :=
  List.Forall₂ (fun id id' => ∀ x, numbered.denotes id' = some x → read.denotes id = some x)
    read.body.ids numbered.body.ids

/-- What is read resolves, in order, to what was numbered, of which some may be missing. -/
def AllResolve (read numbered : List Reading) : Prop := List.SublistForall₂ Resolves read numbered

/-! ## Connections -/

/-- A run as a session is told of it. -/
structure ServedRun where
  descriptor : RunDescriptor
  /-- The groups of frames of a recording; none for a run that is produced. -/
  recording : List (List Frame)
  /-- Provenance is either in the recording or told with the run. -/
  apart : recording = [] ∨ descriptor.provenance = none

namespace ServedRun

variable (run : ServedRun)

/-- The symbol table of the run. -/
def strings : List String := run.descriptor.hello.strings.strings

/-- The provenance of a recorded group. -/
def group (i : ℕ) : List ProvenanceBody := provenances (run.recording[i]?.getD [])

/-- The table a recorded group was numbered against. -/
def tableAt (i : ℕ) : List String :=
  tableAfter run.strings (provenances (run.recording.take i).flatten)

/-- The provenance of the run, numbered against its table. -/
def told : List Reading := run.descriptor.provenance.toList.map (Reading.mk run.strings)

/-- An output of an engine: provenance is told with the run, and nothing is recorded. -/
def live (out : StepOutput) : StepOutput := { out with provenance := none, recorded := [] }

/-- A recorded group as an output. -/
def output (i : ℕ) (endOfRun : Bool) : StepOutput :=
  { StepOutput.default with recorded := run.recording[i]?.getD [], endOfRun }

end ServedRun

/-- A connection, with the symbol table its client has built. -/
structure Link where
  session : Session
  run : ServedRun
  client : List String

/-- What happens on a connection. -/
inductive LinkCall
  /-- A client attaches, or comes back to its session. -/
  | attach (resume : Option ℕ) (state : RunState) (simTime : SimTime)
      (nodes : Option (List NodeFacts × List String))
  /-- The run is replaced by another one. -/
  | regreet (run : ServedRun) (generation : ℕ) (state : RunState) (simTime : SimTime)
      (nodes : Option (List NodeFacts × List String))
  /-- A step of a run that is produced. -/
  | encodeStep (out : StepOutput)
  /-- The state at the stream position. -/
  | encodeCurrent (out : StepOutput)
  | forwardRecorded (i : ℕ) (endOfRun : Bool)
  | encodeSeek (outs : List StepOutput)
  /-- The connection fell behind. -/
  | requestResync
  /-- A node is followed, or none. -/
  | follow (node : Option UInt32) (clear telemetry : Bool) (extra : List UInt32)
  /-- Event channels are subscribed. -/
  | setEvents (names unsubscribe : List String) (only : Option (List String))
      (nodes : Option (List UInt32)) (sample1In maxEventsPerStep : Option ℕ)

/-- The provenance a call hands to the session, and the provenance the client reads. -/
structure Exchange where
  numbered : List Reading
  read : List Reading
  deriving DecidableEq

namespace Link

variable (t : Link)

/-- A handshake. A client that is resumed keeps its table, and any other starts over from the one
of its `Hello`. -/
def greet (s : Session) (run : ServedRun) (state : RunState) (simTime : SimTime)
    (nodes : Option (List NodeFacts × List String)) : Except ServerError (Exchange × Link) :=
  match exec (Session.helloFrameWithNodes run.descriptor state simTime s.sessionToken nodes) s with
  | (.ok f, s) =>
    .ok (⟨[], []⟩, ⟨s, run, if s.resumed then t.client else
      match f.body with
      | .hello b => b.strings.strings
      | _ => []⟩)
  | (.error e, _) => .error e

/-- Runs a procedure of the session, and reads the frames it sends. -/
def act {α : Type} (numbered : List Reading) (x : SessionM α) (frames : α → List Frame) :
    Exchange × Link :=
  let bodies :=
    match (exec x t.session).1 with
    | .ok a => provenances (frames a)
    | .error _ => []
  (⟨numbered, readings t.client bodies⟩,
    { t with session := (exec x t.session).2, client := tableAfter t.client bodies })

end Link

/-- A connection to a run. A handshake that fails ends it, and a recording is not encoded. -/
def links (params : ConnectParams) (run : ServedRun) (generation : ℕ) (token : String) :
    Machine Link LinkCall Exchange ServerError where
  init := ⟨(Session.new params run.descriptor).bind generation token, run, run.strings⟩
  step t
    | .attach resume state simTime nodes =>
      t.greet (t.session.reattach resume) t.run state simTime nodes
    | .regreet run generation state simTime nodes =>
      t.greet { t.session.forNewRun run.descriptor with generation } run state simTime nodes
    | .encodeStep out =>
      if t.run.recording = [] then
        .ok (t.act t.run.told (Session.encodeStep (ServedRun.live out)) StepEffects.frames)
      else .error (.internal (.malformed "replay" "a recording is forwarded"))
    | .encodeCurrent out =>
      if t.run.recording = [] then
        .ok (t.act t.run.told (Session.encodeCurrent (ServedRun.live out)) fun frames => frames)
      else .error (.internal (.malformed "replay" "a recording is forwarded"))
    | .forwardRecorded i endOfRun =>
      .ok (t.act (readings (t.run.tableAt i) (t.run.group i))
        (Session.forwardRecorded (t.run.output i endOfRun)) StepEffects.frames)
    | .encodeSeek outs => .ok (t.act [] (Session.encodeSeek outs) Session.SeekAnswer.frames)
    | .requestResync => .ok (⟨[], []⟩, { t with session := t.session.requestResync })
    | .follow node clear telemetry extra =>
      .ok (⟨[], []⟩, { t with session := t.session.follow node clear telemetry extra })
    | .setEvents names unsubscribe only nodes sample1In maxEventsPerStep =>
      .ok (t.act [] (Session.setEvents names unsubscribe only nodes sample1In maxEventsPerStep)
        fun _ => [])

/-! ## Tables -/

namespace StrTable

lemma intern_prefix (t : StrTable) (x : String) : t.strings <+: (t.intern x).2.strings := by
  unfold intern
  split
  · exact List.prefix_refl _
  · exact List.prefix_append _ _

end StrTable

namespace Session

lemma internNodes_isPrefix (nodes : List NodeFacts) :
    ∀ t : StrTable, t.strings <+: (internNodes nodes t).2.strings := by
  induction nodes with
  | nil => exact fun t => List.prefix_refl _
  | cons n nodes ih =>
    intro t
    exact (t.intern_prefix n.label).trans
      ((StrTable.intern_prefix _ n.profileId).trans (ih _))

/-- **A fresh `Hello`** has the table of the run, with strings of its own after it. -/
lemma freshStrings_prefix (d : RunDescriptor) (token : String)
    (nodes : Option (List NodeFacts × List String)) :
    d.hello.strings.strings <+: (freshStrings d token nodes).strings := by
  refine List.IsPrefix.trans ?_ (StrTable.intern_prefix _ token)
  cases nodes with
  | none => exact List.prefix_refl _
  | some nodes =>
    refine List.IsPrefix.trans ?_ (internNodes_isPrefix nodes.1 _)
    generalize d.hello.strings = t
    induction nodes.2 generalizing t with
    | nil => exact List.prefix_refl _
    | cons x appended ih => exact (t.intern_prefix x).trans (ih _)

end Session

lemma ProvenanceBody.ids_mapIds (f : UInt32 → UInt32) (b : ProvenanceBody) :
    (b.mapIds f).ids = b.ids.map f := by
  simp only [ids, mapIds, List.map_append, List.flatMap_map, List.map_flatMap, List.map_map]
  rfl

lemma ProvenanceBody.length_extension_lt {b : ProvenanceBody} (h : b.encodedLen < 2 ^ 32) :
    b.extension.length < 2 ^ 30 := by
  unfold encodedLen at h
  unfold extension
  cases hs : b.strings with
  | none => decide
  | some t =>
    rw [hs] at h
    show t.strings.length < 2 ^ 30
    simp only [StrTable.encodedLen] at h
    omega

lemma HelloBody.length_strings_lt {b : HelloBody} (h : b.encodedLen < 2 ^ 32) :
    b.strings.strings.length < 2 ^ 30 := by
  simp only [encodedLen, StrTable.encodedLen] at h
  omega

lemma getElem?_append_of_isPrefix {common table rest : List String} (h : common <+: table) {i : ℕ}
    (hi : i < common.length) : (table ++ rest)[i]? = common[i]? := by
  obtain ⟨tail, rfl⟩ := h
  rw [List.append_assoc, List.getElem?_append_left hi]

/-- **Moved ids resolve**: what a body of the run appends comes after what the `Hello` appended. -/
lemma resolves_moved {base table : List String} {b b' : ProvenanceBody} (hpre : base <+: table)
    (htable : table.length < 2 ^ 31) (hlen : b.encodedLen < 2 ^ 32)
    (hb' : b' = b.mapIds (Session.bumpId base.length (table.length - base.length))) :
    Resolves ⟨table, b'⟩ ⟨base, b⟩ := by
  subst hb'
  unfold Resolves
  rw [ProvenanceBody.ids_mapIds, List.forall₂_map_left_iff]
  refine List.forall₂_same.2 fun id _ x hx => ?_
  have hext := ProvenanceBody.length_extension_lt hlen
  have hle := hpre.length_le
  simp only [Reading.denotes, ProvenanceBody.extension_mapIds] at hx ⊢
  have hid : id.toNat < base.length + b.extension.length := by
    obtain ⟨h, _⟩ := List.getElem?_eq_some_iff.1 hx
    rwa [List.length_append] at h
  unfold Session.bumpId
  rw [if_pos (show base.length < 2 ^ 32 by omega),
    if_pos (show table.length - base.length < 2 ^ 32 by omega)]
  dsimp only
  split_ifs with hbase
  · -- The id points past the table of the run, into the extension.
    rw [Record.toNat_ofNat_of_lt (by omega), Nat.min_eq_left (by omega),
      List.getElem?_append_right (by omega)]
    rw [List.getElem?_append_right hbase] at hx
    rw [← hx]
    congr 1
    omega
  · rw [getElem?_append_of_isPrefix hpre (by omega)]
    rw [List.getElem?_append_left (by omega)] at hx
    exact hx

/-! ## Frames without provenance -/

lemma Body.read_of_kind {kind : Option MsgType} (h : kind ≠ some .provenance)
    (body : Body) : Body.read kind body = none := by
  unfold Body.read
  split
  · exact absurd rfl h
  · rfl

lemma Body.read_of_body (kind : Option MsgType) {body : Body}
    (h : ∀ b, body ≠ .provenance b) : Body.read kind body = none := by
  unfold Body.read
  split
  next b => exact absurd rfl (h b)
  · rfl

lemma Body.read_event (kind : Option MsgType) (b : EventBody) :
    Body.read kind (.event b) = none := Body.read_of_body kind fun _ => nofun

namespace Session

section Plain

variable {P : Session → Prop} (hP : ∀ s seq, P s → P { s with seq })

/-- A frame of another type carries no provenance. -/
lemma plain_toFrame {kind : MsgType} (hkind : kind ≠ .provenance) (seq : ℕ) (flags : UInt16)
    (body : Body) :
    Triple P (ofExcept (toFrame kind seq flags body)) (fun f s => P s ∧ f.provenance = none) P := by
  intro s hs
  rw [exec_ofExcept]
  cases h : toFrame kind seq flags body with
  | error e => exact hs
  | ok f =>
    obtain ⟨_, rfl⟩ := toFrame_eq_ok.1 h
    refine ⟨hs, ?_⟩
    unfold Frame.provenance Frame.kind
    rw [MsgType.fromId_id]
    exact Body.read_of_kind (fun hk => hkind (Option.some.inj hk)) body

include hP

lemma plain_telemetryFrame (out : StepOutput) :
    Triple P (telemetryFrame out) (fun f s => P s ∧ ∀ g ∈ f, g.provenance = none) P := by
  refine Triple.bind_get fun s hs => ?_
  dsimp only
  split
  · exact Triple.pure fun t ht => ⟨ht ▸ hs, fun g hg => absurd hg (Option.not_mem_none g)⟩
  · refine Triple.bind (Q := fun _ => P) (fun t ht => hP t _ (ht ▸ hs)) fun n => ?_
    refine Triple.bind (plain_toFrame (by decide) _ _ _) fun f => ?_
    exact Triple.pure fun t ht => ⟨ht.1, fun g hg => Option.mem_some.1 hg ▸ ht.2⟩

lemma plain_eventFrames (out : StepOutput) :
    Triple P (eventFrames out) (fun fs s => P s ∧ ∀ g ∈ fs, g.provenance = none) P := by
  refine Triple.bind_get fun s hs => ?_
  dsimp only
  split
  · exact Triple.pure fun t ht => ⟨ht ▸ hs, fun g hg => absurd hg List.not_mem_nil⟩
  · split
    · exact Triple.pure fun t ht => ⟨ht ▸ hs, fun g hg => absurd hg List.not_mem_nil⟩
    · refine Triple.bind (Q := fun _ => P) (fun t ht => hP t _ (ht ▸ hs)) fun n => ?_
      refine Triple.bind (plain_toFrame (by decide) _ _ _) fun f => ?_
      exact Triple.pure fun t ht => ⟨ht.1, fun g hg => List.mem_singleton.1 hg ▸ ht.2⟩

lemma plain_metricFrame (out : StepOutput) :
    Triple P (metricFrame out) (fun f s => P s ∧ ∀ g ∈ f, g.provenance = none) P := by
  refine Triple.bind_get fun s hs => ?_
  dsimp only
  split
  · exact Triple.pure fun t ht => ⟨ht ▸ hs, fun g hg => absurd hg (Option.not_mem_none g)⟩
  · refine Triple.bind (Q := fun _ => P) (fun t ht => hP t _ (ht ▸ hs)) fun n => ?_
    refine Triple.bind (plain_toFrame (by decide) _ _ _) fun f => ?_
    exact Triple.pure fun t ht => ⟨ht.1, fun g hg => Option.mem_some.1 hg ▸ ht.2⟩

end Plain

/-- A snapshot carries no provenance. -/
lemma plain_snapshotFrame {P : Session → Prop}
    (hP : ∀ s encoder seq, P s → P { s with encoder, seq }) (snap : Record.Snapshot) :
    Triple P (snapshotFrame snap) (fun p s => P s ∧ p.1.provenance = none) P := by
  intro s hs
  unfold snapshotFrame
  simp only [exec_bind, exec_get, exec_modify]
  cases henc : s.encoder.encode snap with
  | mk outcome encoder =>
    cases outcome with
    | error e => exact hP s _ s.seq hs
    | ok f =>
      obtain ⟨flags, seq, bytes, hf⟩ := Frame.ofRecord_encode henc
      simp only [ofRecord, exec_pure, exec_takeSeq, hf]
      refine ⟨hP s _ _ hs, ?_⟩
      exact Body.read_of_body _ fun b h => by cases h

/-! ## Runs that are produced -/

variable {run : ServedRun} {client : List String}

/-- The provenance of the run is still to be sent, and the session has the table of its client. -/
def Untold (run : ServedRun) (client : List String) (s : Session) : Prop :=
  s.provenance = run.descriptor.provenance ∧ s.strings.strings = client ∧
    run.strings <+: client ∧ (client = run.strings ∨ client.length < 2 ^ 31) ∧
    provenances s.queue.frames = []

/-- The provenance of the run was taken, and resolves if it is still queued. -/
def Spoken (run : ServedRun) (client : List String) (s : Session) : Prop :=
  s.provenance = none ∧
    ∀ bs, bs.Sublist (provenances s.queue.frames) → AllResolve (readings client bs) run.told

/-- What the session and its client know of the provenance of the run. -/
def Told (run : ServedRun) (client : List String) (s : Session) : Prop :=
  s.helloBase = run.strings.length ∧ (s.Untold run client ∨ s.Spoken run client)

lemma filterMap_singleton {α β : Type} (g : α → Option β) (a : α) :
    [a].filterMap g = (g a).toList := by
  cases h : g a with
  | none => rw [List.filterMap_cons_none h]; rfl
  | some b => rw [List.filterMap_cons_some h]; rfl

lemma provenances_enqueue (q : SendQueue) (f : Frame) :
    (provenances (q.enqueue f).2.frames).Sublist (provenances q.frames ++ f.provenance.toList) := by
  have h := (q.enqueue_sublist f).filterMap Frame.provenance
  rwa [List.filterMap_append, filterMap_singleton] at h

lemma told_push {f : Frame} (hf : f.provenance = none) (keyframe : Bool) (fx : StepEffects)
    {E : Session → Prop} :
    Triple (Told run client) (push f keyframe fx) (fun _ => Told run client) E := by
  rintro s ⟨hbase, hs⟩
  have hsub := provenances_enqueue s.queue f
  rw [hf, Option.toList_none, List.append_nil] at hsub
  refine ⟨hbase, ?_⟩
  rcases hs with ⟨hprov, hstrings, hpre, hlen, hqueue⟩ | ⟨hprov, hqueue⟩
  · rw [hqueue] at hsub
    exact .inl ⟨hprov, hstrings, hpre, hlen, List.sublist_nil.1 hsub⟩
  · exact .inr ⟨hprov, fun bs hbs => hqueue bs (hbs.trans hsub)⟩

lemma told_pushOption {f : Option Frame} (hf : ∀ g ∈ f, g.provenance = none) (fx : StepEffects)
    {E : Session → Prop} :
    Triple (Told run client) (pushOption f fx) (fun _ => Told run client) E := by
  cases f with
  | none => exact Triple.pure fun s hs => hs
  | some f => exact told_push (hf f rfl) false fx

lemma told_pushAll {fs : List Frame} (hfs : ∀ g ∈ fs, g.provenance = none) {E : Session → Prop} :
    ∀ fx, Triple (Told run client) (pushAll fs fx) (fun _ => Told run client) E := by
  induction fs with
  | nil => exact fun fx => Triple.pure fun s hs => hs
  | cons f fs ih =>
    exact fun fx => Triple.bind (told_push (hfs f List.mem_cons_self) false fx) fun fx =>
      ih (fun g hg => hfs g (List.mem_cons_of_mem _ hg)) fx

lemma bind_plain {α β : Type} {P : Session → Prop} {F : α → Prop} {E : Session → Prop}
    {R : β → Session → Prop} {x : SessionM α} {f : α → SessionM β}
    (hx : Triple P x (fun a s => P s ∧ F a) E) (hf : ∀ a, F a → Triple P (f a) R E) :
    Triple P (x >>= f) R E :=
  Triple.bind hx fun a s hs => hf a hs.2 s hs.1

lemma told_pushRows (out : StepOutput) (fx : StepEffects) :
    Triple (Told run client) (pushRows out fx) (fun _ => Told run client) (Told run client) := by
  refine bind_plain (plain_telemetryFrame (fun s seq hs => hs) out) fun telemetry ht => ?_
  refine Triple.bind (told_pushOption ht fx) fun fx => ?_
  refine bind_plain (plain_eventFrames (fun s seq hs => hs) out) fun events he => ?_
  refine Triple.bind (told_pushAll he fx) fun fx => ?_
  exact bind_plain (plain_metricFrame (fun s seq hs => hs) out) fun metric hm =>
    told_pushOption hm fx

lemma told_pushSnapshot (out : StepOutput) :
    Triple (Told run client) (pushSnapshot out) (fun _ => Told run client) (Told run client) := by
  refine Triple.bind (Q := fun _ => Told run client) (fun s hs => hs) fun _ => ?_
  refine bind_plain (plain_snapshotFrame (fun s encoder seq hs => hs) _) fun p hp => ?_
  refine Triple.bind_get fun s hs => ?_
  refine Triple.bind (Q := fun _ => Told run client) (fun t ht => ht ▸ hs) fun _ => ?_
  have hframe : (stepFrame p.1 (p.2 && s.resyncPending) out.endOfRun).provenance = none := by
    unfold stepFrame
    dsimp only
    split <;> split <;> exact hp
  exact Triple.bind (told_push hframe _ _) fun fx => Triple.pure fun t ht => ht

/-- The frame of the provenance of the run resolves. -/
lemma exec_provenanceFrame {s : Session} {b : ProvenanceBody}
    (hbase : s.helloBase = run.strings.length) (hpre : run.strings <+: s.strings.strings)
    (hlen : s.strings.strings = run.strings ∨ s.strings.strings.length < 2 ^ 31) :
    ∃ outcome strings marks seq, exec (provenanceFrame b) s =
      (outcome, { s with strings, stringMarks := marks, seq }) ∧
      ∀ f, outcome = .ok f → ∃ b', f.provenance = some b' ∧
        Resolves ⟨s.strings.strings, b'⟩ ⟨run.strings, b⟩ := by
  unfold provenanceFrame
  cases hstr : b.strings with
  | none =>
    simp only [exec_bind, exec_get, exec_takeSeq, exec_ofExcept]
    refine ⟨_, s.strings, s.stringMarks, _, rfl, fun f hf => ?_⟩
    obtain ⟨_, rfl⟩ := toFrame_eq_ok.1 hf
    refine ⟨b, rfl, List.forall₂_same.2 fun id _ x hx => ?_⟩
    have hext : b.extension = [] := by rw [ProvenanceBody.extension, hstr]
    simp only [Reading.denotes, hext, List.append_nil] at hx ⊢
    obtain ⟨hi, _⟩ := List.getElem?_eq_some_iff.1 hx
    rw [← hx, ← getElem?_append_of_isPrefix hpre hi, List.append_nil]
  | some ext =>
    simp only [exec_bind, exec_get, exec_modify, exec_takeSeq, exec_ofExcept]
    refine ⟨_, _, _, _, rfl, fun f hf => ?_⟩
    obtain ⟨hfit, rfl⟩ := toFrame_eq_ok.1 hf
    refine ⟨_, rfl, ?_⟩
    split
    next hshift =>
      rw [hbase] at hshift ⊢
      refine resolves_moved hpre ?_ ?_ rfl
      · rcases hlen with hlen | hlen
        · rw [hlen, Nat.sub_self] at hshift
          exact absurd hshift (Nat.lt_irrefl 0)
        · exact hlen
      · rw [if_pos (hbase ▸ hshift)] at hfit
        rw [← ProvenanceBody.encodedLen_mapIds]
        exact hfit
    next hshift =>
      have heq : s.strings.strings = run.strings := by
        refine (hpre.eq_of_length ?_).symm
        have hle := hpre.length_le
        omega
      rw [heq]
      exact List.forall₂_same.2 fun id _ x hx => hx

lemma allResolve_nil {numbered : List Reading} : AllResolve [] numbered := .nil

/-- **The first keyframe** brings the provenance of the run with it, and it resolves. -/
lemma told_takeProvenance (keyframe : Bool) (fx : StepEffects) :
    Triple (Told run client) (takeProvenance keyframe fx) (fun _ => Told run client)
      (Told run client) := by
  unfold takeProvenance
  split
  · rintro s ⟨hbase, hs⟩
    simp only [exec_bind, exec_get, exec_modify]
    cases hp : s.provenance with
    | none =>
      refine ⟨hbase, ?_⟩
      rcases hs with ⟨hprov, hs⟩ | ⟨_, hqueue⟩
      · exact .inl ⟨hp ▸ hprov, hs⟩
      · exact .inr ⟨rfl, hqueue⟩
    | some b =>
      rcases hs with ⟨hprov, rfl, hpre, hlen, hqueue⟩ | ⟨hprov, _⟩
      · have hexec := @exec_provenanceFrame run { s with provenance := none } b hbase hpre hlen
        obtain ⟨outcome, strings, marks, seq, hexec, hf⟩ := hexec
        simp only [pushProvenance, exec_bind, hexec]
        cases outcome with
        | error e =>
          refine ⟨hbase, .inr ⟨rfl, fun bs hbs => ?_⟩⟩
          rw [show provenances _ = [] from hqueue, List.sublist_nil] at hbs
          rw [hbs]
          exact allResolve_nil
        | ok f =>
          obtain ⟨b', hb', hresolves⟩ := hf f rfl
          refine ⟨hbase, .inr ⟨rfl, fun bs hbs => ?_⟩⟩
          -- At most the frame just made is queued.
          have hsub := hbs.trans (provenances_enqueue s.queue f)
          rw [hqueue, hb', List.nil_append] at hsub
          rcases List.sublist_singleton.1 hsub with rfl | rfl
          · exact allResolve_nil
          · have htold : run.told = [⟨run.strings, b⟩] := by
              rw [ServedRun.told, ← hprov, hp]
              rfl
            rw [htold]
            exact .cons hresolves .nil
      · rw [hprov] at hp
        cases hp
  · exact Triple.pure fun s hs => hs

lemma told_noticeDrops (fx : StepEffects) {E : Session → Prop} :
    Triple (Told run client) (noticeDrops fx) (fun _ => Told run client) E := by
  refine Triple.bind_get fun s hs => ?_
  split
  · exact Triple.pure fun t ht => ht ▸ hs
  · split
    · exact Triple.pure fun t ht => ht ▸ hs
    · exact Triple.bind (Q := fun _ => Told run client) (fun t ht => ht ▸ hs) fun _ =>
        Triple.pure fun t ht => ht

/-- What a client reads of some frames resolves, and it has the table after them. -/
def Delivered (run : ServedRun) (client : List String) (fs : List Frame) (s : Session) : Prop :=
  AllResolve (readings client (provenances fs)) run.told ∧
    Told run (tableAfter client (provenances fs)) s

lemma Told.delivered {s : Session} (h : s.Told run client) : s.Delivered run client [] := by
  refine ⟨allResolve_nil, ?_⟩
  rw [show tableAfter client (provenances []) = client from List.append_nil _]
  exact h

/-- Handing over what is queued. -/
lemma told_drainQueue {E : Session → Prop} :
    Triple (Told run client) drainQueue (fun fs => Delivered run client fs) E := by
  rintro s ⟨hbase, hs⟩
  rcases hs with ⟨hprov, hstrings, hpre, hlen, hqueue⟩ | ⟨hprov, hqueue⟩
  · have hnone : provenances (s.queue.items.map Queued.frame) = [] := hqueue
    have htable : tableAfter client (provenances (s.queue.items.map Queued.frame)) = client := by
      rw [hnone]
      exact List.append_nil _
    show Delivered run client (s.queue.items.map Queued.frame) _
    unfold Delivered
    rw [htable, hnone]
    exact ⟨allResolve_nil, hbase, .inl ⟨hprov, hstrings, hpre, hlen, rfl⟩⟩
  · refine ⟨hqueue _ (List.Sublist.refl _), hbase, .inr ⟨hprov, fun bs hbs => ?_⟩⟩
    rw [List.sublist_nil.1 hbs]
    exact allResolve_nil

/-- **A step** of a run that is produced. -/
lemma told_encodeStep (out : StepOutput) :
    Triple (Told run client) (encodeStep (ServedRun.live out))
      (fun fx => Delivered run client fx.frames) (Told run client) := by
  unfold encodeStep
  rw [show (ServedRun.live out).recorded.isEmpty = true from rfl, if_pos rfl]
  refine Triple.bind_get fun s hs => ?_
  split
  · exact Triple.pure fun t ht => Told.delivered (ht ▸ hs)
  · refine Triple.bind ((told_pushSnapshot _).pre fun t ht => ht ▸ hs) fun p => ?_
    refine Triple.bind (told_takeProvenance _ _) fun fx => ?_
    refine Triple.bind (Q := fun _ => Told run client) (Triple.pure fun t ht => ht) fun fx => ?_
    refine Triple.bind (told_pushRows _ fx) fun fx => ?_
    refine Triple.bind (told_noticeDrops fx) fun fx => ?_
    exact Triple.bind told_drainQueue fun frames => Triple.pure fun t ht => ht

/-- **The greeting** of a run that is produced. -/
lemma told_encodeCurrent (out : StepOutput) :
    Triple (Told run client) (encodeCurrent (ServedRun.live out))
      (fun fs => Delivered run client fs) (Told run client) := by
  refine Triple.bind (Q := fun _ => Told run client) (fun s hs => hs) fun _ => ?_
  exact Triple.bind (told_encodeStep { out with events := [], metrics := [], endOfRun := false })
    fun fx => Triple.pure fun s hs => hs

/-! ## Seeks -/

section Seeks

variable {P : Session → Prop}
  (hP : ∀ s encoder seq ring produced, P s → P { s with encoder, seq, ring, produced })

include hP

/-- The snapshots of a seek carry no provenance. -/
lemma plain_seekLoop (outs : List StepOutput) :
    ∀ acc, provenances acc.frames = [] →
      Triple P (seekLoop outs acc) (fun a s => P s ∧ provenances a.frames = []) P := by
  induction outs with
  | nil => exact fun acc hacc => Triple.pure fun s hs => ⟨hs, hacc⟩
  | cons out outs ih =>
    intro acc hacc
    have hframe : Triple P (seekFrame out) (fun p s => P s ∧ p.1.provenance = none) P := by
      refine bind_plain (plain_snapshotFrame (fun s encoder seq hs =>
        hP s encoder seq s.ring s.produced hs) _) fun p hp => ?_
      refine Triple.bind (Q := fun _ => P) (fun s hs => hP s s.encoder s.seq _ _ hs) fun _ => ?_
      refine Triple.pure fun s hs => ⟨hs, ?_⟩
      unfold seekMarked
      split <;> exact hp
    refine bind_plain hframe fun p hp => ih _ ?_
    show (acc.frames ++ [p.1]).filterMap Frame.provenance = []
    rw [List.filterMap_append, List.filterMap_cons_none hp]
    exact List.append_eq_nil_iff.2 ⟨hacc, rfl⟩

/-- The answer to a seek carries no provenance. -/
lemma plain_encodeSeek (outs : List StepOutput) :
    Triple P (encodeSeek outs) (fun a s => P s ∧ provenances a.frames = []) P := by
  refine Triple.bind_get fun s hs => ?_
  split
  · exact Triple.pure fun t ht => ⟨ht ▸ hs, rfl⟩
  next last _ =>
    refine Triple.bind (Q := fun _ => P)
      (fun t ht => hP t _ t.seq t.ring t.produced (ht ▸ hs)) fun _ => ?_
    refine bind_plain (plain_seekLoop hP outs _ rfl) fun answer hanswer => ?_
    have hcompanion : Triple P (seekCompanion last)
        (fun fs s => P s ∧ provenances fs = []) P := by
      refine bind_plain (plain_telemetryFrame (fun s seq hs =>
        hP s s.encoder seq s.ring s.produced hs) last) fun f hf => ?_
      cases f with
      | none => exact Triple.pure fun t ht => ⟨ht, rfl⟩
      | some f =>
        refine Triple.bind (Q := fun _ => P)
          (fun t ht => hP t t.encoder t.seq t.ring _ ht) fun _ => ?_
        refine Triple.pure fun t ht => ⟨ht, ?_⟩
        exact List.filterMap_cons_none (show (f.withFlags _).provenance = none from hf f rfl)
    refine bind_plain hcompanion fun companion hc => Triple.pure fun t ht => ⟨ht, ?_⟩
    show (answer.frames ++ companion).filterMap Frame.provenance = []
    rw [List.filterMap_append]
    exact List.append_eq_nil_iff.2 ⟨hanswer, hc⟩

end Seeks

/-! ## Recordings -/

lemma checkLen_eq_ok {body : Body} {o : Option Body} (h : (checkLen body).map some = .ok o) :
    o = some body := by
  unfold checkLen at h
  split_ifs at h <;> cases h
  rfl

/-- Blanking a body neither adds provenance nor takes it away. -/
lemma stripBody_provenance {st st' : Record.NodeProfileStripper} {kind : Option MsgType}
    {body : Body} {o : Option Body} (h : stripBody st kind body = (.ok o, st')) :
    o.toList.filterMap (Body.read kind) = (Body.read kind body).toList := by
  -- A body that is blanked is no provenance before or after.
  have hblank : ∀ {body' : Body}, (checkLen body').map some = .ok o →
      (∀ b, body ≠ .provenance b) → (∀ b, body' ≠ .provenance b) →
      o.toList.filterMap (Body.read kind) = (Body.read kind body).toList := by
    intro body' hcheck hbody hbody'
    rw [checkLen_eq_ok hcheck, Body.read_of_body kind hbody]
    exact List.filterMap_cons_none (Body.read_of_body kind hbody')
  unfold stripBody at h
  split at h
  · split at h
    · exact hblank (congrArg Prod.fst h) (fun b => nofun) fun b => nofun
    · cases h
  · split at h
    · exact hblank (congrArg Prod.fst h) (fun b => nofun) fun b => nofun
    · cases h
  · exact hblank (congrArg Prod.fst h) (fun b => nofun) fun b => nofun
  · exact hblank (congrArg Prod.fst h) (fun b => nofun) fun b => nofun
  · exact hblank (congrArg Prod.fst h) (fun b => nofun) fun b => nofun
  · split at h
    · obtain ⟨ho, _⟩ := Prod.mk.inj h
      cases ho
      rw [Body.read_event]
      rfl
    · exact hblank (congrArg Prod.fst h) (fun b => nofun) fun b => nofun
  · obtain ⟨ho, _⟩ := Prod.mk.inj h
    cases ho
    exact filterMap_singleton _ body

/-- Blanking neither adds provenance nor takes it away. -/
lemma stripFrame_provenance {st st' : Record.NodeProfileStripper} {f : Frame} {o : Option Frame}
    (h : stripFrame st f = (.ok o, st')) :
    o.toList.filterMap Frame.provenance = f.provenance.toList := by
  unfold stripFrame at h
  cases hbody : stripBody st f.kind f.body with
  | mk outcome t =>
    rw [hbody] at h
    cases outcome with
    | error e => cases h
    | ok o' =>
      rw [Frame.provenance, ← stripBody_provenance hbody]
      cases o' with
      | none =>
        obtain ⟨ho, _⟩ := Prod.mk.inj h
        cases ho
        rfl
      | some body =>
        obtain ⟨ho, _⟩ := Prod.mk.inj h
        cases ho
        rfl

/-- What the stripper of a session leaves of a recorded frame. -/
def stripped (stripper : Option Record.NodeProfileStripper) (frame : Frame) :
    SessionM (Option Frame) :=
  match stripper with
  | some stripper => do
    let (outcome, stripper) := stripFrame stripper frame
    modify fun s => { s with stripper := some stripper }
    ofRecord outcome
  | none => pure (some frame)

/-- Queues a recorded frame: a keyframe that was owed is marked. -/
def forwardOne (owed : Bool) (frame : Frame) (fx : StepEffects) : SessionM StepEffects := do
  let keyframe := frame.msgType == MsgType.id .keyframe
  let owed := keyframe && owed
  let frame := if owed then frame.withFlags (frame.flags ||| Record.flagResync) else frame
  modify fun s => { s with resyncPending := s.resyncPending && !owed, seq := frame.seq + 1 }
  push frame keyframe fx

/-- One frame is forwarded, unless it is withheld, and then the others. -/
lemma exec_forwardLoop_cons (frame : Frame) (frames : List Frame) (fx : StepEffects)
    (s : Session) :
    exec (forwardLoop (frame :: frames) fx) s =
      match exec (stripped s.stripper frame) s with
      | (.ok (some g), t) =>
        exec (forwardOne s.resyncPending g fx >>= fun fx => forwardLoop frames fx) t
      | (.ok none, t) => exec (forwardLoop frames fx) t
      | (.error e, t) => (.error e, t) := by
  rw [forwardLoop, exec_bind, exec_get]
  dsimp only
  cases s.stripper with
  | none => rfl
  | some st =>
    cases hstrip : stripFrame st frame with
    | mk outcome st' =>
      simp only [stripped, hstrip, exec_bind, exec_modify]
      cases outcome with
      | error e => rfl
      | ok o => cases o <;> rfl

/-- The stripper keeps provenance, and changes nothing of a session but itself. -/
lemma exec_stripped (frame : Frame) (s : Session) :
    ∃ outcome stripper, exec (stripped s.stripper frame) s = (outcome, { s with stripper }) ∧
      (s.stripper = none → stripper = none ∧ outcome = .ok (some frame)) ∧
      ∀ o, outcome = .ok o →
        o.toList.filterMap Frame.provenance = frame.provenance.toList := by
  cases hst : s.stripper with
  | none =>
    refine ⟨.ok (some frame), s.stripper, rfl, fun _ => ⟨hst, rfl⟩, fun o ho => ?_⟩
    cases ho
    exact filterMap_singleton _ frame
  | some st =>
    cases hstrip : stripFrame st frame with
    | mk outcome st' =>
      simp only [stripped, hstrip, exec_bind, exec_modify]
      cases outcome with
      | error e => exact ⟨_, some st', rfl, nofun, fun o ho => nomatch ho⟩
      | ok o =>
        refine ⟨_, some st', rfl, nofun, fun o' ho => ?_⟩
        cases ho
        exact stripFrame_provenance hstrip

/-- A recorded frame is queued with other flags. -/
lemma exec_forwardOne (owed : Bool) (frame : Frame) (fx : StepEffects) (s : Session) :
    ∃ fx' t flags, exec (forwardOne owed frame fx) s = (.ok fx', t) ∧
      t.provenance = s.provenance ∧ t.stripper = s.stripper ∧
      t.queue = (s.queue.enqueue (frame.withFlags flags)).2 := by
  obtain ⟨flags, hflags⟩ : ∃ flags, (if (frame.msgType == MsgType.id .keyframe && owed) = true then
      frame.withFlags (frame.flags ||| Record.flagResync) else frame) = frame.withFlags flags := by
    split
    · exact ⟨_, rfl⟩
    · exact ⟨frame.flags, rfl⟩
  unfold forwardOne
  dsimp only
  rw [hflags]
  exact ⟨_, _, flags, rfl, rfl, rfl, rfl⟩

lemma provenances_cons (frame : Frame) (frames : List Frame) :
    provenances (frame :: frames) = frame.provenance.toList ++ provenances frames := by
  rw [← filterMap_singleton Frame.provenance frame]
  exact List.filterMap_append (l := [frame])

/-- **Forwarding** queues the provenance of a recorded group, of which some may be shed. -/
lemma sublist_forwardLoop (fs : List Frame) :
    ∀ (bs : List ProvenanceBody) (fx : StepEffects),
      Triple (fun s => s.provenance = none ∧ (provenances s.queue.frames).Sublist bs)
        (forwardLoop fs fx)
        (fun _ s => s.provenance = none ∧
          (provenances s.queue.frames).Sublist (bs ++ provenances fs))
        (fun s => s.provenance = none) := by
  induction fs with
  | nil =>
    refine fun bs fx => Triple.pure fun s hs => ⟨hs.1, ?_⟩
    rw [show provenances [] = [] from rfl, List.append_nil]
    exact hs.2
  | cons frame frames ih =>
    intro bs fx s hs
    rw [provenances_cons, ← List.append_assoc, exec_forwardLoop_cons]
    obtain ⟨outcome, stripper, hexec, _, hprov⟩ := exec_stripped frame s
    rw [hexec]
    cases outcome with
    | error e => exact hs.1
    | ok o =>
      rw [← hprov o rfl]
      cases o with
      | none => exact ih _ fx _ ⟨hs.1, hs.2.trans (List.sublist_append_left _ _)⟩
      | some g =>
        obtain ⟨fx', t, flags, hone, hnone, _, hqueue⟩ :=
          exec_forwardOne s.resyncPending g fx { s with stripper }
        dsimp only
        rw [exec_bind, hone]
        refine ih _ fx' t ⟨hnone.trans hs.1, ?_⟩
        rw [hqueue, Option.toList_some, filterMap_singleton]
        exact (provenances_enqueue _ _).trans (hs.2.append (List.Sublist.refl _))

/-- The queue takes frames without shedding any provenance. -/
def Roomy (q : SendQueue) (fs : List Frame) : Prop :=
  q.items.length + fs.length ≤ q.maxFrames ∧ q.bytes + (fs.map Frame.size).sum ≤ q.maxBytes ∧
    ∀ i ∈ q.items, i.priority = .p1 → i.frame.provenance = none

instance (q : SendQueue) (fs : List Frame) : Decidable (Roomy q fs) :=
  inferInstanceAs (Decidable (_ ∧ _ ∧ _))

/-- A queue with room takes a frame, and has room for the others. -/
lemma Roomy.enqueue {q : SendQueue} {frame : Frame} {frames : List Frame}
    (h : Roomy q (frame :: frames)) (flags : UInt16) :
    Roomy (q.enqueue (frame.withFlags flags)).2 frames ∧
      provenances (q.enqueue (frame.withFlags flags)).2.frames =
        provenances q.frames ++ frame.provenance.toList := by
  obtain ⟨hlen, hbytes, hitems⟩ := h
  rw [List.length_cons] at hlen
  rw [List.map_cons, List.sum_cons] at hbytes
  have hprov : frame.provenance = (frame.withFlags flags).provenance := rfl
  have hsize : frame.size = (frame.withFlags flags).size := rfl
  rw [hprov]
  rw [hsize] at hbytes
  generalize frame.withFlags flags = frame at hbytes
  cases hkind : frame.kind with
  | none =>
    have hsame : q.enqueue frame = (EnqueueReport.zero, q) := by rw [SendQueue.enqueue, hkind]
    have hnone : frame.provenance = none := Body.read_of_kind (by rw [hkind]; decide) _
    rw [hsame, hnone]
    exact ⟨⟨by show q.items.length + _ ≤ q.maxFrames; omega,
      by show q.bytes + _ ≤ q.maxBytes; omega, hitems⟩, (List.append_nil _).symm⟩
  | some msgType =>
    have hfits : q.wouldExceed frame.size = false := by
      simp only [SendQueue.wouldExceed, Bool.or_eq_false_iff, decide_eq_false_iff_not]
      omega
    obtain ⟨⟨keep, hkept, hkeep⟩, hframes, hmax, hle⟩ :=
      SendQueue.replaceKeyframe_spec (Priority.of msgType) q
    have hshort : (q.items.filter keep).length ≤ q.items.length := List.length_filter_le _ _
    rw [SendQueue.enqueue_of_fits hkind hfits]
    refine ⟨⟨?_, ?_, fun i hi hp1 => ?_⟩, ?_⟩
    · show (_ ++ [_]).length + _ ≤ SendQueue.maxFrames _
      rw [hkept, hframes, List.length_append, List.length_singleton]
      omega
    · show SendQueue.bytes _ + _ + _ ≤ SendQueue.maxBytes _
      rw [hmax]
      omega
    · rcases List.mem_append.1 hi with hi | hi
      · rw [hkept] at hi
        exact hitems i (List.mem_filter.1 hi).1 hp1
      · -- The frame itself is a keyframe, then.
        rw [List.mem_singleton.1 hi] at hp1 ⊢
        refine Body.read_of_kind (fun h => ?_) _
        rw [hkind] at h
        cases h
        cases hp1
    · show provenances (List.map Queued.frame (_ ++ [_])) = _
      rw [hkept, List.map_append, provenances, List.filterMap_append]
      refine congrArg₂ _ ?_ (filterMap_singleton _ frame)
      rw [provenances, SendQueue.frames, List.filterMap_map, List.filterMap_map,
        List.filterMap_filter]
      refine List.filterMap_congr fun i hi => ?_
      split
      · rfl
      next hkept => exact (hitems i hi (hkeep i (Bool.eq_false_iff.2 hkept))).symm

/-- **Forwarding with room** queues all provenance of a recorded group. -/
lemma forwardLoop_of_roomy (fs : List Frame) :
    ∀ (bs : List ProvenanceBody) (fx : StepEffects),
      Triple (fun s => s.stripper = none ∧ Roomy s.queue fs ∧ provenances s.queue.frames = bs)
        (forwardLoop fs fx)
        (fun _ s => provenances s.queue.frames = bs ++ provenances fs) (fun _ => True) := by
  induction fs with
  | nil =>
    refine fun bs fx => Triple.pure fun s hs => ?_
    rw [show provenances [] = [] from rfl, List.append_nil]
    exact hs.2.2
  | cons frame frames ih =>
    rintro bs fx s ⟨hnone, hroomy, hbs⟩
    rw [provenances_cons, ← List.append_assoc, exec_forwardLoop_cons]
    obtain ⟨outcome, stripper, hexec, hst, _⟩ := exec_stripped frame s
    obtain ⟨rfl, rfl⟩ := hst hnone
    rw [hexec]
    obtain ⟨fx', t, flags, hone, _, hst, hqueue⟩ :=
      exec_forwardOne s.resyncPending frame fx { s with stripper := none }
    dsimp only
    rw [exec_bind, hone]
    obtain ⟨hroomy', hprov⟩ := hroomy.enqueue flags
    refine ih _ fx' t ⟨hst, ?_, ?_⟩
    · rw [hqueue]
      exact hroomy'
    · rw [hqueue, ← hbs]
      exact hprov

/-- **Forwarding a group** sends its provenance, of which some may be shed. -/
lemma sublist_forwardRecorded (out : StepOutput) :
    Triple (fun s => s.provenance = none ∧ s.queue.items = []) (forwardRecorded out)
      (fun fx s => s.provenance = none ∧
        (provenances fx.frames).Sublist (provenances out.recorded))
      (fun s => s.provenance = none) := by
  refine Triple.bind ((sublist_forwardLoop out.recorded [] StepEffects.default).pre
    fun s hs => ⟨hs.1, ?_⟩) fun fx => ?_
  · rw [SendQueue.frames, hs.2]
    exact List.Sublist.refl _
  · exact Triple.bind (Q := fun (fs : List Frame) (s : Session) => s.provenance = none ∧
      (provenances fs).Sublist (provenances out.recorded)) (fun s hs => hs) fun fs =>
        Triple.pure fun s hs => hs

/-- **Forwarding a group with room** sends all of its provenance. -/
lemma forwardRecorded_of_roomy (out : StepOutput) :
    Triple (fun s => s.stripper = none ∧ Roomy s.queue out.recorded ∧ s.queue.items = [])
      (forwardRecorded out) (fun fx _ => provenances fx.frames = provenances out.recorded)
      (fun _ => True) := by
  refine Triple.bind ((forwardLoop_of_roomy out.recorded [] StepEffects.default).pre
    fun s hs => ⟨hs.1, hs.2.1, ?_⟩) fun fx => ?_
  · rw [SendQueue.frames, hs.2.2]
    rfl
  · exact Triple.bind (Q := fun fs _ => provenances fs = provenances out.recorded)
      (fun s hs => hs) fun fs => Triple.pure fun s hs => hs

end Session

/-! ## Runs -/

/-- The ids of a recorded group survive that it is forwarded as it is: they name strings of the run
alone, or the client has the very table the group was numbered against, and nothing is shed. -/
def Legible (t : Link) : LinkCall → Prop
  | .forwardRecorded i _ =>
    t.session.queue.items = [] ∧
      ((∀ b ∈ t.run.group i, ∀ id ∈ b.ids, id.toNat < t.run.strings.length) ∨
        t.client = t.run.tableAt i ∧
          ((t.run.group i).length ≤ 1 ∨
            t.session.stripper = none ∧
              Session.Roomy t.session.queue (t.run.recording[i]?.getD [])))
  | _ => True

instance (t : Link) : ∀ c : LinkCall, Decidable (Legible t c)
  | .forwardRecorded i _ =>
    inferInstanceAs (Decidable (t.session.queue.items = [] ∧
      ((∀ b ∈ t.run.group i, ∀ id ∈ b.ids, id.toNat < t.run.strings.length) ∨
        t.client = t.run.tableAt i ∧
          ((t.run.group i).length ≤ 1 ∨
            t.session.stripper = none ∧
              Session.Roomy t.session.queue (t.run.recording[i]?.getD [])))))
  | .attach .. | .regreet .. | .encodeStep _ | .encodeCurrent _ | .encodeSeek _ | .requestResync
  | .follow .. | .setEvents .. => inferInstanceAs (Decidable True)

namespace Link

/-- The session and the client of a run that is produced agree on its provenance, and there is none
in the session of a recording. -/
def Kept (t : Link) : Prop :=
  t.run.recording = [] ∧ t.session.Told t.run t.client ∨
    t.run.recording ≠ [] ∧ t.session.provenance = none ∧ t.run.strings <+: t.client

lemma prefix_tableAfter {base table : List String} (h : base <+: table)
    (bs : List ProvenanceBody) : base <+: tableAfter table bs := h.trans (List.prefix_append _ _)

/-- What a procedure does to a connection. -/
lemma kept_act {α : Type} {t : Link} {numbered : List Reading} {x : SessionM α}
    {frames : α → List Frame} {P : Session → Prop} (ht : P t.session)
    (h : Triple P x
      (fun a s => AllResolve (readings t.client (provenances (frames a))) numbered ∧
        Kept { t with session := s, client := tableAfter t.client (provenances (frames a)) })
      fun s => Kept { t with session := s }) :
    AllResolve (t.act numbered x frames).1.read (t.act numbered x frames).1.numbered ∧
      (t.act numbered x frames).2.Kept := by
  have h := h t.session ht
  unfold act
  cases hx : exec x t.session with
  | mk outcome s =>
    rw [hx] at h
    cases outcome with
    | ok a => exact h
    | error e =>
      have htable : tableAfter t.client [] = t.client := List.append_nil _
      dsimp only at h ⊢
      rw [htable]
      exact ⟨Session.allResolve_nil, h⟩

/-- A procedure that sends no provenance and keeps what is known of it. -/
lemma kept_act_plain {α : Type} {t : Link} {x : SessionM α} {frames : α → List Frame}
    (ht : t.Kept)
    (h : ∀ P : Session → Prop,
      (∀ s encoder seq ring produced eventChannels eventNodes sample1In maxEventsPerStep, P s →
        P { s with encoder, seq, ring, produced, eventChannels, eventNodes, sample1In,
                   maxEventsPerStep }) →
      Triple P x (fun a s => P s ∧ provenances (frames a) = []) P) :
    AllResolve (t.act [] x frames).1.read (t.act [] x frames).1.numbered ∧
      (t.act [] x frames).2.Kept := by
  have htable : tableAfter t.client [] = t.client := List.append_nil _
  refine kept_act (P := fun s => Kept { t with session := s }) ht
    ((h (fun s => Kept { t with session := s }) fun s _ _ _ _ _ _ _ _ hs => hs).post
      fun a s hs => ?_)
  rw [hs.2, htable]
  exact ⟨Session.allResolve_nil, hs.1⟩

/-- **A handshake** keeps what is known of the provenance of the run, or starts over. -/
lemma kept_greet {t t' : Link} {s : Session} {run : ServedRun} {state : RunState}
    {simTime : SimTime} {nodes : Option (List NodeFacts × List String)} {x : Exchange}
    (hqueue : s.queue.items = [])
    (hbase : run.recording = [] → s.helloBase = run.strings.length)
    (hresume : s.resumeTarget ≠ none → Kept { t with session := s, run })
    (h : t.greet s run state simTime nodes = .ok (x, t')) :
    AllResolve x.read x.numbered ∧ t'.Kept := by
  unfold greet at h
  cases htarget : s.resumeTarget with
  | some seq =>
    rw [Session.exec_hello_resumed htarget] at h
    split at h
    next f s' hx =>
      cases h
      obtain ⟨_, rfl⟩ := Prod.mk.inj hx
      have hkept := hresume (by rw [htarget]; exact Option.some_ne_none seq)
      exact ⟨Session.allResolve_nil, hkept⟩
    next => cases h
  | none =>
    rw [Session.exec_hello_fresh htarget] at h
    split at h
    next f s' hx =>
      cases h
      obtain ⟨hf, rfl⟩ := Prod.mk.inj hx
      obtain ⟨hfit, rfl⟩ := toFrame_eq_ok.1 hf
      have hpre := Session.freshStrings_prefix run.descriptor s.sessionToken nodes
      have hlen := HelloBody.length_strings_lt hfit
      refine ⟨Session.allResolve_nil, ?_⟩
      by_cases hrun : run.recording = []
      · refine .inl ⟨hrun, hbase hrun, .inl ⟨rfl, rfl, hpre, .inr ?_, ?_⟩⟩
        · exact lt_trans hlen (by decide)
        · show provenances (s.queue.items.map Queued.frame) = []
          rw [hqueue]
          rfl
      · exact .inr ⟨hrun, run.apart.resolve_left hrun, hpre⟩
    next => cases h

lemma kept_reattach {t : Link} (h : t.Kept) (resume : Option ℕ) :
    Kept { t with session := t.session.reattach resume } := by
  rcases h with ⟨hrun, hbase, ⟨hprov, hstrings, hpre, hlen, _⟩ | ⟨hprov, _⟩⟩ | h
  · exact .inl ⟨hrun, hbase, .inl ⟨hprov, hstrings, hpre, hlen, rfl⟩⟩
  · refine .inl ⟨hrun, hbase, .inr ⟨hprov, fun bs hbs => ?_⟩⟩
    rw [List.sublist_nil.1 hbs]
    exact Session.allResolve_nil
  · exact .inr h

/-- Bodies that only name strings of the run resolve wherever they are read. -/
lemma allResolve_of_shared {base : List String} {bs gs : List ProvenanceBody}
    (hsub : bs.Sublist gs)
    (hids : ∀ b ∈ gs, ∀ id ∈ b.ids, id.toNat < base.length) :
    ∀ {client table : List String}, base <+: client → base <+: table →
      AllResolve (readings client bs) (readings table gs) := by
  induction hsub with
  | slnil => exact fun _ _ => .nil
  | cons b _ ih =>
    intro client table hclient htable
    exact .cons_right (ih (fun b hb => hids b (List.mem_cons_of_mem _ hb)) hclient
      (htable.trans (List.prefix_append _ _)))
  | cons_cons b _ ih =>
    intro client table hclient htable
    refine .cons (List.forall₂_same.2 fun id hid x hx => ?_)
      (ih (fun b hb => hids b (List.mem_cons_of_mem _ hb))
        (hclient.trans (List.prefix_append _ _)) (htable.trans (List.prefix_append _ _)))
    have hid := hids b List.mem_cons_self id hid
    simp only [Reading.denotes] at hx ⊢
    rw [getElem?_append_of_isPrefix htable hid] at hx
    rw [getElem?_append_of_isPrefix hclient hid]
    exact hx

lemma allResolve_refl (rs : List Reading) : AllResolve rs rs :=
  List.sublistForall₂_iff.2
    ⟨rs, List.forall₂_same.2 fun _ _ => List.forall₂_same.2 fun _ _ _ hx => hx,
      List.Sublist.refl rs⟩

/-- **Forwarding** a recorded group whose ids survive it. -/
lemma kept_forwardRecorded {t : Link} {i : ℕ} {endOfRun : Bool} (ht : t.Kept)
    (hlegible : Legible t (.forwardRecorded i endOfRun)) :
    let r := t.act (readings (t.run.tableAt i) (t.run.group i))
      (Session.forwardRecorded (t.run.output i endOfRun)) StepEffects.frames
    AllResolve r.1.read r.1.numbered ∧ r.2.Kept := by
  obtain ⟨hitems, hids⟩ := hlegible
  rcases ht with ⟨hrun, htold⟩ | ⟨hrun, hprov, hpre⟩
  · -- A run that is produced has no groups, so nothing is sent.
    have hrecorded : (t.run.output i endOfRun).recorded = [] := by
      show t.run.recording[i]?.getD [] = []
      rw [hrun]
      rfl
    refine kept_act (P := fun s => s = t.session) rfl fun s hs => ?_
    subst hs
    unfold Session.forwardRecorded Session.drainQueue
    simp only [hrecorded, Session.forwardLoop, exec_bind, exec_pure, exec_get, exec_modify,
      SendQueue.drain, hitems, List.map_nil]
    have htable : tableAfter t.client (provenances []) = t.client := List.append_nil _
    rw [htable]
    refine ⟨.nil, .inl ⟨hrun, htold.1, ?_⟩⟩
    rcases htold.2 with ⟨hprov, hstrings, hpre, hlen, _⟩ | ⟨hprov, _⟩
    · exact .inl ⟨hprov, hstrings, hpre, hlen, rfl⟩
    · refine .inr ⟨hprov, fun bs hbs => ?_⟩
      rw [List.sublist_nil.1 hbs]
      exact Session.allResolve_nil
  · refine kept_act (P := fun s => s = t.session) rfl ?_
    have hpost : ∀ (fx : StepEffects) (s : Session), s.provenance = none →
        AllResolve (readings t.client (provenances fx.frames))
          (readings (t.run.tableAt i) (t.run.group i)) →
        AllResolve (readings t.client (provenances fx.frames))
            (readings (t.run.tableAt i) (t.run.group i)) ∧
          Kept { t with session := s, client := tableAfter t.client (provenances fx.frames) } :=
      fun fx s hs h => ⟨h, .inr ⟨hrun, hs, prefix_tableAfter hpre _⟩⟩
    have hsub := Session.sublist_forwardRecorded (t.run.output i endOfRun)
    rcases hids with hids | ⟨hclient, hfew | hroomy⟩
    · refine hsub.conseq (fun s hs => ⟨hs ▸ hprov, hs ▸ hitems⟩) (fun fx s hs => ?_)
        fun s hs => .inr ⟨hrun, hs, hpre⟩
      exact hpost fx s hs.1 (allResolve_of_shared hs.2 hids hpre
        (List.prefix_append _ _))
    · refine hsub.conseq (fun s hs => ⟨hs ▸ hprov, hs ▸ hitems⟩) (fun fx s hs => ?_)
        fun s hs => .inr ⟨hrun, hs, hpre⟩
      refine hpost fx s hs.1 ?_
      -- The only body of the group was sent, or none was.
      have hsent : (provenances fx.frames).Sublist (t.run.group i) := hs.2
      rcases Nat.lt_or_ge (provenances fx.frames).length (t.run.group i).length with hlt | hge
      · rw [List.length_eq_zero_iff.1 (by omega : (provenances fx.frames).length = 0)]
        exact .nil
      · rw [hsent.eq_of_length_le hge, hclient]
        exact allResolve_refl _
    · have hall := Session.forwardRecorded_of_roomy (t.run.output i endOfRun)
      refine (hsub.and hall).conseq
        (fun s hs => ⟨⟨hs ▸ hprov, hs ▸ hitems⟩, hs ▸ hroomy.1, hs ▸ hroomy.2, hs ▸ hitems⟩)
        (fun fx s hs => ?_) fun s hs => .inr ⟨hrun, hs.1, hpre⟩
      refine hpost fx s hs.1.1 ?_
      rw [hs.2, hclient]
      exact allResolve_refl _

end Link

section Runs

variable {params : ConnectParams} {run : ServedRun} {generation : ℕ} {token : String}

lemma kept_initLink : (links params run generation token).init.Kept := by
  by_cases hrun : run.recording = []
  · exact .inl ⟨hrun, rfl, .inl ⟨rfl, rfl, List.prefix_refl _, .inl rfl, rfl⟩⟩
  · exact .inr ⟨hrun, run.apart.resolve_left hrun, List.prefix_refl _⟩

/-- **Every call** whose ids survive is read as it was numbered. -/
lemma exchange_step {t t' : Link} {c : LinkCall} {x : Exchange} (ht : t.Kept)
    (hc : Legible t c) (h : (links params run generation token).step t c = .ok (x, t')) :
    AllResolve x.read x.numbered ∧ t'.Kept := by
  cases c with
  | attach resume state simTime nodes =>
    refine Link.kept_greet rfl (fun hrun => ?_) (fun _ => Link.kept_reattach ht resume) h
    rcases ht with ⟨_, hbase, _⟩ | ⟨hne, _⟩
    · exact hbase
    · exact absurd hrun hne
  | regreet run' generation' state simTime nodes =>
    exact Link.kept_greet rfl (fun _ => rfl) (fun hres => absurd rfl hres) h
  | encodeStep out =>
    simp only [links] at h
    split_ifs at h with hrun
    cases h
    have htold := (ht.resolve_right fun hne => hne.1 hrun).2
    exact Link.kept_act htold ((Session.told_encodeStep out).conseq (fun _ hs => hs)
      (fun _ _ hs => ⟨hs.1, .inl ⟨hrun, hs.2⟩⟩) fun _ hs => .inl ⟨hrun, hs⟩)
  | encodeCurrent out =>
    simp only [links] at h
    split_ifs at h with hrun
    cases h
    have htold := (ht.resolve_right fun hne => hne.1 hrun).2
    exact Link.kept_act htold ((Session.told_encodeCurrent out).conseq (fun _ hs => hs)
      (fun _ _ hs => ⟨hs.1, .inl ⟨hrun, hs.2⟩⟩) fun _ hs => .inl ⟨hrun, hs⟩)
  | forwardRecorded i endOfRun =>
    cases h
    exact Link.kept_forwardRecorded ht hc
  | encodeSeek outs =>
    cases h
    exact Link.kept_act_plain ht fun P hP => Session.plain_encodeSeek
      (fun s encoder seq ring produced hs => hP s encoder seq ring produced _ _ _ _ hs) outs
  | requestResync => cases h; exact ⟨Session.allResolve_nil, ht⟩
  | follow node clear telemetry extra =>
    cases h
    refine ⟨Session.allResolve_nil, ?_⟩
    show Link.Kept { t with session := Session.follow node clear telemetry extra t.session }
    unfold Session.follow
    split
    · exact ht
    · split <;> exact ht
  | setEvents names unsubscribe only nodes sample1In maxEventsPerStep =>
    cases h
    refine Link.kept_act_plain ht fun P hP => ?_
    exact (Session.frame_setEvents (fun s _ _ _ _ hs => hP s s.encoder s.seq s.ring s.produced _ _ _
      _ hs) names unsubscribe only nodes sample1In maxEventsPerStep).post fun _ s hs => ⟨hs, rfl⟩

/-- **String ids mean the same on both ends**, in every run of calls whose ids survive. -/
theorem ids_resolve {t : Link} {cs : List LinkCall} {xs : List Exchange}
    (h : (links params run generation token).StepsIf Legible
      (links params run generation token).init cs xs t) :
    ∀ x ∈ xs, AllResolve x.read x.numbered := by
  have hrun := h.induction (Q := fun _ xs t => t.Kept ∧ ∀ x ∈ xs, AllResolve x.read x.numbered)
    ⟨kept_initLink, fun x hx => absurd hx List.not_mem_nil⟩
    fun cs xs t c x t' _ ⟨ht, hxs⟩ hc hstep => by
      obtain ⟨hx, ht'⟩ := exchange_step ht hc hstep
      refine ⟨ht', fun y hy => ?_⟩
      rcases List.mem_append.1 hy with hy | hy
      · exact hxs y hy
      · exact List.mem_singleton.1 hy ▸ hx
  exact hrun.2

end Runs

/-! ## Examples -/

/-- Provenance whose model is named by the string it appends to a table of two. -/
def bareProvenance : ProvenanceBody := ⟨0, [⟨1, 2, 0, 0, 0, 0, 0⟩], [], some ⟨["model"]⟩, 0⟩

/-- A run that is produced. -/
def bareServed : ServedRun := ⟨bareRun, [], .inl rfl⟩

/-- A recording of the run. -/
def bareRecording : ServedRun where
  descriptor := { bareRun with live := false, provenance := none }
  recording := [[⟨MsgType.id .provenance, 0, 1, .provenance bareProvenance⟩]]
  apart := .inr rfl

/-- The connections to a run, with a token. -/
def bareLinks (run : ServedRun) : Machine Link LinkCall Exchange ServerError :=
  links ⟨none, .full⟩ run 0 "token"

/-- The token takes the id that the model was numbered with, and the session moves it. -/
theorem ids_resolve_bare : ∃ xs t,
    (bareLinks bareServed).StepsIf Legible (bareLinks bareServed).init
      [.attach none .running 0 none, .encodeStep (bareStep 0 [])] xs t ∧
    xs.map Exchange.read = [[], [⟨["", "grid", "token"],
      ⟨0, [⟨1, 3, 0, 0, 0, 0, 0⟩], [], some ⟨["model"]⟩, 0⟩⟩]] ∧
    ∀ x ∈ xs, AllResolve x.read x.numbered := by
  have hrun : ((bareLinks bareServed).runIf (fun t c => decide (Legible t c))
      (bareLinks bareServed).init
      [.attach none .running 0 none, .encodeStep (bareStep 0 [])]).any
      (fun r => decide (r.1.map Exchange.read = [[], [⟨["", "grid", "token"],
        ⟨0, [⟨1, 3, 0, 0, 0, 0, 0⟩], [], some ⟨["model"]⟩, 0⟩⟩]])) = true := by decide +kernel
  obtain ⟨xs, t, hrun, hread⟩ := (bareLinks bareServed).exists_stepsIf
    (fun t c h => of_decide_eq_true h) hrun
  exact ⟨xs, t, hrun, of_decide_eq_true hread, ids_resolve hrun⟩

/-- **A recording that is misread**: the id of the model is that of the token in the table of the
client. -/
theorem ids_misread : ∃ xs t,
    (bareLinks bareRecording).StepsIf (fun _ _ => True) (bareLinks bareRecording).init
      [.attach none .running 0 none, .forwardRecorded 0 true] xs t ∧
    ∃ x ∈ xs, ¬ AllResolve x.read x.numbered := by
  have hrun : ((bareLinks bareRecording).runIf (fun _ _ => true) (bareLinks bareRecording).init
      [.attach none .running 0 none, .forwardRecorded 0 true]).any
      (fun r => decide (r.1 = [⟨[], []⟩, ⟨[⟨["", "grid"], bareProvenance⟩],
        [⟨["", "grid", "token"], bareProvenance⟩]⟩])) = true := by decide +kernel
  obtain ⟨xs, t, hrun, hxs⟩ := (bareLinks bareRecording).exists_stepsIf
    (fun t c _ => trivial) hrun
  refine ⟨xs, t, hrun, ⟨[⟨["", "grid"], bareProvenance⟩],
    [⟨["", "grid", "token"], bareProvenance⟩]⟩, ?_, fun hall => ?_⟩
  · have hxs : xs = _ := of_decide_eq_true hxs
    rw [hxs]
    exact List.mem_cons_of_mem _ List.mem_cons_self
  · cases hall with
    | cons hresolves _ =>
      -- The first id of the body is that of the model.
      have hid := (List.forall₂_cons.1 hresolves).1 "model" (by decide)
      exact absurd hid (by decide)
    | cons_right h => cases h

end V2xw.Server
