import V2xw.Scms.Crl

set_option linter.unusedSectionVars false

/-!
# Lists sent and lists installed

A message that carries the revocation list carries its length; the list is read from its source when
the message arrives. What is installed is what was sent as long as the source does not change while
the message is in flight. This file shows that this is all that can go wrong: if no entry is
appended while a publication is in flight, and no copy is replaced by another list while a download
of it is in flight, every delivery installs the list its source held when it sent the message.

## Main definitions

* `steadySources` — sources do not change while their lists are in flight.
* `ScmsState.source` — the list a message carries.

## Main results

* `keeps_sized` — messages in flight are sized by the lists of their sources.
* `installs_what_was_sent` — a delivery installs the list that was sent.
-/

namespace V2xw.Scms

open V2xw.Core ScmsRun ScmsState

variable {S P : Type}

/-! ## Sources -/

/-- A list on its way from the store or the broadcast path to a device. -/
def ScmsMsg.downloads : ScmsMsg S P → Bool
  | .crlDownload _ _ => true
  | _ => false

/-- The list a message carries, as its source holds it now: the generator's for a publication, that
of the store or of the broadcast path for a download. -/
def ScmsState.source (s : ScmsState S P) (p : ScmsPost S P) : List CrlLinkageEntry :=
  if p.msg.publishes then s.crlg.entries else s.listFrom p.src

/-- The copy a publication arrives at. -/
def ScmsState.copyAt (s : ScmsState S P) (dst : NodeId) : List CrlLinkageEntry :=
  if dst = nodes.crlStore then s.crlStore.entries else s.crlBroadcast.entries

/-- Sources do not change while their lists are in flight: an entry is appended only while no
publication is in flight, to a list whose length still fits its count; and a copy is replaced by
another list only while no download of it is in flight. -/
def steadySources : Guard S P
  | .inr p, s, b =>
    match p.msg with
    | .crlAppend _ _ _ _ =>
      (∀ q ∈ b, q.msg.publishes = false) ∧ s.crlg.entries.length < 2 ^ 32 - 1
    | .crlPublish _ => s.copyAt p.dst = s.crlg.entries ∨
      ∀ q ∈ b, q.msg.downloads = true →
        (q.src = nodes.crlBroadcast ↔ p.dst = nodes.crlStore)
    | _ => True
  | _, _, _ => True

variable [AddCommGroup S] [AddCommGroup P] {c : Crypto S P}
  {charge : String → OpDescriptor → Duration}

/-! ## Messages and their sizes -/

/-- What holds of a message in flight: a list is sized by its source, and the messages that ask for
a list are where they are answered, or at the device. -/
def Sized (s : ScmsState S P) (p : ScmsPost S P) : Prop :=
  match p.msg with
  | .crlPublish n => n = sat32 s.crlg.entries.length
  | .crlDownload _ n => n = sat32 (s.listFrom p.src).length
  | .crlDownloadRequest device => p.dst = device ∨ p.dst = nodes.crlStore
  | .crlAirBroadcast _ => p.dst = nodes.crlBroadcast
  | _ => True

/-- What holds of the copies: none is longer than the generator's list, and that one is no longer
than a count can say. -/
structure Counted (s : ScmsState S P) : Prop where
  crlg : s.crlg.entries.length ≤ 2 ^ 32 - 1
  store : s.crlStore.entries.length ≤ s.crlg.entries.length
  broadcast : s.crlBroadcast.entries.length ≤ s.crlg.entries.length

/-- The lists of the deployment are the same. -/
structure SameLists (s s' : ScmsState S P) : Prop where
  crlg : s'.crlg.entries = s.crlg.entries
  store : s'.crlStore = s.crlStore
  broadcast : s'.crlBroadcast = s.crlBroadcast

/-- A message whose list has the source it had is sized as before. -/
lemma Sized.of_source {s s' : ScmsState S P} {q : ScmsPost S P} (h : Sized s q)
    (hsource : (q.msg.publishes = true ∨ q.msg.downloads = true) → s'.source q = s.source q) :
    Sized s' q := by
  unfold Sized at h ⊢
  unfold ScmsState.source at hsource
  cases hmsg : q.msg with
  | crlPublish n =>
    rw [hmsg] at h hsource
    have hcrlg : s'.crlg.entries = s.crlg.entries := hsource (.inl rfl)
    show n = sat32 s'.crlg.entries.length
    rw [hcrlg]
    exact h
  | crlDownload device n =>
    rw [hmsg] at h hsource
    have hlist : s'.listFrom q.src = s.listFrom q.src := hsource (.inr rfl)
    show n = sat32 (s'.listFrom q.src).length
    rw [hlist]
    exact h
  | _ =>
    rw [hmsg] at h
    exact h

lemma SameLists.counted {s s' : ScmsState S P} (h : SameLists s s') (hs : Counted s) :
    Counted s' := by
  refine ⟨?_, ?_, ?_⟩
  · rw [h.crlg]; exact hs.crlg
  · rw [h.crlg, h.store]; exact hs.store
  · rw [h.crlg, h.broadcast]; exact hs.broadcast

lemma SameLists.source {s s' : ScmsState S P} (h : SameLists s s') (p : ScmsPost S P) :
    s'.source p = s.source p := by
  unfold ScmsState.source listFrom
  rw [h.crlg, h.store, h.broadcast]

lemma SameLists.sized {s s' : ScmsState S P} (h : SameLists s s') {p : ScmsPost S P}
    (hp : Sized s p) : Sized s' p :=
  hp.of_source fun _ => h.source p

/-- **What a delivery does to the lists.** It keeps them, or it appends an entry to the generator's,
or it copies the generator's list to the store or to the broadcast path. -/
lemma handle_lists {s s' : ScmsState S P} {d : Delivery (ScmsMsg S P)}
    {cost : OpDescriptor → Duration} {out' : Outbox (ScmsMsg S P)}
    (h : s.handle c d (Outbox.new cost) = .ok (s', out')) :
    (SameLists s s' ∧ d.msg.publishes = false) ∨
    (∃ i la1 la2 jmax, d.msg = .crlAppend i la1 la2 jmax ∧
      s'.crlg.entries = s.crlg.entries ++ [entryOf i la1 la2 jmax] ∧
      s'.crlStore = s.crlStore ∧ s'.crlBroadcast = s.crlBroadcast) ∨
    ∃ n, d.msg = .crlPublish n ∧ s'.crlg = s.crlg ∧ s'.copyAt d.dst = s.crlg.entries ∧
      (d.dst = nodes.crlStore → s'.crlBroadcast = s.crlBroadcast) ∧
      (d.dst ≠ nodes.crlStore → s'.crlStore = s.crlStore) := by
  cases hm : d.msg.changesLists with
  | false =>
    obtain ⟨hquiet, -⟩ := handle_quiet (A := fun _ => False) d.dst h hm
    refine .inl ⟨⟨by rw [hquiet.crlg], hquiet.store, hquiet.broadcast⟩, ?_⟩
    revert hm
    cases d.msg <;> simp [ScmsMsg.changesLists, ScmsMsg.publishes]
  | true =>
    unfold handle at h
    cases hmsg : d.msg <;> simp only [hmsg, ScmsMsg.changesLists, Bool.false_eq_true,
      Except.ok.injEq] at hm h
    case crlPublishTimer =>
      cases h
      exact .inl ⟨⟨rfl, rfl, rfl⟩, rfl⟩
    case crlAppend i la1 la2 jmax =>
      refine .inr (.inl ⟨i, la1, la2, jmax, rfl, ?_⟩)
      unfold onCrlAppend at h
      dsimp only at h
      split_ifs at h <;> cases h <;> exact ⟨rfl, rfl, rfl⟩
    case crlPublish n =>
      refine .inr (.inr ⟨n, rfl, ?_⟩)
      unfold onCrlPublish at h
      dsimp only at h
      split_ifs at h with hd <;> cases h
      · exact ⟨rfl, if_pos hd, fun _ => rfl, fun hne => absurd hd hne⟩
      · exact ⟨rfl, if_neg hd, fun heq => absurd heq hd, fun _ => rfl⟩
    case crlDownload device entries =>
      unfold onCrlDownload at h
      cases hdev : s.devices[device]? with
      | none => simp [hdev] at h
      | some dev =>
        simp only [hdev, Except.ok.injEq, Prod.mk.injEq] at h
        obtain ⟨rfl, -⟩ := h
        exact .inl ⟨⟨rfl, rfl, rfl⟩, rfl⟩

lemma sized_of_family {s : ScmsState S P} {p : ScmsPost S P} (hpub : p.msg.family ≠ .publication)
    (hdist : p.msg.family ≠ .distribution) : Sized s p := by
  unfold Sized
  revert hpub hdist
  cases p.msg <;> simp [ScmsMsg.family]

/-- What a delivery posts is sized by the lists after it. -/
lemma handle_sized {s s' : ScmsState S P} {d : Delivery (ScmsMsg S P)}
    {cost : OpDescriptor → Duration} {out' : Outbox (ScmsMsg S P)}
    (h : s.handle c d (Outbox.new cost) = .ok (s', out')) (hd : Sized s d.post) :
    ∀ q ∈ out'.posts d.dst, Sized s' q := by
  have hfamilies := handle_posts d.dst h
  by_cases hown : d.msg.family = .publication ∨ d.msg.family = .distribution ∨
      ∃ i la1 la2 jmax, d.msg = .crlAppend i la1 la2 jmax
  swap
  · push Not at hown
    obtain ⟨hpub, hdist, happend⟩ := hown
    intro q hq
    by_cases hres : d.msg.family = .resolution
    · have hm : d.msg.changesLists = false := by
        revert hres
        cases hmsg : d.msg <;> simp [ScmsMsg.family, ScmsMsg.changesLists]
        exact absurd hmsg (happend _ _ _ _)
      have hqf := ((handle_resolution d.dst h hres hm).2 q hq).1
      exact sized_of_family (by rw [hqf]; decide) (by rw [hqf]; decide)
    · rcases hfamilies q hq with hqf | hqf
      · exact sized_of_family (hqf ▸ hpub) (hqf ▸ hdist)
      · exact absurd hqf.1 hres
  unfold handle at h
  cases hmsg : d.msg <;> simp only [hmsg, ScmsMsg.family, reduceCtorEq, false_or, exists_false,
    Except.ok.injEq] at hown h
  case crlPublishTimer =>
    cases h
    simp [publish, Outbox.posts, Outbox.sendPost, Sized]
  case crlAppend i la1 la2 jmax =>
    unfold onCrlAppend at h
    dsimp only at h
    split_ifs at h <;> cases h <;>
      simp [publish, Outbox.posts, Outbox.sendPost, Outbox.timerPost, Sized]
  case crlPublish n =>
    unfold onCrlPublish at h
    dsimp only at h
    split_ifs at h <;> cases h <;> simp [Outbox.posts]
  case crlDownloadRequest device =>
    unfold onCrlDownloadRequest at h
    split_ifs at h with hdst <;> cases h
    · simp [Outbox.posts, Outbox.sendPost, Sized]
    · have hstore : d.dst = nodes.crlStore := by
        have hat : d.dst = device ∨ d.dst = nodes.crlStore := by
          simpa only [Sized, Delivery.post, hmsg] using hd
        exact hat.resolve_left hdst
      have hsrc : d.dst ≠ nodes.crlBroadcast := by rw [hstore]; decide
      simp [Outbox.posts, Outbox.sendPost, Sized, listFrom, hsrc]
  case crlAirBroadcast device =>
    cases h
    have hat : d.dst = nodes.crlBroadcast := by
      simpa only [Sized, Delivery.post, hmsg] using hd
    simp [Outbox.posts, Outbox.sendPost, Sized, listFrom, hat]
  case crlDownload device entries =>
    unfold onCrlDownload at h
    cases hdev : s.devices[device]? with
    | none => simp [hdev] at h
    | some dev =>
      simp only [hdev, Except.ok.injEq, Prod.mk.injEq] at h
      obtain ⟨-, rfl⟩ := h
      simp [Outbox.posts]

/-- While the guard is met, a delivery does not change the source of a list in flight. -/
lemma handle_source {s s' : ScmsState S P} {p q : ScmsPost S P} {time : SimTime}
    {cost : OpDescriptor → Duration} {out' : Outbox (ScmsMsg S P)} {b : Multiset (ScmsPost S P)}
    (h : s.handle c (p.deliverAt time) (Outbox.new cost) = .ok (s', out'))
    (hG : steadySources (.inr p) s b) (hq : q ∈ b)
    (hlist : q.msg.publishes = true ∨ q.msg.downloads = true) : s'.source q = s.source q := by
  rcases handle_lists h with ⟨hsame, -⟩ | ⟨i, la1, la2, jmax, hmsg, -, hstore, hbroadcast⟩ |
    ⟨n, hmsg, hcrlg, hcopy, hbroadcast, hstore⟩
  · exact hsame.source q
  · have hpub := (show (∀ q ∈ b, q.msg.publishes = false) ∧ _ by
      simpa only [steadySources, show p.msg = _ from hmsg] using hG).1 q hq
    unfold ScmsState.source listFrom
    rw [hpub, hstore, hbroadcast]
    rfl
  · have hG : s.copyAt p.dst = s.crlg.entries ∨ ∀ q ∈ b, q.msg.downloads = true →
        (q.src = nodes.crlBroadcast ↔ p.dst = nodes.crlStore) := by
      simpa only [steadySources, show p.msg = _ from hmsg] using hG
    unfold ScmsState.source
    rw [hcrlg]
    by_cases hpub : q.msg.publishes = true
    · rw [if_pos hpub, if_pos hpub]
    · rw [if_neg hpub, if_neg hpub]
      have hdown := hlist.resolve_left hpub
      -- Either the copy is the list already, or the download reads the other copy.
      unfold listFrom
      by_cases hdst : p.dst = nodes.crlStore
      · rw [hbroadcast hdst]
        have hnew : s'.crlStore.entries = s.crlg.entries := (if_pos hdst).symm.trans hcopy
        split_ifs with hsrc
        · rfl
        · rcases hG with hsame | hother
          · rw [hnew, ← hsame, copyAt, if_pos hdst]
          · exact absurd ((hother q hq hdown).2 hdst) hsrc
      · rw [hstore hdst]
        have hnew : s'.crlBroadcast.entries = s.crlg.entries := (if_neg hdst).symm.trans hcopy
        split_ifs with hsrc
        · rcases hG with hsame | hother
          · rw [hnew, ← hsame, copyAt, if_neg hdst]
          · exact absurd ((hother q hq hdown).1 hsrc) hdst
        · rfl

/-- **Messages in flight are sized by the lists of their sources**, and the copies are no longer
than the generator's list, while sources are steady. -/
theorem keeps_sized (c : Crypto S P) :
    (scms c).Keeps steadySources fun s b => Counted s ∧ ∀ p ∈ b, Sized s p := by
  refine Mailbox.Keeps.of_forall ?_ ?_
  · rintro e s b - hI hL
    have hsame : SameLists s ((scms c).act e s).1 := by
      cases e with
      | request device startI periods jmax flow =>
        have hquiet : Quiet s (s.requested c device startI periods) fun _ => False :=
          .requested s device startI periods
        exact ⟨by rw [← hquiet.crlg]; rfl, hquiet.store, hquiet.broadcast⟩
      | _ => exact ⟨rfl, rfl, rfl⟩
    refine ⟨hsame.counted hI, ?_, fun p hp => hsame.sized (hL p hp)⟩
    cases e <;> simp [scms, Event.apply, Sized]
  · rintro p s s' posts b hr hG hI hp
    cases hr with
    | refused e time cost h =>
      exact ⟨hI, fun q hq => absurd hq List.not_mem_nil, fun q _ hq => hq⟩
    | handled time cost h =>
      refine ⟨?_, handle_sized h hp, fun q hq hsized => ?_⟩
      · rcases handle_lists h with ⟨hsame, -⟩ |
          ⟨i, la1, la2, jmax, hmsg, hcrlg, hstore, hbroadcast⟩ |
            ⟨n, -, hcrlg, hcopy, hbroadcast, hstore⟩
        · exact hsame.counted hI
        · have hlen := (show _ ∧ s.crlg.entries.length < 2 ^ 32 - 1 by
            simpa only [steadySources, show p.msg = _ from hmsg] using hG).2
          refine ⟨?_, ?_, ?_⟩
          · rw [hcrlg, List.length_append, List.length_singleton]
            omega
          · rw [hcrlg, hstore, List.length_append]
            exact hI.store.trans (Nat.le_add_right _ _)
          · rw [hcrlg, hbroadcast, List.length_append]
            exact hI.broadcast.trans (Nat.le_add_right _ _)
        · change s'.copyAt p.dst = s.crlg.entries at hcopy
          by_cases hdst : p.dst = nodes.crlStore
          · have hnew : s'.crlStore.entries = s.crlg.entries := (if_pos hdst).symm.trans hcopy
            refine ⟨?_, ?_, ?_⟩
            · rw [hcrlg]; exact hI.crlg
            · rw [hnew, hcrlg]
            · rw [hbroadcast hdst, hcrlg]; exact hI.broadcast
          · have hnew : s'.crlBroadcast.entries = s.crlg.entries := (if_neg hdst).symm.trans hcopy
            refine ⟨?_, ?_, ?_⟩
            · rw [hcrlg]; exact hI.crlg
            · rw [hstore hdst, hcrlg]; exact hI.store
            · rw [hnew, hcrlg]
      · -- A list in flight has the source it had.
        exact hsized.of_source (handle_source h hG (Multiset.mem_cons_of_mem hq))

/-! ## Numbers -/

section Runs

variable {certs : CertificateSizes} {params : ScmsParams} {t0 : SimTime}

/-- Every operation keeps the real schedule numbered, its numbers only go up, and what is on the
schedule with an old number was on it before. -/
lemma step_numbered {D D' : Driver S P} {op : Op} {o : Reply S P} (hsound : D.Sound)
    (h : D.real.Numbered)
    (hstep : (machine c charge certs params t0).step D op = .ok (o, D')) :
    D'.real.Numbered ∧ D.real.seq ≤ D'.real.seq ∧
      ∀ x ∈ D'.real.heap, x.seq ≤ D.real.seq → x ∈ D.real.heap := by
  rcases step_real hsound hstep with ⟨⟨x, hget, -⟩, -, -⟩ |
    ⟨q, k, result, out, r', hpre, rfl, hnext, hproc, rfl, rfl⟩
  · refine ⟨h.gets hget, by rw [hget.seq]; omega, fun y hy hseq => ?_⟩
    rw [hget.heap] at hy
    rcases List.mem_append.1 hy with hy | hy
    · have hnew := (hget.new y (Option.mem_toList.1 hy)).1
      omega
    · exact hy
  · have hreal : D.real = D.run.kernel := by rw [Driver.real, hpre]; rfl
    rw [hreal] at h ⊢
    obtain ⟨-, -, hold, -⟩ := next_mem hnext
    have hseq : k.seq = D.run.kernel.seq := by rw [(Kernel.nextDelivery_spec hnext).2.2]
    rcases process_cases hproc with ⟨rfl, -⟩ | ⟨-, hk'⟩
    · exact ⟨h.next hnext, hseq.ge, fun y hy _ => hold y hy⟩
    · obtain ⟨new, hsched, -⟩ := k.dispatch_schedule q.delivery.time q.delivery.dst out
      rw [← hk'] at hsched
      refine ⟨(h.next hnext).schedules hsched, ?_, fun y hy hle => ?_⟩
      · show _ ≤ r'.kernel.seq
        rw [hsched.seq]
        omega
      · change y ∈ r'.kernel.heap at hy
        rw [hsched.heap] at hy
        rcases List.mem_append.1 hy with hy | hy
        · have hnew := (hsched.le y hy).1
          omega
        · exact hold y hy

/-- While the guard is met, an operation does not change the source of a list on the real
schedule. -/
lemma step_source {D D' : Driver S P} {op : Op} {o : Reply S P} {x : Queued (ScmsMsg S P)}
    (hsound : D.Sound) (hG : Allowed steadySources D op) (hx : x ∈ D.real.heap)
    (hlist : x.delivery.msg.publishes = true ∨ x.delivery.msg.downloads = true)
    (hstep : (machine c charge certs params t0).step D op = .ok (o, D')) :
    D'.state.source x.delivery.post = D.state.source x.delivery.post := by
  rcases step_real hsound hstep with ⟨-, -, hquiet⟩ |
    ⟨q, k, result, out, r', -, rfl, hnext, hproc, rfl, rfl⟩
  · have hsame : SameLists D.state D'.state :=
      ⟨by rw [hquiet.crlg], hquiet.store, hquiet.broadcast⟩
    exact hsame.source _
  · rcases process_cases hproc with ⟨rfl, -⟩ | ⟨hh, -⟩
    · rfl
    · exact handle_source (p := q.delivery.post) hh (hG.1 q k hnext)
        (Driver.post_mem_posts hx) hlist

/-- The delivery of a publication leaves the copy it arrives at equal to the generator's list. -/
lemma publish_installs {r r' : ScmsRun S P} {x : Queued (ScmsMsg S P)}
    {k : Kernel (ScmsMsg S P)} {result : Except ProtoError Unit} {out : Outbox (ScmsMsg S P)} {n : ℕ}
    (hproc : process c charge r x k = .ok ((result, out), r'))
    (hmsg : x.delivery.msg = .crlPublish n) :
    r'.state.copyAt x.delivery.dst = r.state.crlg.entries := by
  rcases process_cases hproc with ⟨-, -, e, herr⟩ | ⟨hh, -⟩
  · have hpub := (handle_refused herr).1
    rw [hmsg] at hpub
    cases hpub
  · rcases handle_lists hh with ⟨-, hpub⟩ | ⟨i, la1, la2, jmax, happ, -⟩ | ⟨m, -, -, hcopy, -⟩
    · rw [hmsg] at hpub
      cases hpub
    · rw [hmsg] at happ
      cases happ
    · exact hcopy

/-- The delivery of a download leaves the device with the list of the path it came from. -/
lemma download_installs {r r' : ScmsRun S P} {x : Queued (ScmsMsg S P)}
    {k : Kernel (ScmsMsg S P)} {result : Except ProtoError Unit} {out : Outbox (ScmsMsg S P)}
    {device : NodeId} {n : ℕ} {dev : DeviceState S P}
    (hproc : process c charge r x k = .ok ((result, out), r'))
    (hmsg : x.delivery.msg = .crlDownload device n)
    (hdev : r'.state.devices[device]? = some dev) :
    dev.crl = r.state.listFrom x.delivery.src := by
  rcases process_cases hproc with ⟨rfl, -, e, herr⟩ | ⟨hh, -⟩
  · simp only [handle, hmsg, onCrlDownload] at herr
    change r.state.devices[device]? = some dev at hdev
    simp [hdev] at herr
  · simp only [handle, hmsg, onCrlDownload] at hh
    split at hh
    · cases hh
    · simp only [Except.ok.injEq, Prod.mk.injEq] at hh
      rw [← hh.1] at hdev
      change (r.state.devices.insert device _)[device]? = some dev at hdev
      rw [OrdMap.get_insert, if_pos rfl, Option.some.injEq] at hdev
      rw [← hdev]
      rfl

/-- **A receiver installs the list that was sent.** In every run with steady sources, a delivery of
a list that was on the schedule in some earlier state, such as the one in which it was sent,
installs the list its source held then: a publication leaves the copy it arrives at equal to the
generator's list, and a download leaves the device with the list of the store or of the broadcast
path, of the length the message was sized with.

**Proof sketch.** An entry of the schedule keeps its number, so that it is on the schedule all the
time from then on until it is delivered; and while it is, no operation changes its source. -/
theorem installs_what_was_sent {D₁ D₂ D₃ : Driver S P} {is js : List Op} {os ps : List (Reply S P)}
    {x : Queued (ScmsMsg S P)} {result : Except ProtoError Unit} {out : Outbox (ScmsMsg S P)}
    (h : (machine c charge certs params t0).StepsIf (Allowed steadySources)
      (machine c charge certs params t0).init is os D₁) (hx : x ∈ D₁.real.heap)
    (h' : (machine c charge certs params t0).StepsIf (Allowed steadySources) D₁ js ps D₂)
    (hstep : (machine c charge certs params t0).step D₂ .deliver =
      .ok (.delivered x result out, D₃)) :
    (∀ n, x.delivery.msg = .crlPublish n →
      D₃.state.copyAt x.delivery.dst = D₁.state.crlg.entries) ∧
    ∀ device n dev, x.delivery.msg = .crlDownload device n →
      D₃.state.devices[device]? = some dev →
      dev.crl = D₁.state.listFrom x.delivery.src ∧ dev.crl.length = n := by
  have hfree : (steadySources : Guard S P).Free := fun _ _ =>
    ⟨fun _ => trivial, fun _ _ _ => trivial, fun _ => trivial, fun _ => trivial, trivial⟩
  have hparams : ∀ (s : ScmsState S P) (b : Multiset (ScmsPost S P)) (params : ScmsParams),
      (Counted s ∧ ∀ p ∈ b, Sized s p) →
      Counted { s with params := params } ∧ ∀ p ∈ b, Sized { s with params := params } p :=
    fun s b params h => ⟨⟨h.1.crlg, h.1.store, h.1.broadcast⟩, h.2⟩
  have hdrop : ∀ (s : ScmsState S P) (b b' : Multiset (ScmsPost S P)),
      (∀ p ∈ b, p.msg.family.Preloads) → (Counted s ∧ ∀ p ∈ b + b', Sized s p) →
      Counted s ∧ ∀ p ∈ b', Sized s p :=
    fun s b b' _ h => ⟨h.1, fun p hp => h.2 p (Multiset.mem_add.2 (.inr hp))⟩
  -- The first part of the run: the schedule is numbered and its messages are sized.
  have hfirst : (D₁.Sound ∧ Counted D₁.state ∧ ∀ p ∈ D₁.posts, Sized D₁.state p) ∧
      D₁.real.Numbered := by
    refine h.invariant (Q := fun D => (D.Sound ∧ Counted D.state ∧ ∀ p ∈ D.posts, Sized D.state p) ∧
      D.real.Numbered) ⟨⟨(sound_init c charge certs params t0).1, ⟨?_, le_rfl, le_rfl⟩, ?_⟩,
        (crlInv_init c charge certs params t0).numbered⟩ ?_
    · exact Nat.zero_le _
    · rw [(sound_init c charge certs params t0).2]
      exact fun p hp => absurd hp (Multiset.notMem_zero _)
    · rintro D op o D' ⟨⟨hsound, hsized⟩, hnum⟩ hG hstep
      exact ⟨step_keeps (keeps_sized c) hfree hparams hdrop hsound hG hsized hstep,
        (step_numbered hsound hnum hstep).1⟩
  by_cases hlist : x.delivery.msg.publishes = true ∨ x.delivery.msg.downloads = true
  swap
  · refine ⟨fun n hmsg => absurd (.inl ?_) hlist, fun device n dev hmsg => absurd (.inr ?_) hlist⟩
    all_goals rw [hmsg]; rfl
  -- The second part: while the message is on the schedule, its source stays what it is.
  have hsecond : (D₂.Sound ∧ Counted D₂.state ∧ ∀ p ∈ D₂.posts, Sized D₂.state p) ∧
      D₂.real.Numbered ∧ x.seq ≤ D₂.real.seq ∧ (x ∈ D₂.real.heap →
        D₂.state.source x.delivery.post = D₁.state.source x.delivery.post) := by
    refine h'.invariant (Q := fun D => (D.Sound ∧ Counted D.state ∧ ∀ p ∈ D.posts, Sized D.state p) ∧
      D.real.Numbered ∧ x.seq ≤ D.real.seq ∧ (x ∈ D.real.heap →
        D.state.source x.delivery.post = D₁.state.source x.delivery.post))
      ⟨hfirst.1, hfirst.2, hfirst.2.le x hx, fun _ => rfl⟩ ?_
    rintro D op o D' ⟨⟨hsound, hsized⟩, hnum, hle, hsource⟩ hG hstep
    obtain ⟨hnum', hseq, hback⟩ := step_numbered hsound hnum hstep
    refine ⟨step_keeps (keeps_sized c) hfree hparams hdrop hsound hG hsized hstep, hnum',
      hle.trans hseq, fun hx' => ?_⟩
    have hmem := hback x hx' hle
    rw [step_source hsound hG hmem hlist hstep, hsource hmem]
  obtain ⟨⟨hsound, hcounted, hsized⟩, -, -, hsource⟩ := hsecond
  have hf : ¬x.delivery.msg.family.Preloads := by
    revert hlist
    cases x.delivery.msg <;>
      simp [ScmsMsg.publishes, ScmsMsg.downloads, ScmsMsg.family, Family.Preloads]
  obtain ⟨hpre, k, r', hnext, hproc, rfl⟩ := deliver_real hsound hf hstep
  have hreal : D₂.real = D₂.run.kernel := by rw [Driver.real, hpre]; rfl
  have hmem : x ∈ D₂.real.heap := by
    rw [hreal]
    exact (next_mem hnext).1
  have hsource := hsource hmem
  have hpost := hsized _ (Driver.post_mem_posts hmem)
  refine ⟨fun n hmsg => ?_, fun device n dev hmsg hdev => ?_⟩
  · have hcrlg : D₂.state.crlg.entries = D₁.state.crlg.entries := by
      simpa only [ScmsState.source, Delivery.post, hmsg, ScmsMsg.publishes, if_true] using hsource
    rw [← hcrlg]
    exact publish_installs hproc hmsg
  · have hlistFrom : D₂.state.listFrom x.delivery.src = D₁.state.listFrom x.delivery.src := by
      simpa only [ScmsState.source, Delivery.post, hmsg, ScmsMsg.publishes, Bool.false_eq_true,
        if_false] using hsource
    have hn : n = sat32 (D₂.state.listFrom x.delivery.src).length := by
      simpa only [Sized, Delivery.post, hmsg] using hpost
    have hshort : (D₂.state.listFrom x.delivery.src).length ≤ 2 ^ 32 - 1 := by
      unfold listFrom
      split_ifs
      · exact hcounted.broadcast.trans hcounted.crlg
      · exact hcounted.store.trans hcounted.crlg
    have hcrl := download_installs hproc hmsg hdev
    rw [hcrl]
    refine ⟨hlistFrom, ?_⟩
    rw [hn, sat32, min_eq_left hshort]

end Runs

/-! ## A download by hand -/

/-- A check that implies `steadySources`: while lists are in flight, none is appended to or
replaced. -/
def steadyCheck (D : Driver S P) (_ : Op) : Bool :=
  D.preloading.isNone && D.run.kernel.nextDelivery.all fun x =>
    match x.1.delivery.msg with
    | .crlAppend _ _ _ _ => decide (D.state.crlg.entries.length < 2 ^ 32 - 1) &&
      D.run.kernel.heap.all fun q => !q.delivery.msg.publishes
    | .crlPublish _ => D.run.kernel.heap.all fun q => !q.delivery.msg.downloads
    | _ => true

lemma steadySources_of_check {D : Driver S P} {op : Op} (h : steadyCheck D op = true) :
    Allowed steadySources D op := by
  simp only [steadyCheck, Bool.and_eq_true] at h
  obtain ⟨hpre, hnext⟩ := h
  obtain ⟨r, preloading⟩ := D
  obtain rfl : preloading = none := Option.isNone_iff_eq_none.1 hpre
  cases op with
  | deliver =>
    refine ⟨fun q k hq => ?_, fun p _ hp => (nomatch hp)⟩
    have hheap : ∀ f : ScmsMsg S P → Bool,
        (r.kernel.heap.all fun q => !f q.delivery.msg) = true →
        ∀ p ∈ Driver.posts ⟨r, none⟩, f p.msg = false := by
      intro f hall p hp
      rw [Driver.posts_none] at hp
      obtain ⟨y, hy, rfl⟩ := List.mem_map.1 (Multiset.mem_coe.1 hp)
      show f y.delivery.msg = false
      simpa using List.all_eq_true.1 hall y hy
    rw [hq, Option.all_some] at hnext
    unfold steadySources
    cases hmsg : q.delivery.msg <;> simp only [hmsg, Delivery.post]
    case crlAppend i la1 la2 jmax =>
      simp only [hmsg, Bool.and_eq_true, decide_eq_true_eq] at hnext
      exact ⟨hheap _ hnext.2, hnext.1⟩
    case crlPublish n =>
      simp only [hmsg] at hnext
      refine .inr fun p hp hdown => ?_
      rw [hheap _ hnext p hp] at hdown
      cases hdown
  | _ => simp [Allowed, steadySources]

/-- Whether the next delivery is a download of a number of entries. -/
def nextDownloads (D : Driver S P) (device : NodeId) (n : ℕ) : Bool :=
  D.preloading.isNone && D.run.kernel.nextDelivery.any fun x =>
    match x.1.delivery.msg with
    | .crlDownload d m => d == device && m == n
    | _ => false

/-- What is next on the schedule, and what its delivery gives. -/
lemma nextDownloads_spec {D : Driver HandGroup HandGroup} {device : NodeId} {n : ℕ}
    (h : nextDownloads D device n = true) (hok : (hand.step D .deliver).isOk = true) :
    ∃ x result out D', x ∈ D.real.heap ∧ x.delivery.msg = .crlDownload device n ∧
      hand.step D .deliver = .ok (.delivered x result out, D') := by
  obtain ⟨r, preloading⟩ := D
  simp only [nextDownloads, Bool.and_eq_true] at h
  obtain ⟨hpre, hnext⟩ := h
  obtain rfl : preloading = none := Option.isNone_iff_eq_none.1 hpre
  obtain ⟨⟨x, k⟩, hx, hmsg⟩ := (Option.any_eq_true _ _).1 hnext
  have hdeliver : hand.step ⟨r, none⟩ .deliver = deliver handCrypto (fun _ _ => ⟨0⟩) ⟨r, none⟩ := rfl
  rw [hdeliver] at hok ⊢
  simp only [deliver, hx] at hok ⊢
  cases hproc : process handCrypto (fun _ _ => ⟨0⟩) r x k with
  | error e => simp [hproc, Except.isOk, Except.toBool] at hok
  | ok y =>
    obtain ⟨⟨result, out⟩, r'⟩ := y
    refine ⟨x, result, out, ⟨r', none⟩, (next_mem hx).1, ?_, ?_⟩
    · revert hmsg
      cases x.delivery.msg <;> simp
    · cases result <;> rfl

/-- A download after the publication installs the one entry it was sized with. -/
theorem installs_what_was_sent_revoked : ∃ is os D x result out D' dev,
    hand.StepsIf (Allowed steadySources) hand.init is os D ∧ x ∈ D.real.heap ∧
      hand.step D .deliver = .ok (.delivered x result out, D') ∧
      x.delivery.msg = .crlDownload 1000 1 ∧ D'.state.devices[1000]? = some dev ∧
      dev.crl = D.state.listFrom x.delivery.src ∧ dev.crl.length = 1 := by
  have hrun : (hand.runIf steadyCheck hand.init
      (revokeOps ++ deliveries 13 ++ [.distributeCrl 1000] ++ deliveries 2)).any (fun y =>
        nextDownloads y.2 1000 1 && match hand.step y.2 .deliver with
          | .ok (_, D') => D'.state.devices[1000]?.isSome
          | .error _ => false) = true := by
    decide +kernel
  obtain ⟨os, D, h, hboth⟩ := Machine.exists_stepsIf (fun _ _ => steadySources_of_check) hrun
  simp only [Bool.and_eq_true] at hboth
  obtain ⟨hnext, hdev⟩ := hboth
  have hok : (hand.step D .deliver).isOk = true := by
    revert hdev
    cases hand.step D .deliver <;> simp [Except.isOk, Except.toBool]
  obtain ⟨x, result, out, D', hx, hmsg, hstep⟩ := nextDownloads_spec hnext hok
  rw [hstep] at hdev
  obtain ⟨dev, hdev⟩ := Option.isSome_iff_exists.1 hdev
  have hcrl := (installs_what_was_sent h hx (.nil D) hstep).2 1000 1 dev hmsg hdev
  exact ⟨_, os, D, x, result, out, D', dev, h, hx, hstep, hmsg, hdev, hcrl⟩

/-- **A list that was not sent.** The store answers a download while it holds no entry, the
publication arrives while the answer is in flight, and the device installs an entry from a message
that was sized with none. -/
theorem installs_another_list : ∃ D x result out D',
    hand.Reachable D ∧ hand.step D .deliver = .ok (.delivered x result out, D') ∧
      x.delivery.msg = .crlDownload 1000 0 ∧ crlLength D' 1000 = some 1 := by
  have hrun : (hand.runIf (fun _ _ => true) hand.init
      (revokeOps ++ [.distributeCrl 1000] ++ deliveries 14)).any (fun y =>
        nextDownloads y.2 1000 0 && match hand.step y.2 .deliver with
          | .ok (_, D') => crlLength D' 1000 == some 1
          | .error _ => false) = true := by
    decide +kernel
  obtain ⟨os, D, hreach, hboth⟩ := Machine.exists_reachable hrun
  simp only [Bool.and_eq_true] at hboth
  obtain ⟨hnext, hlen⟩ := hboth
  have hok : (hand.step D .deliver).isOk = true := by
    revert hlen
    cases hand.step D .deliver <;> simp [Except.isOk, Except.toBool]
  obtain ⟨x, result, out, D', -, hmsg, hstep⟩ := nextDownloads_spec hnext hok
  rw [hstep] at hlen
  exact ⟨D, x, result, out, D', hreach, hstep, hmsg, by simpa using hlen⟩

end V2xw.Scms
