import V2xw.Scms.Schedule

set_option linter.unusedSectionVars false

/-!
# The copies of the revocation list

The generator appends entries to its list and publishes it to the store and to the broadcast path;
devices install what one of the two holds. The messages carry no list: a copy is replaced by what
its source holds when the message arrives. That no copy ever steps back rests on the schedule: the
two messages of a publication are sent over equal links, arrive at one instant and are delivered one
right after the other, so that the store and the broadcast path agree whenever a device listens.

## Main definitions

* `CrlInv` — the invariant of the copies and of the schedule.
* `Grows` — every copy is kept or extended.

## Main results

* `step_crlInv` — one operation.
* `crl_grows` — every copy is a prefix of the generator's list, no copy loses an entry, and
  an armed publication has its timer.
-/

namespace V2xw.Scms

open V2xw.Core ScmsRun ScmsState

variable {S P : Type}

/-! ## The messages of a publication -/

/-- A list on its way to the store or to the broadcast path. -/
def ScmsMsg.publishes : ScmsMsg S P → Bool
  | .crlPublish _ => true
  | _ => false

/-- What makes the generator publish. -/
def ScmsMsg.issues : ScmsMsg S P → Bool
  | .crlAppend _ _ _ _ | .crlPublishTimer => true
  | _ => false

/-- The second message of a publication is the next one to be delivered, and its first one has been
delivered. -/
def SecondNext (k : Kernel (ScmsMsg S P)) (y : Queued (ScmsMsg S P)) : Prop :=
  y.time ≤ k.now ∧ ∀ z ∈ k.heap, y.key ≤ z.key

/-- The copies of the list and the schedule of the publications. -/
structure CrlInv (s : ScmsState S P) (k : Kernel (ScmsMsg S P)) : Prop where
  numbered : k.Numbered
  /-- The generator reaches the store and the broadcast path over equal links. -/
  links : ∃ link, k.net.link nodes.crlg nodes.crlStore = some link ∧
    k.net.link nodes.crlg nodes.crlBroadcast = some link
  issuesAt : ∀ x ∈ k.heap, x.delivery.msg.issues = true → x.delivery.dst = nodes.crlg
  /-- The first message of a publication has its second one right behind it. -/
  second : ∀ x ∈ k.heap, x.delivery.msg.publishes = true → x.delivery.dst = nodes.crlStore →
    ∃ y ∈ k.heap, y.seq = x.seq + 1 ∧ y.time = x.time ∧ y.delivery.msg.publishes = true ∧
      y.delivery.dst = nodes.crlBroadcast
  /-- The second message of a publication has its first one right before it, or is next. -/
  first : ∀ y ∈ k.heap, y.delivery.msg.publishes = true → y.delivery.dst ≠ nodes.crlStore →
    (∃ x ∈ k.heap, y.seq = x.seq + 1 ∧ y.time = x.time ∧ x.delivery.msg.publishes = true ∧
      x.delivery.dst = nodes.crlStore) ∨
    s.crlStore.entries = s.crlg.entries ∧ SecondNext k y
  store : s.crlStore.entries <+: s.crlg.entries
  broadcast : s.crlBroadcast.entries <+: s.crlStore.entries
  /-- The store and the broadcast path agree, or the message that brings the list of the store to
  the broadcast path is next. -/
  level : s.crlStore.entries = s.crlBroadcast.entries ∨ s.crlStore.entries = s.crlg.entries ∧
    ∃ y ∈ k.heap, y.delivery.msg.publishes = true ∧ y.delivery.dst = nodes.crlBroadcast ∧
      SecondNext k y
  devices : ∀ (n : NodeId) (dev : DeviceState S P), s.devices[n]? = some dev →
    dev.crl <+: s.crlBroadcast.entries
  armed : s.crlg.publishArmed = true → ∃ x ∈ k.heap, x.delivery.msg = .crlPublishTimer

/-- The devices of a quiet step hold what they held, or nothing. -/
lemma Quiet.crl_prefix {s s' : ScmsState S P} {adds : NodeId → Prop} (h : Quiet s s' adds)
    {list : List CrlLinkageEntry}
    (hdev : ∀ (n : NodeId) (dev : DeviceState S P), s.devices[n]? = some dev → dev.crl <+: list)
    (n : NodeId) (dev : DeviceState S P) (hn : s'.devices[n]? = some dev) : dev.crl <+: list := by
  rcases h.devices n with heq | ⟨-, hnew⟩
  · rw [hn, Option.map_some, eq_comm, Option.map_eq_some_iff] at heq
    obtain ⟨old, hold, hstance⟩ := heq
    have hcrl : old.crl = dev.crl := congrArg Prod.fst hstance
    rw [← hcrl]
    exact hdev n old hold
  · rw [hn, Option.some.injEq] at hnew
    subst hnew
    exact List.nil_prefix

lemma SecondNext.gets {k k' : Kernel (ScmsMsg S P)} {x : Option (Queued (ScmsMsg S P))}
    {y : Queued (ScmsMsg S P)} (hk : k.Numbered) (hy : y ∈ k.heap) (h : SecondNext k y)
    (hget : Kernel.Gets k k' x) : SecondNext k' y := by
  refine ⟨hget.now ▸ h.1, fun z hz => ?_⟩
  rw [hget.heap] at hz
  rcases List.mem_append.1 hz with hz | hz
  · obtain ⟨hseq, htime⟩ := hget.new z (Option.mem_toList.1 hz)
    refine Kernel.queued_key_le_of_le (h.1.trans htime) ?_
    have hle := hk.le y hy
    omega
  · exact h.2 z hz

/-- A quiet step that schedules at most the first message of a flow keeps the invariant. -/
lemma CrlInv.quiet {s s' : ScmsState S P} {k k' : Kernel (ScmsMsg S P)}
    {x : Option (Queued (ScmsMsg S P))} {A : NodeId → Prop} (h : CrlInv s k)
    (hq : Quiet s s' A) (hget : Kernel.Gets k k' x)
    (hopens : ∀ y ∈ x, y.delivery.msg.opens = true)
    (hlinks : ∀ b, k'.net.link nodes.crlg b = k.net.link nodes.crlg b) : CrlInv s' k' := by
  -- The new entry, if any, takes no part in a publication.
  have hmem : ∀ z ∈ k'.heap, z ∈ k.heap ∨
      z.delivery.msg.publishes = false ∧ z.delivery.msg.issues = false := by
    intro z hz
    rw [hget.heap] at hz
    rcases List.mem_append.1 hz with hz | hz
    · right
      have hz := hopens z (Option.mem_toList.1 hz)
      revert hz
      cases z.delivery.msg <;> simp [ScmsMsg.opens, ScmsMsg.publishes, ScmsMsg.issues]
    · exact .inl hz
  have hold : ∀ z ∈ k.heap, z ∈ k'.heap := by
    intro z hz
    rw [hget.heap]
    exact List.mem_append_right _ hz
  refine ⟨h.numbered.gets hget, ?_, fun z hz hi => ?_, fun z hz hp hd => ?_, fun z hz hp hd => ?_,
    ?_, ?_, ?_, ?_, fun ha => ?_⟩
  · obtain ⟨link, h₁, h₂⟩ := h.links
    exact ⟨link, (hlinks _).trans h₁, (hlinks _).trans h₂⟩
  · rcases hmem z hz with hz | hz
    · exact h.issuesAt z hz hi
    · rw [hz.2] at hi
      cases hi
  · rcases hmem z hz with hz | hz
    · obtain ⟨y, hy, hrest⟩ := h.second z hz hp hd
      exact ⟨y, hold y hy, hrest⟩
    · rw [hz.1] at hp
      cases hp
  · rcases hmem z hz with hz | hz
    · rcases h.first z hz hp hd with ⟨y, hy, hrest⟩ | ⟨hlevel, hnext⟩
      · exact .inl ⟨y, hold y hy, hrest⟩
      · refine .inr ⟨?_, hnext.gets h.numbered hz hget⟩
        rw [hq.store, hq.crlg]
        exact hlevel
    · rw [hz.1] at hp
      cases hp
  · rw [hq.store, hq.crlg]
    exact h.store
  · rw [hq.store, hq.broadcast]
    exact h.broadcast
  · rw [hq.store, hq.crlg, hq.broadcast]
    rcases h.level with heq | ⟨heq, y, hy, hp, hd, hnext⟩
    · exact .inl heq
    · exact .inr ⟨heq, y, hold y hy, hp, hd, hnext.gets h.numbered hy hget⟩
  · rw [hq.broadcast]
    exact hq.crl_prefix h.devices
  · rw [hq.crlg] at ha
    obtain ⟨y, hy, hmsg⟩ := h.armed ha
    exact ⟨y, hold y hy, hmsg⟩

/-! ## Deliveries that leave the lists alone -/

variable [AddCommGroup S] [AddCommGroup P] {c : Crypto S P}
  {charge : String → OpDescriptor → Duration}

/-- The messages that change a copy of the list. -/
def ScmsMsg.changesLists : ScmsMsg S P → Bool
  | .crlAppend _ _ _ _ | .crlPublishTimer | .crlPublish _ | .crlDownload _ _ => true
  | _ => false

/-- Resolution up to the appended entry leaves the generator alone, and sends the entry to it. -/
lemma handle_resolution {s s' : ScmsState S P} {d : Delivery (ScmsMsg S P)}
    {cost : OpDescriptor → Duration} {out' : Outbox (ScmsMsg S P)} (node : NodeId)
    (h : s.handle c d (Outbox.new cost) = .ok (s', out')) (hf : d.msg.family = .resolution)
    (hm : d.msg.changesLists = false) :
    s'.crlg = s.crlg ∧ ∀ q ∈ out'.posts node, q.msg.family = .resolution ∧
      (q.msg.issues = true → q.dst = nodes.crlg) := by
  unfold handle at h
  cases hmsg : d.msg <;> simp only [hmsg, ScmsMsg.family, ScmsMsg.changesLists, reduceCtorEq,
    Bool.true_eq_false, Except.ok.injEq] at hf hm h
  all_goals
    simp only [onPcaLookupRequest, onPcaLookupResponse, onSameDeviceRequest, onSameDeviceResponse,
      onBlocklistRequest, onBlocklistResponse, onSeedRequest, onSeedResponse, decideCase,
      askSameDevice, askSeed] at h
    repeat' split at h
  all_goals
    first
    | (cases h; done)
    | (cases h; exact ⟨rfl, by simp [ScmsMsg.family, ScmsMsg.issues, Outbox.posts, Outbox.sendPost]⟩)

/-- **What leaves the lists alone**: a message that changes no copy of the list is quiet, and takes
part in no publication, except that an entry may be sent to the generator. -/
lemma handle_quiet {s s' : ScmsState S P} {d : Delivery (ScmsMsg S P)}
    {cost : OpDescriptor → Duration} {out' : Outbox (ScmsMsg S P)} {A : NodeId → Prop}
    (node : NodeId) (h : s.handle c d (Outbox.new cost) = .ok (s', out'))
    (hm : d.msg.changesLists = false) :
    Quiet s s' A ∧ ∀ q ∈ out'.posts node, q.msg.publishes = false ∧
      (q.msg.issues = true → q.dst = nodes.crlg) := by
  have hpub : d.msg.family ≠ .publication := by
    revert hm
    cases d.msg <;> simp [ScmsMsg.family, ScmsMsg.changesLists]
  obtain ⟨hstore, hbroadcast, hcrlg⟩ := handle_frame_publication h hpub
  have hposts := handle_posts node h
  have hfam : ∀ q : ScmsPost S P, q.msg.family ≠ .publication → q.msg.publishes = false := by
    intro q hq
    revert hq
    cases q.msg <;> simp [ScmsMsg.family, ScmsMsg.publishes]
  by_cases hres : d.msg.family = .resolution
  · obtain ⟨hg, hsent⟩ := handle_resolution node h hres hm
    refine ⟨⟨hg, hstore, hbroadcast, fun n => .inl ?_⟩, fun q hq => ?_⟩
    · exact handle_frame_distribution h (by rw [hres]; decide) n
    · exact ⟨hfam q (by rw [(hsent q hq).1]; decide), (hsent q hq).2⟩
  · have hdev : ∀ n : NodeId, s'.devices[n]?.map DeviceState.stance =
        s.devices[n]?.map DeviceState.stance := by
      by_cases hdist : d.msg.family = .distribution
      · intro n
        unfold handle at h
        cases hmsg : d.msg <;> simp only [hmsg, ScmsMsg.family, ScmsMsg.changesLists, reduceCtorEq,
          Bool.true_eq_false, Except.ok.injEq] at hdist hm h
        · unfold onCrlDownloadRequest at h
          split_ifs at h <;> cases h <;> rfl
        · cases h
          rfl
      · exact handle_frame_distribution h hdist
    refine ⟨⟨hcrlg hres, hstore, hbroadcast, fun n => .inl (hdev n)⟩, fun q hq => ?_⟩
    have hqf : q.msg.family = d.msg.family := by
      rcases hposts q hq with hq | hq
      · exact hq
      · exact absurd hq.1 hres
    refine ⟨hfam q (hqf ▸ hpub), fun hi => ?_⟩
    have : q.msg.family = .resolution ∨ q.msg.family = .publication := by
      revert hi
      cases q.msg <;> simp [ScmsMsg.family, ScmsMsg.issues]
    rcases this with hq | hq
    · exact absurd (hqf.symm.trans hq) hres
    · exact absurd (hqf.symm.trans hq) hpub

/-! ## Between publications -/

/-- The copies and the schedule while no publication is half delivered: the store and the broadcast
path agree, and the messages of publications are in pairs. -/
structure Settled (s : ScmsState S P) (k : Kernel (ScmsMsg S P)) : Prop where
  numbered : k.Numbered
  links : ∃ link, k.net.link nodes.crlg nodes.crlStore = some link ∧
    k.net.link nodes.crlg nodes.crlBroadcast = some link
  issuesAt : ∀ x ∈ k.heap, x.delivery.msg.issues = true → x.delivery.dst = nodes.crlg
  second : ∀ x ∈ k.heap, x.delivery.msg.publishes = true → x.delivery.dst = nodes.crlStore →
    ∃ y ∈ k.heap, y.seq = x.seq + 1 ∧ y.time = x.time ∧ y.delivery.msg.publishes = true ∧
      y.delivery.dst = nodes.crlBroadcast
  first : ∀ y ∈ k.heap, y.delivery.msg.publishes = true → y.delivery.dst ≠ nodes.crlStore →
    ∃ x ∈ k.heap, y.seq = x.seq + 1 ∧ y.time = x.time ∧ x.delivery.msg.publishes = true ∧
      x.delivery.dst = nodes.crlStore
  store : s.crlStore.entries <+: s.crlg.entries
  agree : s.crlStore.entries = s.crlBroadcast.entries
  devices : ∀ (n : NodeId) (dev : DeviceState S P), s.devices[n]? = some dev →
    dev.crl <+: s.crlBroadcast.entries

/-- The two messages of a publication, next to each other. -/
structure PublishPair (x y : Queued (ScmsMsg S P)) : Prop where
  seq : y.seq = x.seq + 1
  time : y.time = x.time
  first : x.delivery.msg.publishes = true ∧ x.delivery.dst = nodes.crlStore
  second : y.delivery.msg.publishes = true ∧ y.delivery.dst = nodes.crlBroadcast

section Deliver

variable {s s' : ScmsState S P} {k₀ k k' : Kernel (ScmsMsg S P)} {q : Queued (ScmsMsg S P)}
  {new : List (Queued (ScmsMsg S P))}

lemma next_mem (hnext : k₀.nextDelivery = some (q, k)) :
    q ∈ k₀.heap ∧ (∀ z ∈ k₀.heap, q.key ≤ z.key) ∧ (∀ z ∈ k.heap, z ∈ k₀.heap) ∧
      (∀ z ∈ k₀.heap, z = q ∨ z ∈ k.heap) ∧ k.net = k₀.net ∧ k.now = q.time := by
  obtain ⟨hperm, hmin, hk⟩ := Kernel.nextDelivery_spec hnext
  refine ⟨hperm.mem_iff.2 List.mem_cons_self, hmin,
    fun z hz => hperm.mem_iff.2 (List.mem_cons_of_mem _ hz),
    fun z hz => List.mem_cons.1 (hperm.mem_iff.1 hz), by rw [hk], by rw [hk]⟩

/-- A delivery that is no message of a publication finds the publications settled. -/
lemma CrlInv.settled (h : CrlInv s k₀) (hnext : k₀.nextDelivery = some (q, k))
    (hq : q.delivery.msg.publishes = false) : Settled s k := by
  obtain ⟨hmem, hmin, hold, hrest, hnet, -⟩ := next_mem hnext
  have hother : ∀ z ∈ k₀.heap, z.delivery.msg.publishes = true → z ∈ k.heap := by
    intro z hz hp
    refine (hrest z hz).resolve_left fun heq => ?_
    rw [heq, hq] at hp
    cases hp
  -- The next entry is the delivery, which is not the second message of a publication.
  have hnot : ∀ y ∈ k₀.heap, y.delivery.msg.publishes = true → ¬SecondNext k₀ y := by
    intro y hy hp hnext
    rw [h.numbered.eq_of_first hy hmem (hnext.2 q hmem) (hmin y hy), hq] at hp
    cases hp
  refine ⟨h.numbered.next hnext, ?_, fun z hz => h.issuesAt z (hold z hz), fun z hz hp hd => ?_,
    fun z hz hp hd => ?_, h.store, ?_, h.devices⟩
  · rw [hnet]
    exact h.links
  · obtain ⟨y, hy, hseq, htime, hpy, hdy⟩ := h.second z (hold z hz) hp hd
    exact ⟨y, hother y hy hpy, hseq, htime, hpy, hdy⟩
  · rcases h.first z (hold z hz) hp hd with ⟨y, hy, hseq, htime, hpy, hdy⟩ | ⟨-, hsecond⟩
    · exact ⟨y, hother y hy hpy, hseq, htime, hpy, hdy⟩
    · exact absurd hsecond (hnot z (hold z hz) hp)
  · rcases h.level with heq | ⟨-, y, hy, hp, -, hsecond⟩
    · exact heq
    · exact absurd hsecond (hnot y hy hp)

/-- While publications are settled, entries that come in pairs are scheduled, the generator's list
grows, and the devices follow the broadcast path. -/
lemma Settled.inv (h : Settled s k) (hsched : Kernel.Schedules k k' new)
    (hissues : ∀ x ∈ new, x.delivery.msg.issues = true → x.delivery.dst = nodes.crlg)
    (hpairs : ∀ z ∈ new, z.delivery.msg.publishes = true →
      ∃ x ∈ new, ∃ y ∈ new, PublishPair x y ∧ (z = x ∨ z = y))
    (hcrlg : s.crlg.entries <+: s'.crlg.entries) (hstore : s'.crlStore = s.crlStore)
    (hbroadcast : s'.crlBroadcast = s.crlBroadcast)
    (hdev : ∀ (n : NodeId) (dev : DeviceState S P), s'.devices[n]? = some dev →
      dev.crl <+: s.crlBroadcast.entries)
    (harmed : s'.crlg.publishArmed = true → ∃ x ∈ k'.heap, x.delivery.msg = .crlPublishTimer) :
    CrlInv s' k' := by
  have hmem : ∀ z, z ∈ k'.heap ↔ z ∈ new ∨ z ∈ k.heap := by
    intro z
    rw [hsched.heap, List.mem_append]
  refine ⟨h.numbered.schedules hsched, ?_, fun z hz hi => ?_, fun z hz hp hd => ?_,
    fun z hz hp hd => ?_, ?_, ?_, .inl ?_, ?_, harmed⟩
  · rw [hsched.net]
    exact h.links
  · rcases (hmem z).1 hz with hz | hz
    · exact hissues z hz hi
    · exact h.issuesAt z hz hi
  · rcases (hmem z).1 hz with hz | hz
    · obtain ⟨x, hx, y, hy, hpair, rfl | rfl⟩ := hpairs z hz hp
      · exact ⟨y, (hmem y).2 (.inl hy), hpair.seq, hpair.time, hpair.second⟩
      · exact absurd (hpair.second.2.symm.trans hd) (by decide)
    · obtain ⟨y, hy, hrest⟩ := h.second z hz hp hd
      exact ⟨y, (hmem y).2 (.inr hy), hrest⟩
  · rcases (hmem z).1 hz with hz | hz
    · obtain ⟨x, hx, y, hy, hpair, rfl | rfl⟩ := hpairs z hz hp
      · exact absurd hpair.first.2 hd
      · exact .inl ⟨x, (hmem x).2 (.inl hx), hpair.seq, hpair.time, hpair.first⟩
    · obtain ⟨x, hx, hrest⟩ := h.first z hz hp hd
      exact .inl ⟨x, (hmem x).2 (.inr hx), hrest⟩
  · rw [hstore]
    exact h.store.trans hcrlg
  · rw [hstore, hbroadcast, h.agree]
  · rw [hstore, hbroadcast, h.agree]
  · rw [hbroadcast]
    exact hdev

/-- The list of the generator reaches the store: the broadcast path is next. -/
lemma CrlInv.publish_store (h : CrlInv s k₀) (hnext : k₀.nextDelivery = some (q, k))
    (hq : q.delivery.msg.publishes = true) (hd : q.delivery.dst = nodes.crlStore) :
    CrlInv { s with crlStore := { s.crlStore with entries := s.crlg.entries } } k := by
  obtain ⟨hmem, hmin, hold, hrest, hnet, hnow⟩ := next_mem hnext
  have hnumbered := h.numbered.next hnext
  obtain ⟨y, hy, hseq, htime, hpy, hdy⟩ := h.second q hmem hq hd
  have hyq : y ≠ q := by
    rintro rfl
    omega
  have hyk : y ∈ k.heap := (hrest y hy).resolve_left hyq
  -- No other entry fits between the two messages of a publication.
  have hsecond : SecondNext k y := by
    refine ⟨by rw [hnow, htime], fun z hz => ?_⟩
    have hqz := hmin z (hold z hz)
    rw [Kernel.queued_key_le] at hqz ⊢
    rcases hqz with hlt | ⟨heq, hle⟩
    · exact .inl (htime ▸ hlt)
    · refine .inr ⟨htime.trans heq, ?_⟩
      have hne := h.numbered.next_ne hnext hz
      omega
  refine ⟨hnumbered, by rw [hnet]; exact h.links, fun z hz => h.issuesAt z (hold z hz),
    fun z hz hp hd' => ?_, fun z hz hp hd' => ?_, List.prefix_rfl, h.broadcast.trans h.store,
    .inr ⟨rfl, y, hyk, hpy, hdy, hsecond⟩, h.devices, fun ha => ?_⟩
  · obtain ⟨w, hw, hseq', htime', hpw, hdw⟩ := h.second z (hold z hz) hp hd'
    refine ⟨w, (hrest w hw).resolve_left ?_, hseq', htime', hpw, hdw⟩
    rintro rfl
    exact absurd (hd.symm.trans hdw) (by decide)
  · rcases h.first z (hold z hz) hp hd' with ⟨w, hw, hseq', htime', hpw, hdw⟩ | ⟨-, hsz⟩
    · rcases hrest w hw with rfl | hwk
      · have hzy : z = y := hnumbered.eq_of_seq hz hyk (by omega)
        exact .inr ⟨rfl, hzy ▸ hsecond⟩
      · exact .inl ⟨w, hwk, hseq', htime', hpw, hdw⟩
    · have hzq := h.numbered.eq_of_first (hold z hz) hmem (hsz.2 q hmem) (hmin z (hold z hz))
      exact absurd (hzq ▸ hd) hd'
  · obtain ⟨x, hx, hmsg⟩ := h.armed ha
    refine ⟨x, (hrest x hx).resolve_left ?_, hmsg⟩
    rintro rfl
    rw [hmsg] at hq
    cases hq

/-- The list of the generator reaches the broadcast path: the publication is over. -/
lemma CrlInv.publish_broadcast (h : CrlInv s k₀) (hnext : k₀.nextDelivery = some (q, k))
    (hq : q.delivery.msg.publishes = true) (hd : q.delivery.dst ≠ nodes.crlStore) :
    CrlInv { s with crlBroadcast := { s.crlBroadcast with entries := s.crlg.entries } } k := by
  obtain ⟨hmem, hmin, hold, hrest, hnet, hnow⟩ := next_mem hnext
  -- The first message of the publication is not in front any more, so it has been delivered.
  have hnofirst : ∀ x ∈ k₀.heap, q.seq = x.seq + 1 → q.time = x.time → False := by
    intro x hx hseq htime
    have hle := hmin x hx
    rw [Kernel.queued_key_le] at hle
    rcases hle with hlt | ⟨-, hle⟩
    · exact absurd (htime ▸ hlt) (lt_irrefl _)
    · omega
  have hstore : s.crlStore.entries = s.crlg.entries := by
    rcases h.first q hmem hq hd with ⟨x, hx, hseq, htime, -⟩ | ⟨hstore, -⟩
    · exact (hnofirst x hx hseq htime).elim
    · exact hstore
  refine ⟨h.numbered.next hnext, by rw [hnet]; exact h.links, fun z hz => h.issuesAt z (hold z hz),
    fun z hz hp hd' => ?_, fun z hz hp hd' => ?_, h.store, ?_, .inl hstore, fun n dev hn => ?_,
    fun ha => ?_⟩
  · obtain ⟨w, hw, hseq', htime', hpw, hdw⟩ := h.second z (hold z hz) hp hd'
    refine ⟨w, (hrest w hw).resolve_left ?_, hseq', htime', hpw, hdw⟩
    rintro rfl
    exact hnofirst z (hold z hz) hseq' htime'
  · rcases h.first z (hold z hz) hp hd' with ⟨w, hw, hseq', htime', hpw, hdw⟩ | ⟨-, hsz⟩
    · refine .inl ⟨w, (hrest w hw).resolve_left ?_, hseq', htime', hpw, hdw⟩
      rintro rfl
      exact hd hdw
    · have hzq := h.numbered.eq_of_first (hold z hz) hmem (hsz.2 q hmem) (hmin z (hold z hz))
      exact absurd (congrArg Queued.seq hzq) (h.numbered.next_ne hnext hz)
  · rw [hstore]
  · exact (h.devices n dev hn).trans (h.broadcast.trans h.store)
  · obtain ⟨x, hx, hmsg⟩ := h.armed ha
    refine ⟨x, (hrest x hx).resolve_left ?_, hmsg⟩
    rintro rfl
    rw [hmsg] at hq
    cases hq

/-! ## Growth -/

/-- Every copy of the list is kept or extended. -/
structure Grows (s s' : ScmsState S P) : Prop where
  crlg : s.crlg.entries <+: s'.crlg.entries
  store : s.crlStore.entries <+: s'.crlStore.entries
  broadcast : s.crlBroadcast.entries <+: s'.crlBroadcast.entries
  devices : ∀ (n : NodeId) (dev : DeviceState S P), s.devices[n]? = some dev →
    ∃ dev', s'.devices[n]? = some dev' ∧ dev.crl <+: dev'.crl

lemma Grows.refl (s : ScmsState S P) : Grows s s :=
  ⟨List.prefix_rfl, List.prefix_rfl, List.prefix_rfl, fun _ dev hn => ⟨dev, hn, List.prefix_rfl⟩⟩

lemma Grows.trans {s s' s'' : ScmsState S P} (h : Grows s s') (h' : Grows s' s'') :
    Grows s s'' where
  crlg := h.crlg.trans h'.crlg
  store := h.store.trans h'.store
  broadcast := h.broadcast.trans h'.broadcast
  devices n dev hn := by
    obtain ⟨dev', hn', hle⟩ := h.devices n dev hn
    obtain ⟨dev'', hn'', hle'⟩ := h'.devices n dev' hn'
    exact ⟨dev'', hn'', hle.trans hle'⟩

/-- A quiet step that adds no known device keeps every copy. -/
lemma Quiet.grows {adds : NodeId → Prop} (h : Quiet s s' adds)
    (hadds : ∀ n : NodeId, adds n → s.devices[n]? = none) : Grows s s' where
  crlg := by rw [h.crlg]
  store := by rw [h.store]
  broadcast := by rw [h.broadcast]
  devices n dev hn := by
    rcases h.devices n with heq | ⟨hadd, -⟩
    · rw [hn, Option.map_some, Option.map_eq_some_iff] at heq
      obtain ⟨dev', hn', hstance⟩ := heq
      have hcrl : dev'.crl = dev.crl := congrArg Prod.fst hstance
      exact ⟨dev', hn', by rw [hcrl]⟩
    · rw [hadds n hadd] at hn
      cases hn

/-! ## One delivery -/

lemma handle_refused {d : Delivery (ScmsMsg S P)} {out : Outbox (ScmsMsg S P)} {e : Fail}
    (h : s.handle c d out = .error e) :
    d.msg.publishes = false ∧ d.msg ≠ .crlPublishTimer := by
  unfold handle at h
  cases hm : d.msg <;> simp only [hm, reduceCtorEq] at h <;> simp [ScmsMsg.publishes]

/-- A publication sends the list to the store and to the broadcast path, one right after the
other. -/
lemma publish_schedules {d : Delivery (ScmsMsg S P)} (out : Outbox (ScmsMsg S P)) (entries : ℕ)
    (h : Settled s k) (hhost : k.queues[nodes.crlg]?.isSome) (htimers : out.timers = [])
    (hsends : out.sends = []) (hd : d.dst = nodes.crlg) :
    ∃ x y, PublishPair x y ∧
      Kernel.Schedules k (k.dispatch d.time d.dst (publish s d out entries)).2 [y, x] := by
  obtain ⟨link, hstore, hbroadcast⟩ := h.links
  rw [← hd] at hstore hbroadcast hhost
  have hboth : (publish s d out entries).sends =
      [⟨nodes.crlStore, .crlPublish entries, "crl-publish", s.sizes.crl entries, .backendNet,
          d.flow, d.run⟩,
        ⟨nodes.crlBroadcast, .crlPublish entries, "crl-broadcast", s.sizes.crl entries,
          .backendNet, d.flow, d.run⟩] := by
    simp [publish, hsends]
  obtain ⟨t, hsched⟩ := Kernel.dispatch_pair d.time hhost (by simp [publish, htimers]) hboth
    hstore hbroadcast rfl
  refine ⟨_, _, ?_, hsched⟩
  exact ⟨rfl, rfl, ⟨rfl, rfl⟩, ⟨rfl, rfl⟩⟩

lemma mem_pair {x y : Queued (ScmsMsg S P)} (hpair : PublishPair x y) :
    ∀ z ∈ [y, x], z.delivery.msg.publishes = true →
      ∃ a ∈ [y, x], ∃ b ∈ [y, x], PublishPair a b ∧ (z = a ∨ z = b) := by
  intro z hz _
  refine ⟨x, by simp, y, by simp, hpair, ?_⟩
  simpa [or_comm] using hz

lemma issues_pair {x y : Queued (ScmsMsg S P)} (hpair : PublishPair x y) :
    ∀ z ∈ [y, x], z.delivery.msg.issues = true → z.delivery.dst = nodes.crlg := by
  intro z hz hi
  have hp : z.delivery.msg.publishes = true := by
    simp only [List.mem_cons, List.not_mem_nil, or_false] at hz
    rcases hz with rfl | rfl
    · exact hpair.second.1
    · exact hpair.first.1
  revert hi hp
  cases z.delivery.msg <;> simp [ScmsMsg.issues, ScmsMsg.publishes]

/-- **One delivery keeps the invariant and every copy of the list.**

**Proof sketch.** By the message. The two messages of a publication replace the copies of the store
and of the broadcast path by the generator's list. With every other message the publications are
settled: an appended entry or the boundary of the cadence schedules a pair of messages, a download
installs the one list that the store and the broadcast path agree on, and the rest is quiet. -/
lemma deliver_crlInv {r r' : ScmsRun S P} {result : Except ProtoError Unit}
    {out : Outbox (ScmsMsg S P)} (h : CrlInv r.state r.kernel) (hwired : Wired r.kernel)
    (hnext : r.kernel.nextDelivery = some (q, k))
    (hproc : process c charge r q k = .ok ((result, out), r')) :
    CrlInv r'.state r'.kernel ∧ Grows r.state r'.state := by
  have hhost : k.queues[nodes.crlg]?.isSome := by
    rw [(Kernel.nextDelivery_spec hnext).2.2]
    exact hwired.hosted _ (by decide)
  obtain ⟨hmem, hmin, hold, hrest, hnet, -⟩ := next_mem hnext
  -- An armed publication keeps its timer, unless that is what is delivered.
  have harmed : q.delivery.msg ≠ .crlPublishTimer → ∀ {k' new}, Kernel.Schedules k k' new →
      r.state.crlg.publishArmed = true → ∃ x ∈ k'.heap, x.delivery.msg = .crlPublishTimer := by
    intro hne k' new hsched ha
    obtain ⟨x, hx, hmsg⟩ := h.armed ha
    refine ⟨x, ?_, hmsg⟩
    rw [hsched.heap]
    refine List.mem_append_right _ ((hrest x hx).resolve_left ?_)
    rintro rfl
    exact hne hmsg
  rcases process_cases hproc with ⟨rfl, -, e, herr⟩ | ⟨hh, hk'⟩
  · obtain ⟨hpub, htimer⟩ := handle_refused herr
    refine ⟨?_, .refl _⟩
    exact (h.settled hnext hpub).inv (.refl k) (by simp) (by simp) List.prefix_rfl rfl rfl
      h.devices (harmed htimer (.refl k))
  obtain ⟨new, hsched, hposts⟩ := k.dispatch_schedule q.delivery.time q.delivery.dst out
  rw [← hk'] at hsched
  cases hm : q.delivery.msg.changesLists with
  | false =>
    obtain ⟨hquiet, hsent⟩ := handle_quiet (A := fun _ => False) q.delivery.dst hh hm
    have hpub : q.delivery.msg.publishes = false := by
      revert hm
      cases q.delivery.msg <;> simp [ScmsMsg.changesLists, ScmsMsg.publishes]
    have htimer : q.delivery.msg ≠ .crlPublishTimer := by
      intro heq
      rw [heq] at hm
      cases hm
    have hnew : ∀ x ∈ new, x.delivery.msg.publishes = false ∧
        (x.delivery.msg.issues = true → x.delivery.dst = nodes.crlg) :=
      fun x hx => hsent _ (hposts x hx)
    refine ⟨(h.settled hnext hpub).inv hsched (fun x hx => (hnew x hx).2) ?_ ?_ hquiet.store
      hquiet.broadcast (hquiet.crl_prefix h.devices) ?_, hquiet.grows (fun n hn => hn.elim)⟩
    · intro z hz hp
      rw [(hnew z hz).1] at hp
      cases hp
    · rw [hquiet.crlg]
    · rw [hquiet.crlg]
      exact harmed htimer hsched
  | true =>
    unfold handle at hh
    cases hmsg : q.delivery.msg <;> simp only [hmsg, ScmsMsg.changesLists, Bool.false_eq_true,
      Except.ok.injEq] at hm hh
    case crlPublishTimer =>
      have hset := h.settled hnext (by rw [hmsg]; rfl)
      have hdst : q.delivery.dst = nodes.crlg := h.issuesAt q hmem (by rw [hmsg]; rfl)
      simp only [onCrlPublishTimer, Prod.mk.injEq] at hh
      obtain ⟨hs', rfl⟩ := hh
      obtain ⟨x, y, hpair, hboth⟩ := publish_schedules
        ((Outbox.new (charge (k.profileOf q.delivery.dst)) : Outbox (ScmsMsg S P)).sign 1)
        (sat32 r.state.crlg.entries.length) hset hhost rfl rfl hdst
      rw [hk', ← hs']
      refine ⟨hset.inv hboth (issues_pair hpair) (mem_pair hpair) List.prefix_rfl rfl rfl
        h.devices (fun ha => by cases ha), ?_⟩
      exact ⟨List.prefix_rfl, List.prefix_rfl, List.prefix_rfl,
        fun _ dev hn => ⟨dev, hn, List.prefix_rfl⟩⟩
    case crlAppend i la1 la2 jmax =>
      have hset := h.settled hnext (by rw [hmsg]; rfl)
      have hdst : q.delivery.dst = nodes.crlg := h.issuesAt q hmem (by rw [hmsg]; rfl)
      have hgrow : r.state.crlg.entries <+: r.state.crlg.entries ++ [entryOf i la1 la2 jmax] :=
        List.prefix_append _ _
      have hkeep : ∀ (n : NodeId) (dev : DeviceState S P), r.state.devices[n]? = some dev →
          ∃ dev', r.state.devices[n]? = some dev' ∧ dev.crl <+: dev'.crl :=
        fun _ dev hn => ⟨dev, hn, List.prefix_rfl⟩
      unfold onCrlAppend at hh
      dsimp only at hh
      split_ifs at hh with hcadence harm
      · simp only [Prod.mk.injEq] at hh
        obtain ⟨hs', rfl⟩ := hh
        rw [← hs']
        have hnew : new = [] := by
          rw [List.eq_nil_iff_forall_not_mem]
          exact fun x hx => absurd (hposts x hx) (by simp [Outbox.posts])
        subst hnew
        refine ⟨hset.inv hsched (by simp) (by simp) hgrow rfl rfl h.devices ?_,
          ⟨hgrow, List.prefix_rfl, List.prefix_rfl, hkeep⟩⟩
        exact fun _ => harmed (by rw [hmsg]; intro h; cases h) hsched harm
      · simp only [Prod.mk.injEq] at hh
        obtain ⟨hs', rfl⟩ := hh
        rw [← hs']
        have hposts' : ∀ x ∈ new, x.delivery.post.msg = .crlPublishTimer ∧
            x.delivery.post.dst = q.delivery.dst := by
          intro x hx
          have := hposts x hx
          simp only [Outbox.posts, Outbox.timers_startTimer, Outbox.timers_stageAt,
            Outbox.timers_sign, Outbox.timers_new, Outbox.sends_startTimer, Outbox.sends_stageAt,
            Outbox.sends_sign, Outbox.sends_new, List.nil_append, List.map_cons, List.map_nil,
            List.append_nil, List.mem_singleton] at this
          rw [this]
          exact ⟨rfl, rfl⟩
        refine ⟨hset.inv hsched (fun x hx _ => (hposts' x hx).2.trans hdst) ?_ hgrow rfl rfl
          h.devices ?_, ⟨hgrow, List.prefix_rfl, List.prefix_rfl, hkeep⟩⟩
        · intro z hz hp
          have hz : z.delivery.msg = .crlPublishTimer := (hposts' z hz).1
          rw [hz] at hp
          cases hp
        · -- The generator is hosted, so its timer is on the schedule.
          intro _
          obtain ⟨kept, -, hkept, -, -, hconn⟩ := k.dispatch_posts q.delivery.time q.delivery.dst
            (((Outbox.new (charge (k.profileOf q.delivery.dst)) :
              Outbox (ScmsMsg S P)).sign 1).stageAt .issued q.delivery.dst
              (some (r.state.sizes.crl (sat32
                (r.state.crlg.entries ++ [entryOf i la1 la2 jmax]).length)))
              q.delivery.flow q.delivery.run |>.startTimer
                (untilBoundary r.state.params q.delivery.time) .crlPublishTimer q.delivery.flow
                q.delivery.run)
          obtain ⟨rfl, -⟩ := hconn ⟨by rw [hdst]; exact hhost, by simp⟩
          rw [← hk'] at hkept
          have hin : (⟨q.delivery.dst, q.delivery.dst, .crlPublishTimer, q.delivery.flow,
              q.delivery.run⟩ : ScmsPost S P) ∈ r'.kernel.posts := by
            rw [hkept, Multiset.mem_add]
            left
            simp [Outbox.posts, Outbox.timerPost]
          obtain ⟨x, hx, hpost⟩ := List.mem_map.1 (Multiset.mem_coe.1 hin)
          exact ⟨x, hx, congrArg Post.msg hpost⟩
      · simp only [Prod.mk.injEq] at hh
        obtain ⟨hs', rfl⟩ := hh
        obtain ⟨x, y, hpair, hboth⟩ := publish_schedules
          (((Outbox.new (charge (k.profileOf q.delivery.dst)) :
            Outbox (ScmsMsg S P)).sign 1).stageAt .issued q.delivery.dst
            (some (r.state.sizes.crl (sat32
              (r.state.crlg.entries ++ [entryOf i la1 la2 jmax]).length)))
            q.delivery.flow q.delivery.run)
          (sat32 (r.state.crlg.entries ++ [entryOf i la1 la2 jmax]).length) hset hhost rfl rfl hdst
        rw [hk', ← hs']
        refine ⟨hset.inv hboth (issues_pair hpair) (mem_pair hpair) hgrow rfl rfl h.devices ?_,
          ⟨hgrow, List.prefix_rfl, List.prefix_rfl, hkeep⟩⟩
        exact harmed (by rw [hmsg]; intro h; cases h) hboth
    case crlPublish entries =>
      have hp : q.delivery.msg.publishes = true := by rw [hmsg]; rfl
      have hnone : ∀ (size : ℕ) (stage : StageId), out = (Outbox.new (charge (k.profileOf
          q.delivery.dst))).stageAt stage q.delivery.dst (some size) q.delivery.flow
          q.delivery.run → new = [] := by
        rintro size stage rfl
        rw [List.eq_nil_iff_forall_not_mem]
        exact fun x hx => absurd (hposts x hx) (by simp [Outbox.posts])
      unfold onCrlPublish at hh
      dsimp only at hh
      split_ifs at hh with hd
      · simp only [Prod.mk.injEq] at hh
        obtain ⟨hs', hout⟩ := hh
        obtain rfl := hnone _ _ hout.symm
        rw [← hs']
        refine ⟨(h.publish_store hnext hp hd).quiet (A := fun _ => False) (.same rfl rfl rfl rfl)
          hsched.gets (fun y hy => absurd hy (Option.not_mem_none y)) (fun b => by rw [hsched.net]), ?_⟩
        exact ⟨List.prefix_rfl, h.store, List.prefix_rfl,
          fun _ dev hn => ⟨dev, hn, List.prefix_rfl⟩⟩
      · simp only [Prod.mk.injEq] at hh
        obtain ⟨hs', hout⟩ := hh
        obtain rfl := hnone _ _ hout.symm
        rw [← hs']
        refine ⟨(h.publish_broadcast hnext hp hd).quiet (A := fun _ => False)
          (.same rfl rfl rfl rfl) hsched.gets (fun y hy => absurd hy (Option.not_mem_none y))
          (fun b => by rw [hsched.net]), ?_⟩
        exact ⟨List.prefix_rfl, List.prefix_rfl, h.broadcast.trans h.store,
          fun _ dev hn => ⟨dev, hn, List.prefix_rfl⟩⟩
    case crlDownload device entries =>
      have hset := h.settled hnext (by rw [hmsg]; rfl)
      unfold onCrlDownload at hh
      cases hdev : r.state.devices[device]? with
      | none => simp [hdev] at hh
      | some dev =>
        simp only [hdev, Except.ok.injEq, Prod.mk.injEq] at hh
        obtain ⟨hs', rfl⟩ := hh
        -- Whichever path delivered it, the list is the one both hold.
        have hlist : r.state.listFrom q.delivery.src = r.state.crlBroadcast.entries := by
          unfold listFrom
          split_ifs
          · rfl
          · exact hset.agree
        have hnew : new = [] := by
          rw [List.eq_nil_iff_forall_not_mem]
          exact fun x hx => absurd (hposts x hx) (by simp [Outbox.posts])
        subst hnew
        rw [← hs']
        refine ⟨hset.inv hsched (by simp) (by simp) List.prefix_rfl rfl rfl (fun n x hn => ?_)
          (harmed (by rw [hmsg]; intro h; cases h) hsched),
          ⟨List.prefix_rfl, List.prefix_rfl, List.prefix_rfl, fun n x hn => ?_⟩⟩
        · change (r.state.devices.insert device _)[n]? = some x at hn
          rw [OrdMap.get_insert] at hn
          split_ifs at hn
          · cases hn
            show r.state.listFrom q.delivery.src <+: _
            rw [hlist]
          · exact h.devices n x hn
        · show ∃ dev', (r.state.devices.insert device _)[n]? = some dev' ∧ _
          rw [OrdMap.get_insert]
          split_ifs with heq
          · refine ⟨_, rfl, ?_⟩
            show x.crl <+: r.state.listFrom q.delivery.src
            rw [hlist]
            exact h.devices n x hn
          · exact ⟨x, hn, List.prefix_rfl⟩

end Deliver

/-! ## Runs -/

section Runs

variable {certs : CertificateSizes} {params : ScmsParams} {t0 : SimTime} {D D' : Driver S P}
  {op : Op} {o : Reply S P}

lemma step_crlInv (hsound : D.Sound) (h : CrlInv D.state D.real)
    (hwires : op.wires ≠ some nodes.crlg)
    (hstep : (machine c charge certs params t0).step D op = .ok (o, D')) :
    CrlInv D'.state D'.real ∧
      ((∀ n, op.adds D.state n → D.state.devices[n]? = none) → Grows D.state D'.state) := by
  rcases step_real hsound hstep with ⟨⟨x, hget, hopens⟩, hlinks, hquiet⟩ |
    ⟨q, k, result, out, r', hpre, rfl, hnext, hproc, rfl, rfl⟩
  · exact ⟨h.quiet hquiet hget hopens (hlinks hwires), hquiet.grows⟩
  · have hreal : D.real = D.run.kernel := by rw [Driver.real, hpre]; rfl
    rw [hreal] at h
    obtain ⟨hinv, hgrows⟩ := deliver_crlInv h hsound.wired hnext hproc
    exact ⟨hinv, fun _ => hgrows⟩

/-- The copies of a new deployment are empty, and nothing is scheduled. -/
lemma crlInv_new (certs : CertificateSizes) (params : ScmsParams) {k : Kernel (ScmsMsg S P)}
    {link : Link} (hheap : k.heap = [])
    (hstore : k.net.link nodes.crlg nodes.crlStore = some link)
    (hbroadcast : k.net.link nodes.crlg nodes.crlBroadcast = some link) :
    CrlInv (ScmsState.new certs params : ScmsState S P) k := by
  have hnone : ∀ z, z ∉ k.heap := by
    intro z
    rw [hheap]
    exact List.not_mem_nil
  refine ⟨⟨fun z hz => absurd hz (hnone z), by rw [hheap]; exact List.nodup_nil⟩,
    ⟨link, hstore, hbroadcast⟩, fun z hz => absurd hz (hnone z), fun z hz => absurd hz (hnone z),
    fun z hz => absurd hz (hnone z), List.prefix_rfl, List.prefix_rfl, .inl rfl,
    fun n dev hn => ?_, fun ha => (nomatch ha)⟩
  cases hn.symm.trans Std.ExtTreeMap.getElem?_empty

lemma crlInv_init (c : Crypto S P) (charge : String → OpDescriptor → Duration)
    (certs : CertificateSizes) (params : ScmsParams) (t0 : SimTime) :
    CrlInv (machine c charge certs params t0).init.state
      (machine c charge certs params t0).init.real := by
  have hstore : BackendLinked nodes.crlg nodes.crlStore := by decide
  have hbroadcast : BackendLinked nodes.crlg nodes.crlBroadcast := by decide
  have hposts : (newAt certs params t0 : ScmsRun S P).kernel.posts = 0 := by
    rw [newAt, posts_hostBackend, Kernel.posts_newAt]
  have hinv := crlInv_new certs params (Kernel.posts_eq_zero hposts)
    (link_newAt certs params t0 hstore) (link_newAt certs params t0 hbroadcast)
  exact hinv

/-- No operation names the generator as a device, or adds a device that is known. -/
def keepsTopology (D : Driver S P) (op : Op) : Prop :=
  op.wires ≠ some nodes.crlg ∧ ∀ node, op = .addDevice node → D.state.devices[node]? = none

lemma keepsTopology.adds (h : keepsTopology D op) (n : NodeId) (hadd : op.adds D.state n) :
    D.state.devices[n]? = none := by
  cases op with
  | addDevice node =>
    cases hadd
    exact h.2 n rfl
  | preload device startI periods jmax => exact hadd.2
  | _ => exact hadd.elim

lemma steps_crlInv {is : List Op} {os : List (Reply S P)} (hsound : D.Sound)
    (hinv : CrlInv D.state D.real)
    (h : (machine c charge certs params t0).StepsIf keepsTopology D is os D') :
    D'.Sound ∧ CrlInv D'.state D'.real ∧ Grows D.state D'.state := by
  refine h.invariant (Q := fun D' => D'.Sound ∧ CrlInv D'.state D'.real ∧ Grows D.state D'.state)
    ⟨hsound, hinv, .refl _⟩ ?_
  rintro D₁ op o D₂ ⟨hsound₁, hinv₁, hgrows₁⟩ hG hstep
  obtain ⟨hinv₂, hgrows₂⟩ := step_crlInv hsound₁ hinv₁ hG.1 hstep
  exact ⟨step_sound hsound₁ hstep, hinv₂, hgrows₁.trans (hgrows₂ hG.adds)⟩

end Runs

/-! ## A revocation by hand -/

/-- A check for `keepsTopology`. -/
def keepsTopologyCheck (D : Driver S P) (op : Op) : Bool :=
  decide (op.wires ≠ some nodes.crlg) &&
    match op with
    | .addDevice node => D.state.devices[node]?.isNone
    | _ => true

lemma keepsTopology_of_check {D : Driver S P} {op : Op} (h : keepsTopologyCheck D op = true) :
    keepsTopology D op := by
  simp only [keepsTopologyCheck, Bool.and_eq_true, decide_eq_true_eq] at h
  refine ⟨h.1, fun node hop => ?_⟩
  subst hop
  exact Option.isNone_iff_eq_none.1 h.2

/-- The length of the list a device holds. -/
def crlLength (D : Driver S P) (device : NodeId) : Option ℕ :=
  D.state.devices[device]?.map fun dev => dev.crl.length

end V2xw.Scms
