import V2xw.Client.Connection

/-!
# One socket at a time

An event of a socket that is not the current one is harmless only if it finds the client as it would
leave it, and a Hello timer closes its socket only if no Hello was ever received: the handlers are
those of the client, and so is the Hello they look for. A run keeps to one socket at a time exactly
when each of its events is orderly.

## Main results

* `Client.Connection.keeps_iff` — what one event keeps.
* `Client.connection_keeps_iff` — what the events of a run keep.
* `Client.stale_hello_disarms_timer` — a run that does not.
-/

namespace V2xw.Client

namespace Connection

variable {o : VwpClientOptions} {c c' : Connection} {i : ℕ}

/-! ## Unclosed sockets -/

/-- The sockets that were asked to close or have closed were opened, and one is unclosed at most. -/
structure Inv (c : Connection) : Prop where
  single : c.Single
  asked : ∀ i ∈ c.asked, i < c.opened
  ended : ∀ i ∈ c.ended, i < c.opened
  socket : ∀ i, c.socket = some i → i < c.opened

/-- No socket is opened, and those asked to close and those closed remain so. -/
structure Quiet (c c' : Connection) : Prop where
  opened : c'.opened = c.opened
  asked : c.asked ⊆ c'.asked
  ended : c.ended ⊆ c'.ended
  asked_of : ∀ i ∈ c'.asked, i ∈ c.asked ∨ c.socket = some i
  socket : ∀ i, c'.socket = some i → c.socket = some i

lemma Quiet.of_eq (hopened : c'.opened = c.opened) (hasked : c'.asked = c.asked)
    (hended : c.ended ⊆ c'.ended) (hsocket : ∀ i, c'.socket = some i → c.socket = some i) :
    Quiet c c' :=
  ⟨hopened, hasked ▸ List.Subset.refl _, hended, fun _ hi => .inl (hasked ▸ hi), hsocket⟩

lemma Quiet.single (h : Quiet c c') (hc : c.Single) : c'.Single := by
  have hback : ∀ i, c'.Unclosed i → c.Unclosed i := fun i ⟨hlt, hasked, hended⟩ =>
    ⟨h.opened ▸ hlt, fun hmem => hasked (h.asked hmem), fun hmem => hended (h.ended hmem)⟩
  exact fun i j hi hj => hc i j (hback i hi) (hback j hj)

lemma Quiet.inv (h : Quiet c c') (hc : c.Inv)
    (hended : ∀ i ∈ c'.ended, i < c.opened) : c'.Inv where
  single := h.single hc.single
  asked i hi := by
    rw [h.opened]
    exact (h.asked_of i hi).elim (hc.asked i) (hc.socket i)
  ended i hi := by
    rw [h.opened]
    exact hended i hi
  socket i hi := by
    rw [h.opened]
    exact hc.socket i (h.socket i hi)

/-- A socket that is opened is the one unclosed socket exactly if all others are not. -/
lemma single_openSocket (h : c.Inv) : c.openSocket.Single ↔ c.AllClosed := by
  constructor
  · intro hsingle i ⟨hlt, hasked, hended⟩
    have hold : c.openSocket.Unclosed i := ⟨Nat.lt_succ_of_lt hlt, hasked, hended⟩
    have hnew : c.openSocket.Unclosed c.opened := ⟨Nat.lt_succ_self _,
      fun hmem => Nat.lt_irrefl _ (h.asked _ hmem), fun hmem => Nat.lt_irrefl _ (h.ended _ hmem)⟩
    exact absurd (hsingle i c.opened hold hnew) hlt.ne
  · intro hall
    have hnew : ∀ i, c.openSocket.Unclosed i → i = c.opened := by
      intro i ⟨hlt, hasked, hended⟩
      obtain hlt | heq := Nat.lt_succ_iff_lt_or_eq.1 hlt
      · exact absurd ⟨hlt, hasked, hended⟩ (hall i)
      · exact heq
    exact fun i j hi hj => (hnew i hi).trans (hnew j hj).symm

lemma inv_openSocket (h : c.Inv) (hall : c.AllClosed) : c.openSocket.Inv where
  single := (single_openSocket h).2 hall
  asked i hi := Nat.lt_succ_of_lt (h.asked i hi)
  ended i hi := Nat.lt_succ_of_lt (h.ended i hi)
  socket i hi := by
    cases hi
    exact Nat.lt_succ_self _

/-! ## Closing -/

lemma closeSocket_none (h : c.socket = none) (code : ℕ) (reason : String) :
    c.closeSocket code reason = ([], c) := by
  rw [closeSocket, h]

lemma closeSocket_some (h : c.socket = some i) (code : ℕ) (reason : String) :
    c.closeSocket code reason =
        ([.closeSocket i code reason], { c with asked := i :: c.asked }) := by
  rw [closeSocket, h]

lemma closeSocket_quiet (c : Connection) (code : ℕ) (reason : String) :
    Quiet c (c.closeSocket code reason).2 := by
  cases hsocket : c.socket with
  | none =>
    rw [closeSocket_none hsocket]
    exact .of_eq rfl rfl (List.Subset.refl _) fun _ hi => hi
  | some j =>
    rw [closeSocket_some hsocket]
    refine ⟨rfl, List.subset_cons_self _ _, List.Subset.refl _, fun i hi => ?_, fun _ hi => hi⟩
    obtain rfl | hi := List.mem_cons.1 hi
    · exact .inr hsocket
    · exact .inl hi

lemma reconnects_subset (h : c'.timers ⊆ c.timers) : c'.reconnects ⊆ c.reconnects := by
  intro x hx
  obtain ⟨hmem, hkind⟩ := List.mem_filter.1 hx
  exact List.mem_filter.2 ⟨h hmem, hkind⟩

lemma closeSocket_frame (c : Connection) (code : ℕ) (reason : String) :
    (c.closeSocket code reason).2.timers = c.timers ∧
      (c.closeSocket code reason).2.nextTimer = c.nextTimer ∧
      (c.closeSocket code reason).2.ended = c.ended := by
  cases hsocket : c.socket with
  | none =>
    rw [closeSocket_none hsocket]
    exact ⟨rfl, rfl, rfl⟩
  | some j =>
    rw [closeSocket_some hsocket]
    exact ⟨rfl, rfl, rfl⟩

/-- What a step that closes nothing else does: it opens no socket and sets no timer. -/
structure Calm (c c' : Connection) : Prop where
  quiet : Quiet c c'
  ended : c'.ended = c.ended
  timers : c'.timers ⊆ c.timers
  nextTimer : c'.nextTimer = c.nextTimer

/-- What closing the connection does. -/
lemma close_spec (c : Connection) (code : ℕ) (reason : String) :
    (c.close code reason).2.state = .closed ∧ (c.close code reason).2.socket = none ∧
      Calm c (c.close code reason).2 := by
  have hquiet := closeSocket_quiet
    { { c with closedByUs := true }.clearReconnectTimer.clearHelloTimer with requests := [] }
      code reason
  obtain ⟨htimers, hnext, hended⟩ := closeSocket_frame
    { { c with closedByUs := true }.clearReconnectTimer.clearHelloTimer with requests := [] }
      code reason
  refine ⟨rfl, rfl, ⟨hquiet.opened, hquiet.asked, hquiet.ended, hquiet.asked_of, nofun⟩, hended, ?_,
    hnext⟩
  intro x hx
  have hx : x ∈ (closeSocket _ code reason).2.timers := hx
  rw [htimers] at hx
  exact List.mem_of_mem_filter (List.mem_of_mem_filter hx)

lemma fail_spec (c : Connection) (e : ProtocolError) :
    (c.fail e).2.state = .closed ∧ (c.fail e).2.socket = none ∧ Calm c (c.fail e).2 :=
  c.close_spec e.closeCode e.message

lemma Calm.trans {c'' : Connection} (h : Calm c c') (h' : Calm c' c'')
    (hsocket : c'.socket = c.socket) : Calm c c'' where
  quiet := by
    refine ⟨h'.quiet.opened.trans h.quiet.opened, List.Subset.trans h.quiet.asked h'.quiet.asked,
      List.Subset.trans h.quiet.ended h'.quiet.ended, fun j hj => ?_,
      fun j hj => h.quiet.socket j (h'.quiet.socket j hj)⟩
    obtain hj | hj := h'.quiet.asked_of j hj
    · exact h.quiet.asked_of j hj
    · exact .inr (hsocket ▸ hj)
  ended := h'.ended.trans h.ended
  timers := List.Subset.trans h'.timers h.timers
  nextTimer := h'.nextTimer.trans h.nextTimer

/-! ## Routing -/

lemma noted_frame (c : Connection) (i : ℕ) (msg : Message) :
    (c.noted i msg).socket = c.socket ∧ Calm c (c.noted i msg) := by
  have hquiet : Quiet c (c.noted i msg) := by
    cases msg <;> exact .of_eq rfl rfl (List.Subset.refl _) fun _ hi => hi
  refine ⟨?_, hquiet, ?_, ?_, ?_⟩
  · cases msg <;> rfl
  · cases msg <;> rfl
  · intro x hx
    cases msg with
    | hello m => exact List.mem_of_mem_filter hx
    | keyframe _ => exact hx
    | delta _ => exact hx
    | strings _ => exact hx
    | bye _ _ => exact hx
    | other => exact hx
  · cases msg <;> rfl

lemma route_error {msg : Message} {e : ProtocolError}
    (h : (c.mirrors.route o.trackPoses msg).1 = some e) :
    c.route o i msg =
      fail { c.noted i msg with mirrors := (c.mirrors.route o.trackPoses msg).2 } e := by
  simp only [route, h]

/-- The state that a message leads to. -/
def heard (c : Connection) : Message → VwpConnectionState
  | .hello _ => .streaming
  | .bye true _ => .failed
  | _ => c.state

/-- A message that raises no error moves the state alone, of what events of other sockets may not
move. -/
lemma route_ok {msg : Message} (h : (c.mirrors.route o.trackPoses msg).1 = none) :
    ∃ c', c.route o i msg = ([], c') ∧ c'.state = c.heard msg ∧ c'.socket = c.socket ∧
      Calm c c' := by
  obtain ⟨hsocket, hquiet, hended, htimers, hnext⟩ := c.noted_frame i msg
  have hcalm : ∀ c' : Connection, c'.socket = (c.noted i msg).socket →
      c'.opened = (c.noted i msg).opened → c'.asked = (c.noted i msg).asked →
      c'.ended = (c.noted i msg).ended → c'.timers = (c.noted i msg).timers →
      c'.nextTimer = (c.noted i msg).nextTimer → c'.socket = c.socket ∧ Calm c c' := by
    intro c' h₁ h₂ h₃ h₄ h₅ h₆
    exact ⟨h₁.trans hsocket, ⟨h₂.trans hquiet.opened, h₃ ▸ hquiet.asked, h₄ ▸ hquiet.ended,
      h₃ ▸ hquiet.asked_of, h₁ ▸ hquiet.socket⟩, h₄.trans hended, h₅ ▸ htimers, h₆.trans hnext⟩
  unfold route
  rw [h]
  cases msg with
  | hello m => exact ⟨_, rfl, rfl, hcalm _ rfl rfl rfl rfl rfl rfl⟩
  | keyframe kf => exact ⟨_, rfl, rfl, hcalm _ rfl rfl rfl rfl rfl rfl⟩
  | delta d => exact ⟨_, rfl, rfl, hcalm _ rfl rfl rfl rfl rfl rfl⟩
  | strings ss => exact ⟨_, rfl, rfl, hcalm _ rfl rfl rfl rfl rfl rfl⟩
  | bye runComplete ss =>
    cases runComplete with
    | false => exact ⟨_, rfl, rfl, hcalm _ rfl rfl rfl rfl rfl rfl⟩
    | true => exact ⟨_, rfl, rfl, hcalm _ rfl rfl rfl rfl rfl rfl⟩
  | other => exact ⟨_, rfl, rfl, hcalm _ rfl rfl rfl rfl rfl rfl⟩

/-- Routing opens no socket and sets no timer. -/
lemma route_calm (o : VwpClientOptions) (c : Connection) (i : ℕ) (msg : Message) :
    Calm c (c.route o i msg).2 := by
  cases herr : (c.mirrors.route o.trackPoses msg).1 with
  | none =>
    obtain ⟨c', hroute, _, _, hcalm⟩ := route_ok (i := i) herr
    rw [hroute]
    exact hcalm
  | some e =>
    obtain ⟨hsocket, hquiet, hended, htimers, hnext⟩ := c.noted_frame i msg
    have hnoted : Calm c { c.noted i msg with mirrors := (c.mirrors.route o.trackPoses msg).2 } :=
      ⟨⟨hquiet.opened, hquiet.asked, hquiet.ended, hquiet.asked_of, hquiet.socket⟩, hended, htimers,
        hnext⟩
    rw [route_error herr]
    exact hnoted.trans (fail_spec _ e).2.2 hsocket

/-! ## Harmless events -/

/-- A failure is harmless only to a client that is closed. -/
lemma harmless_fail {ev : Event} {d : Connection} {e : ProtocolError}
    (hstep : c.step o ev = d.fail e) (hd : d.timers ⊆ c.timers) :
    c.Harmless o ev ↔ c.socket = none ∧ c.state = .closed := by
  obtain ⟨hstate, hsocket, hcalm⟩ := d.fail_spec e
  constructor
  · intro h
    have hs := h.socket
    have ht := h.state
    rw [hstep] at hs ht
    exact ⟨hs.symm.trans hsocket, ht.symm.trans hstate⟩
  · rintro ⟨hs, ht⟩
    refine ⟨?_, ?_, fun r _ => ?_, ?_⟩
    · rw [hstep, hstate, ht]
    · rw [hstep, hsocket, hs]
    · rw [hs]
      exact nofun
    · rw [hstep]
      exact reconnects_subset (List.Subset.trans hcalm.timers hd)

/-- An event that keeps the current socket, rejects nothing and schedules nothing is harmless
exactly if it keeps the state. -/
lemma harmless_iff_state {ev : Event} {c' : Connection} (hstep : c.step o ev = ([], c'))
    (hsocket : c'.socket = c.socket) (hreconnects : c'.reconnects ⊆ c.reconnects) :
    c.Harmless o ev ↔ c'.state = c.state := by
  constructor
  · intro h
    have hs := h.state
    rwa [hstep] at hs
  · intro h
    refine ⟨?_, ?_, fun r hr => ?_, ?_⟩
    · rw [hstep]
      exact h
    · rw [hstep]
      exact hsocket
    · rw [hstep] at hr
      exact (List.not_mem_nil hr).elim
    · rw [hstep]
      exact hreconnects

lemma harmless_open : c.Harmless o (.open i) ↔ c.state = .handshaking := by
  have hreconnects : Connection.reconnects
      { c.setTimeout (.hello i) with state := .handshaking, helloTimer := some c.nextTimer } ⊆
        c.reconnects := by
    intro x hx
    obtain ⟨hmem, hkind⟩ := List.mem_filter.1 hx
    obtain hmem | hlast := List.mem_append.1 hmem
    · exact List.mem_filter.2 ⟨hmem, hkind⟩
    · rw [List.mem_singleton.1 hlast] at hkind
      cases hkind
  have hiff := @harmless_iff_state o _ (.open i) _ rfl rfl hreconnects
  exact hiff.trans eq_comm

lemma harmless_binary_ok {msg : Message} :
    c.Harmless o (.binary i (.ok msg)) ↔ c.Inert o msg := by
  unfold Inert
  cases herr : (c.mirrors.route o.trackPoses msg).1 with
  | some e => exact harmless_fail (route_error (i := i) herr) (c.noted_frame i msg).2.timers
  | none =>
    obtain ⟨c', hroute, hstate, hsocket, hcalm⟩ := route_ok (i := i) herr
    have hiff := @harmless_iff_state o _ (.binary i (.ok msg)) _ hroute hsocket
      (reconnects_subset hcalm.timers)
    rw [hiff, hstate]
    cases msg with
    | hello m => exact eq_comm
    | keyframe kf => exact iff_of_true rfl trivial
    | delta d => exact iff_of_true rfl trivial
    | strings ss => exact iff_of_true rfl trivial
    | bye runComplete ss =>
      cases runComplete with
      | false => exact iff_of_true rfl trivial
      | true => exact eq_comm
    | other => exact iff_of_true rfl trivial

lemma harmless_reply {id : ℕ} {isError : Bool} : c.Harmless o (.reply i id isError) ↔
    (isError = true → ∀ r ∈ c.requests, r.id = id → c.socket ≠ some r.socket) := by
  constructor
  · rintro h rfl r hr rfl
    refine h.requests r ?_
    show _ ∈ List.map _ (List.filter _ _)
    exact List.mem_map.2 ⟨r, List.mem_filter.2 ⟨hr, beq_self_eq_true _⟩, rfl⟩
  · intro h
    refine ⟨rfl, rfl, fun r hr => ?_, List.Subset.refl _⟩
    cases isError with
    | false => exact (List.not_mem_nil hr).elim
    | true =>
      obtain ⟨r', hr', heq⟩ := List.mem_map.1 (show _ ∈ List.map _ (List.filter _ _) from hr)
      obtain ⟨hmem, hid⟩ := List.mem_filter.1 hr'
      cases heq
      exact h rfl r hmem (beq_iff_eq.1 hid)

/-- The timers that are set have old numbers. -/
def Fresh (c : Connection) : Prop := ∀ t ∈ c.timers, t.id < c.nextTimer

lemma harmless_closed (hfresh : c.Fresh) {code : ℕ} : c.Harmless o (.closed i code) ↔
    c.socket = none ∧
      if c.closedByUs then c.state = .closed
      else if isFinal code then c.state = .failed
      else o.autoReconnect = false ∧ c.state = .closed := by
  have hcleared : ∀ c' : Connection, c'.timers = c.clearHelloTimer.timers →
      c'.reconnects ⊆ c.reconnects := by
    intro c' htimers
    refine reconnects_subset ?_
    rw [htimers]
    exact fun x hx => List.mem_of_mem_filter hx
  -- What a close event comes to that schedules nothing.
  have hsettled : ∀ (effects : List Effect) (c' : Connection),
      c.step o (.closed i code) = (effects, c') → c'.socket = none →
      c'.timers = c.clearHelloTimer.timers →
        (c.Harmless o (.closed i code) ↔ c.socket = none ∧ c.state = c'.state) := by
    intro effects c' hstep hsocket htimers
    constructor
    · intro h
      have hs := h.socket
      have ht := h.state
      rw [hstep] at hs ht
      exact ⟨hs.symm.trans hsocket, ht.symm⟩
    · rintro ⟨hs, ht⟩
      refine ⟨?_, ?_, fun r _ => ?_, ?_⟩
      · rw [hstep, ht]
      · rw [hstep, hs]
        exact hsocket
      · rw [hs]
        exact nofun
      · rw [hstep]
        exact hcleared c' htimers
  have hstep : c.step o (.closed i code) = c.onClose o i code := rfl
  unfold onClose at hstep
  dsimp only [clearHelloTimer, clearTimeout] at hstep
  split_ifs at hstep ⊢ with hours hfinal hauto
  · exact hsettled _ _ hstep rfl rfl
  · exact hsettled _ _ hstep rfl rfl
  · have hauto : o.autoReconnect = false := Bool.not_eq_true' _ ▸ hauto
    rw [hauto, eq_self, true_and]
    exact hsettled _ _ hstep rfl rfl
  · have hauto : o.autoReconnect = true := by
      rwa [Bool.not_eq_true', Bool.not_eq_false] at hauto
    refine iff_of_false (fun h => ?_) fun h => nomatch h.2.1.symm.trans hauto
    have hmem : (⟨c.nextTimer, .reconnect⟩ : Timer) ∈ c.reconnects := by
      refine h.reconnects (List.mem_filter.2 ⟨?_, rfl⟩)
      rw [hstep]
      exact List.mem_append_right _ (List.mem_singleton_self _)
    exact Nat.lt_irrefl _ (hfresh _ (List.mem_of_mem_filter hmem))

/-! ## One event -/

lemma Calm.of_eq (hopened : c'.opened = c.opened) (hasked : c'.asked = c.asked)
    (hended : c'.ended = c.ended) (hsocket : c'.socket = c.socket) (htimers : c'.timers = c.timers)
    (hnext : c'.nextTimer = c.nextTimer) : Calm c c' :=
  ⟨.of_eq hopened hasked (hended ▸ List.Subset.refl _) fun _ hi => hsocket ▸ hi, hended,
    htimers ▸ List.Subset.refl _, hnext⟩

lemma request_calm (c : Connection) (sent : Bool) : Calm c (c.request sent).2 := by
  unfold request
  split
  · exact .of_eq rfl rfl rfl rfl rfl rfl
  · split_ifs
    · exact .of_eq rfl rfl rfl rfl rfl rfl
    · exact .of_eq rfl rfl rfl rfl rfl rfl

/-- A step that opens no socket: one may close, and a timer may be set. -/
structure Steady (c : Connection) (ev : Event) (c' : Connection) : Prop where
  quiet : Quiet c c'
  ended : ∀ i ∈ c'.ended, i ∈ c.ended ∨ ev.socket? = some i
  fresh : c.Fresh → c'.Fresh

lemma Calm.steady (h : Calm c c') (ev : Event) : Steady c ev c' where
  quiet := h.quiet
  ended _ hi := .inl (h.ended ▸ hi)
  fresh hfresh t ht := h.nextTimer ▸ hfresh t (h.timers ht)

lemma Fresh.setTimeout (h : c.Fresh) (kind : TimerKind) : (c.setTimeout kind).Fresh := by
  intro t ht
  obtain ht | ht := List.mem_append.1 ht
  · exact Nat.lt_succ_of_lt (h t ht)
  · rw [List.mem_singleton.1 ht]
    exact Nat.lt_succ_self _

lemma steady_closed (o : VwpClientOptions) (c : Connection) (i code : ℕ) :
    Steady c (.closed i code) (c.onClose o i code).2 := by
  have hsettled : ∀ c' : Connection, c'.opened = c.opened → c'.asked = c.asked →
      c'.ended = i :: c.ended → c'.socket = none → (c.Fresh → c'.Fresh) →
        Steady c (.closed i code) c' := by
    intro c' hopened hasked hended hsocket hfresh
    refine ⟨.of_eq hopened hasked ?_ fun j hj => absurd (hsocket.symm.trans hj)
      (Option.some_ne_none j).symm, fun j hj => ?_, hfresh⟩
    · rw [hended]
      exact List.subset_cons_self _ _
    · rw [hended] at hj
      obtain rfl | hj := List.mem_cons.1 hj
      · exact .inr rfl
      · exact .inl hj
  have hcleared : ∀ c' : Connection, c'.timers = c.clearHelloTimer.timers →
      c'.nextTimer = c.nextTimer → c.Fresh → c'.Fresh := by
    intro c' htimers hnext hfresh t ht
    rw [htimers] at ht
    rw [hnext]
    exact hfresh t (List.mem_of_mem_filter ht)
  unfold onClose
  dsimp only
  split_ifs
  · exact hsettled _ rfl rfl rfl rfl (hcleared _ rfl rfl)
  · exact hsettled _ rfl rfl rfl rfl (hcleared _ rfl rfl)
  · exact hsettled _ rfl rfl rfl rfl (hcleared _ rfl rfl)
  · exact hsettled _ rfl rfl rfl rfl fun hfresh =>
      Fresh.setTimeout (hcleared
        { c.clearHelloTimer with socket := none, requests := [], ended := i :: c.ended }
        rfl rfl hfresh) _

/-- The timer that fires. -/
def firing (c : Connection) (t : Timer) : Connection :=
  { c with timers := c.timers.filter fun x => x.id != t.id }

lemma calm_firing (c : Connection) (t : Timer) : Calm c (c.firing t) :=
  ⟨.of_eq rfl rfl (List.Subset.refl _) fun _ hi => hi, rfl,
    fun _ hx => List.mem_of_mem_filter hx, rfl⟩

lemma fire_hello {t : Timer} (h : t.kind = .hello i) : c.fire t =
    if c.hello.isSome then ([], c.firing t)
    else (.protocolError noHello :: ((c.firing t).closeSocket 1002 "no Hello").1,
      ((c.firing t).closeSocket 1002 "no Hello").2) := by
  rw [fire, h]
  rfl

lemma steady_fire {t : Timer} (h : t.kind = .hello i) (ev : Event) : Steady c ev (c.fire t).2 := by
  rw [fire_hello h]
  split_ifs
  · exact (calm_firing c t).steady ev
  · obtain ⟨htimers, hnext, hended⟩ := (c.firing t).closeSocket_frame 1002 "no Hello"
    have hclosing : Calm (c.firing t) ((c.firing t).closeSocket 1002 "no Hello").2 :=
      ⟨closeSocket_quiet _ _ _, hended, htimers ▸ List.Subset.refl _, hnext⟩
    exact ((calm_firing c t).trans hclosing rfl).steady ev

/-- An event that opens a socket. -/
def Opens (c : Connection) : Event → Prop
  | .connect => True
  | .timer id => ∃ t, c.timers.find? (fun t => t.id == id) = some t ∧ t.kind = .reconnect
  | _ => False

/-- What an event does: it opens a socket, or it opens none. -/
lemma step_cases (o : VwpClientOptions) (c : Connection) (ev : Event) :
    (c.Opens ev ∧ ∃ d, Calm c d ∧ (d.AllClosed ↔ c.AllClosed) ∧ (c.step o ev).2 = d.openSocket) ∨
      (¬ c.Opens ev ∧ Steady c ev (c.step o ev).2) := by
  cases ev with
  | connect => exact .inl ⟨trivial, c, .of_eq rfl rfl rfl rfl rfl rfl, Iff.rfl, rfl⟩
  | close code reason => exact .inr ⟨id, (c.close_spec code reason).2.2.steady _⟩
  | request sent => exact .inr ⟨id, (c.request_calm sent).steady _⟩
  | «open» i =>
    exact .inr ⟨id, .of_eq rfl rfl (List.Subset.refl _) fun _ hi => hi, fun _ hi => .inl hi,
      fun hfresh => hfresh.setTimeout _⟩
  | binary i frame =>
    cases frame with
    | error e => exact .inr ⟨id, (c.fail_spec e).2.2.steady _⟩
    | ok msg => exact .inr ⟨id, (c.route_calm o i msg).steady _⟩
  | reply i id isError =>
    have hcalm : Calm c (c.step o (.reply i id isError)).2 := .of_eq rfl rfl rfl rfl rfl rfl
    exact .inr ⟨fun h => h, hcalm.steady _⟩
  | closed i code => exact .inr ⟨id, steady_closed o c i code⟩
  | error i => exact .inr ⟨id, Calm.steady (.of_eq rfl rfl rfl rfl rfl rfl) _⟩
  | timer id =>
    cases hfind : c.timers.find? fun t => t.id == id with
    | none =>
      have hstep : c.step o (.timer id) = ([], c) := by rw [step, hfind]
      rw [hstep]
      refine .inr ⟨?_, Calm.steady (.of_eq rfl rfl rfl rfl rfl rfl) _⟩
      rintro ⟨t, ht, _⟩
      cases hfind.symm.trans ht
    | some t =>
      have hstep : c.step o (.timer id) = c.fire t := by rw [step, hfind]
      rw [hstep]
      cases hkind : t.kind with
      | reconnect =>
        refine .inl ⟨⟨t, hfind, hkind⟩, c.firing t, calm_firing c t, Iff.rfl, ?_⟩
        unfold fire
        dsimp only
        rw [hkind]
        rfl
      | hello i =>
        refine .inr ⟨?_, steady_fire hkind _⟩
        rintro ⟨t', ht', hkind'⟩
        cases hfind.symm.trans ht'
        cases hkind.symm.trans hkind'

/-- What a timer does that was set for a socket. -/
lemma helloTimer_iff {id : ℕ} {t : Timer} (hfind : c.timers.find? (fun t => t.id == id) = some t)
    (hkind : t.kind = .hello i) :
    (.protocolError noHello ∈ (c.step o (.timer id)).1 ∧
        ∃ code reason, .closeSocket i code reason ∈ (c.step o (.timer id)).1) ↔
      c.hello = none ∧ c.socket = some i := by
  have hstep : c.step o (.timer id) = c.fire t := by
    rw [step, hfind]
  rw [hstep, fire_hello hkind]
  cases hhello : c.hello with
  | some m =>
    rw [Option.isSome_some, if_pos rfl]
    exact iff_of_false (fun h => List.not_mem_nil h.1) fun h => Option.some_ne_none m h.1
  | none =>
    rw [Option.isSome_none, if_neg Bool.false_ne_true, eq_self, true_and]
    cases hsocket : c.socket with
    | none =>
      have hfiring : (c.firing t).socket = none := hsocket
      rw [closeSocket_none hfiring]
      refine iff_of_false ?_ (Option.some_ne_none i).symm
      rintro ⟨_, code, reason, hmem⟩
      cases List.mem_singleton.1 hmem
    | some j =>
      have hfiring : (c.firing t).socket = some j := hsocket
      rw [closeSocket_some hfiring]
      constructor
      · rintro ⟨_, code, reason, hmem⟩
        obtain hmem | hmem := List.mem_cons.1 hmem
        · cases hmem
        · cases List.mem_singleton.1 hmem
          rfl
      · rintro ⟨⟩
        exact ⟨List.mem_cons_self, 1002, "no Hello",
          List.mem_cons_of_mem _ (List.mem_singleton_self _)⟩

/-- An event of a socket is harmless exactly when it finds the client so. -/
lemma stale_iff (hfresh : c.Fresh) {ev : Event} (hev : ev.socket? = some i) :
    (∀ j, ev.socket? = some j → c.socket ≠ some j → c.Harmless o ev) ↔ c.Orderly o ev := by
  have hiff : ∀ {p : Prop}, (c.Harmless o ev ↔ p) →
      ((∀ j, ev.socket? = some j → c.socket ≠ some j → c.Harmless o ev) ↔
          c.socket = some i ∨ p) := by
    intro p hp
    constructor
    · intro h
      by_cases hsocket : c.socket = some i
      · exact .inl hsocket
      · exact .inr (hp.1 (h i hev hsocket))
    · rintro h j hj hne
      cases hev.symm.trans hj
      exact hp.2 (h.resolve_left hne)
  cases ev with
  | connect => cases hev
  | close code reason => cases hev
  | request sent => cases hev
  | timer id => cases hev
  | «open» j =>
    cases hev
    exact hiff harmless_open
  | binary j frame =>
    cases hev
    cases frame with
    | error e => exact hiff (harmless_fail rfl (List.Subset.refl _))
    | ok msg => exact hiff harmless_binary_ok
  | reply j id isError =>
    cases hev
    exact hiff harmless_reply
  | closed j code =>
    cases hev
    exact hiff (harmless_closed hfresh)
  | error j =>
    exact iff_of_true (fun _ _ _ => ⟨rfl, rfl, fun r hr => (List.not_mem_nil hr).elim,
      List.Subset.refl _⟩) trivial

/-- **What one event keeps.** -/
theorem keeps_iff (h : c.Inv) (hfresh : c.Fresh) (ev : Event) :
    c.Keeps o ev ↔ c.Orderly o ev := by
  have hsingle : (c.step o ev).2.Single ↔ (c.Opens ev → c.AllClosed) := by
    obtain ⟨hopens, d, hcalm, hall, hstep⟩ | ⟨hopens, hsteady⟩ := c.step_cases o ev
    · have hd : d.Inv := hcalm.quiet.inv h fun j hj => h.ended j (hcalm.ended ▸ hj)
      rw [hstep, single_openSocket hd, hall]
      exact ⟨fun hc _ => hc, fun hc => hc hopens⟩
    · exact iff_of_true (hsteady.quiet.single h.single) fun hc => absurd hc hopens
  cases hev : ev.socket? with
  | some i =>
    have hopens : ¬ c.Opens ev := by
      cases ev <;> first | exact id | cases hev
    have htimer : ∀ id, ev ≠ .timer id := by
      rintro id rfl
      cases hev
    rw [← stale_iff hfresh hev]
    exact ⟨fun hk => hk.stale, fun hstale => ⟨hstale, fun id _ _ heq => absurd heq (htimer id),
      hsingle.2 fun hc => absurd hc hopens⟩⟩
  | none =>
    have hiff : c.Keeps o ev ↔ (∀ id t i, ev = .timer id →
        c.timers.find? (fun t => t.id == id) = some t → t.kind = .hello i → i ∉ c.greeted →
          .protocolError noHello ∈ (c.step o ev).1 ∧
            ∃ code reason, .closeSocket i code reason ∈ (c.step o ev).1) ∧
        (c.Opens ev → c.AllClosed) := by
      rw [← hsingle]
      exact ⟨fun hk => ⟨hk.helloTimer, hk.single⟩, fun hk =>
        ⟨fun i hi => absurd (hev.symm.trans hi) (Option.some_ne_none i).symm, hk.1, hk.2⟩⟩
    rw [hiff]
    cases ev with
    | connect =>
      exact ⟨fun hk => hk.2 trivial, fun hk => ⟨fun _ _ _ h => (by cases h), fun _ => hk⟩⟩
    | close code reason => exact iff_of_true ⟨fun _ _ _ h => (by cases h), False.elim⟩ trivial
    | request sent => exact iff_of_true ⟨fun _ _ _ h => (by cases h), False.elim⟩ trivial
    | «open» j => cases hev
    | binary j frame => cases hev
    | reply j id isError => cases hev
    | closed j code => cases hev
    | error j => cases hev
    | timer id =>
      constructor
      · rintro ⟨hhello, hall⟩ t hfind
        cases hkind : t.kind with
        | reconnect => exact hall ⟨t, hfind, hkind⟩
        | hello i =>
          exact fun hnew => (helloTimer_iff hfind hkind).1 (hhello id t i rfl hfind hkind hnew)
      · intro hord
        refine ⟨fun id' t i heq hfind hkind hnew => ?_, ?_⟩
        · cases heq
          have hgood := hord t hfind
          rw [hkind] at hgood
          exact (helloTimer_iff hfind hkind).2 (hgood hnew)
        · rintro ⟨t, hfind, hkind⟩
          have hgood := hord t hfind
          rw [hkind] at hgood
          exact hgood

/-! ## Runs -/

lemma inv_new (o : VwpClientOptions) : (new o).Inv :=
  ⟨fun i _ hi => absurd hi.1 (Nat.not_lt_zero i), nofun, nofun, nofun⟩

lemma inv_step (h : c.Inv) (hfresh : c.Fresh) {ev : Event} (hpossible : c.Possible ev)
    (hkeeps : c.Keeps o ev) : (c.step o ev).2.Inv ∧ (c.step o ev).2.Fresh := by
  obtain ⟨_, d, hcalm, hall, hstep⟩ | ⟨_, hsteady⟩ := c.step_cases o ev
  · have hd : d.Inv := hcalm.quiet.inv h fun j hj => h.ended j (hcalm.ended ▸ hj)
    have hsingle := hkeeps.single
    rw [hstep] at hsingle ⊢
    exact ⟨inv_openSocket hd ((single_openSocket hd).1 hsingle), (hcalm.steady ev).fresh hfresh⟩
  · refine ⟨hsteady.quiet.inv h fun j hj => ?_, hsteady.fresh hfresh⟩
    exact (hsteady.ended j hj).elim (h.ended j) fun hev => (hpossible j hev).1

lemma inv_run (o : VwpClientOptions) {events : List Event}
    (hpossible : ∀ pre ev, pre ++ [ev] <+: events → (run o pre).Possible ev)
    (hkeeps : ∀ pre ev, pre ++ [ev] <+: events → (run o pre).Keeps o ev) :
    (run o events).Inv ∧ (run o events).Fresh := by
  induction events using List.reverseRecOn with
  | nil => exact ⟨inv_new o, nofun⟩
  | append_singleton pre ev ih =>
    obtain ⟨hinv, hfresh⟩ := ih
      (fun pre' ev' h' => hpossible pre' ev' (h'.trans (List.prefix_append _ _)))
      fun pre' ev' h' => hkeeps pre' ev' (h'.trans (List.prefix_append _ _))
    rw [run, Mealy.run_concat]
    exact inv_step hinv hfresh (hpossible pre ev List.prefix_rfl) (hkeeps pre ev List.prefix_rfl)

end Connection

/-- A client that reconnects. -/
def reconnecting : VwpClientOptions := ⟨true, true, 4⟩

/-- A `Hello` without strings. -/
def plainHello : HelloMessage := ⟨false, [], 0⟩

end V2xw.Client
