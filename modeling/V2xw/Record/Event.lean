import V2xw.Lib.StableSort
import V2xw.Record.Wire

/-!
# Event bodies

The body of an `Event` frame of `crates/v2xw-record/src/wire/event.rs`: an index of the events,
column by column, sorted by instant and channel, and then their payloads, each padded to a multiple
of eight.

The index has sixteen bits for the length of a padded payload. A payload that is longer than that
loses the bytes beyond, without an error.

## Main definitions

* `EventBody` — a batch of events.
* `EventBody.encode`, `EventBody.decode`.

## Main results

* `EventBody.event_roundTrip` — a batch is decoded to its entries, stably sorted and
  padded, if and only if all payloads fit.
* `EventBody.long_payload_lost` — a payload that does not.
-/

namespace V2xw.Record

open Layout StableSort

/-- The length of the fixed part of an event body. -/
def eventPrefixBytes : ℕ := 32

/-- Bytes per index entry. -/
def indexStride : ℕ := 16

/-- One event in a batch. -/
structure EventEntry where
  simTimeNs : SimTime
  channelId : UInt16
  payload : Bytes
  deriving DecidableEq, Repr

/-- A decoded event body. -/
structure EventBody where
  tStartNs : SimTime
  tEndNs : SimTime
  entries : List EventEntry
  deriving DecidableEq, Repr

/-- The fixed part of an event body. -/
structure EventPrefix where
  tStartNs : SimTime
  tEndNs : SimTime
  count : UInt32
  offIndex : UInt32
  offPayloads : UInt32
  payloadBytes : UInt32

/-- The fields of the fixed part. -/
def EventPrefix.table : Table EventPrefix where
  columns :=
    [field EventPrefix.tStartNs fun v r => { r with tStartNs := v },
     field EventPrefix.tEndNs fun v r => { r with tEndNs := v },
     field EventPrefix.count fun v r => { r with count := v },
     field EventPrefix.offIndex fun v r => { r with offIndex := v },
     field EventPrefix.offPayloads fun v r => { r with offPayloads := v },
     field EventPrefix.payloadBytes fun v r => { r with payloadBytes := v }]
  empty := ⟨0, 0, 0, 0, 0, 0⟩
  complete r := by simp only [refill_cons, refill_nil, field_fill]

/-- One row of the index. -/
structure IndexRow where
  simTimeNs : SimTime
  payloadOff : UInt32
  payloadLen : UInt16
  channelId : UInt16

/-- The columns of the index. -/
def IndexRow.table : Table IndexRow where
  columns :=
    [field IndexRow.simTimeNs fun v r => { r with simTimeNs := v },
     field IndexRow.payloadOff fun v r => { r with payloadOff := v },
     field IndexRow.payloadLen fun v r => { r with payloadLen := v },
     field IndexRow.channelId fun v r => { r with channelId := v }]
  empty := ⟨0, 0, 0, 0⟩
  complete r := by simp only [refill_cons, refill_nil, field_fill]

/-- Whether an instant and a channel come before others. -/
def keyLt (t : SimTime) (c : UInt16) (t' : SimTime) (c' : UInt16) : Bool :=
  decide (t < t') || (t == t' && decide (c < c'))

namespace EventEntry

/-- The order of the index. -/
def le (e e' : EventEntry) : Bool := !keyLt e'.simTimeNs e'.channelId e.simTimeNs e.channelId

/-- The length of the padded payload. -/
def paddedLen (e : EventEntry) : ℕ := ceil8 e.payload.length

/-- The entry with its payload padded to a multiple of eight. -/
def pad (e : EventEntry) : EventEntry :=
  { e with payload := e.payload ++ List.replicate (e.paddedLen - e.payload.length) 0 }

end EventEntry

namespace EventBody

/-- The entries in the order of the index; those of one instant and channel keep their order. -/
def sorted (b : EventBody) : List EventEntry := b.entries.mergeSort EventEntry.le

/-- The rows of the index, the payloads of the first one at an offset. -/
def indexRows : ℕ → List EventEntry → List IndexRow
  | _, [] => []
  | rel, e :: es =>
    ⟨e.simTimeNs, UInt32.ofNat rel, UInt16.ofNat e.paddedLen, e.channelId⟩ ::
      indexRows (rel + e.paddedLen) es

/-- The bytes of all padded payloads. -/
def payloadBytes (es : List EventEntry) : ℕ := (es.map EventEntry.paddedLen).sum

/-- The encoded body length in bytes. -/
def encodedLen (b : EventBody) : ℕ :=
  eventPrefixBytes + indexStride * b.entries.length + payloadBytes b.entries

/-- The fixed part the body is written with. -/
def fixed (b : EventBody) : EventPrefix where
  tStartNs := b.tStartNs
  tEndNs := b.tEndNs
  count := UInt32.ofNat b.sorted.length
  offIndex := UInt32.ofNat (if 0 < b.sorted.length then eventPrefixBytes else 0)
  offPayloads := UInt32.ofNat (if 0 < payloadBytes b.sorted then
    eventPrefixBytes + indexStride * b.sorted.length else 0)
  payloadBytes := UInt32.ofNat (payloadBytes b.sorted)

/-- Encodes the body, sorting the index and padding every payload. -/
def encode (b : EventBody) : Bytes :=
  emit EventPrefix.table.columns [b.fixed] ++
    (emit IndexRow.table.columns (indexRows 0 b.sorted) ++
      b.sorted.flatMap fun e => e.pad.payload)

/-- Reads the entries from the `i`th of `n` on, `k` of them; the one before had the key `prev`. -/
def decodeEntries (body : Bytes) (p : EventPrefix) (n : ℕ) :
    ℕ → ℕ → SimTime × UInt16 → Except RecordError (List EventEntry)
  | 0, _, _ => .ok []
  | k + 1, i, prev => do
    let r ← IndexRow.table.readRow (.truncated "vwp Event") body p.offIndex.toNat n i
    if decide (0 < i) && keyLt r.simTimeNs r.channelId prev.1 prev.2 then
      .error (.malformed "vwp Event"
        s!"index entry {i} breaks the (sim_time_ns, channel_id) ordering (§3.6.1)")
    else if r.payloadOff.toNat % 8 ≠ 0 then
      .error (.malformed "vwp Event"
        s!"payload_off = {r.payloadOff} of entry {i} must be a multiple of 8")
    else if p.payloadBytes.toNat < r.payloadOff.toNat + r.payloadLen.toNat then
      .error (.truncated "vwp Event.payload" r.payloadOff.toNat r.payloadLen.toNat
        (p.payloadBytes.toNat - r.payloadOff.toNat))
    else
      let payload ← readAt (.truncated "vwp Event.payload") body
        (p.offPayloads.toNat + r.payloadOff.toNat) r.payloadLen.toNat
      let rest ← decodeEntries body p n k (i + 1) (r.simTimeNs, r.channelId)
      .ok (⟨r.simTimeNs, r.channelId, payload⟩ :: rest)

/-- Decodes a body. -/
def decode (body : Bytes) : Except RecordError EventBody := do
  let p ← EventPrefix.table.readRecord (.truncated "vwp Event") body 0
  if p.count.toNat = 0 then .ok ⟨p.tStartNs, p.tEndNs, []⟩
  else if p.offIndex.toNat % 8 ≠ 0 ∨ p.offPayloads.toNat % 8 ≠ 0 then
    .error (.malformed "vwp Event"
      s!"off_index = {p.offIndex} and off_payloads = {p.offPayloads} must be 8-aligned")
  else
    let n ← checkedCount p.count.toNat 16 body.length "vwp Event" "event_count"
    let entries ← decodeEntries body p n n 0 (0, 0)
    .ok ⟨p.tStartNs, p.tEndNs, entries⟩

end EventBody

/-! ## The order of the index -/

lemma keyLt_iff {t t' : SimTime} {c c' : UInt16} :
    keyLt t c t' c' = true ↔
      t.toNat < t'.toNat ∨ t.toNat = t'.toNat ∧ c.toNat < c'.toNat := by
  rw [keyLt, Bool.or_eq_true, Bool.and_eq_true, decide_eq_true_eq, decide_eq_true_eq,
    beq_iff_eq, UInt64.lt_iff_toNat_lt, UInt16.lt_iff_toNat_lt, UInt64.toNat_inj]

lemma EventEntry.le_iff {e e' : EventEntry} :
    e.le e' = true ↔ e.simTimeNs.toNat < e'.simTimeNs.toNat ∨
      e.simTimeNs.toNat = e'.simTimeNs.toNat ∧ e.channelId.toNat ≤ e'.channelId.toNat := by
  rw [EventEntry.le, Bool.not_eq_true', ← Bool.not_eq_true, keyLt_iff]
  omega

lemma EventEntry.le_trans (a b c : EventEntry) (hab : a.le b = true) (hbc : b.le c = true) :
    a.le c = true := by
  rw [EventEntry.le_iff] at hab hbc ⊢
  omega

lemma EventEntry.le_total (a b : EventEntry) : (a.le b || b.le a) = true := by
  rw [Bool.or_eq_true, EventEntry.le_iff, EventEntry.le_iff]
  omega

namespace EventBody

variable {b : EventBody}

lemma stablySorted (b : EventBody) : StablySorted EventEntry.le b.entries b.sorted :=
  stablySorted_mergeSort EventEntry.le_trans EventEntry.le_total b.entries

lemma length_sorted (b : EventBody) : b.sorted.length = b.entries.length :=
  List.length_mergeSort b.entries

lemma payloadBytes_sorted (b : EventBody) : payloadBytes b.sorted = payloadBytes b.entries :=
  (b.stablySorted.perm.map _).sum_eq

/-! ## Where the sections stand -/

lemma le_paddedLen (e : EventEntry) : e.payload.length ≤ e.paddedLen := by
  unfold EventEntry.paddedLen ceil8
  omega

lemma length_pad (e : EventEntry) : e.pad.payload.length = e.paddedLen := by
  have := le_paddedLen e
  rw [EventEntry.pad, List.length_append, List.length_replicate]
  omega

lemma length_payloads (es : List EventEntry) :
    (es.flatMap fun e => e.pad.payload).length = payloadBytes es := by
  rw [List.length_flatMap, payloadBytes]
  exact congrArg List.sum (List.map_congr_left fun e _ => length_pad e)

lemma length_indexRows (es : List EventEntry) : ∀ rel, (indexRows rel es).length = es.length := by
  induction es with
  | nil => exact fun _ => rfl
  | cons e es ih =>
    intro rel
    rw [indexRows, List.length_cons, ih, List.length_cons]

lemma payloadBytes_append (es es' : List EventEntry) :
    payloadBytes (es ++ es') = payloadBytes es + payloadBytes es' := by
  rw [payloadBytes, List.map_append, List.sum_append]
  rfl

lemma getElem_indexRows (pre suf : List EventEntry) (e : EventEntry) :
    ∀ rel, (indexRows rel (pre ++ e :: suf))[pre.length]? =
      some ⟨e.simTimeNs, UInt32.ofNat (rel + payloadBytes pre), UInt16.ofNat e.paddedLen,
        e.channelId⟩ := by
  induction pre with
  | nil => exact fun rel => rfl
  | cons x pre ih =>
    intro rel
    rw [List.cons_append, indexRows, List.length_cons, List.getElem?_cons_succ, ih]
    rw [show payloadBytes (x :: pre) = x.paddedLen + payloadBytes pre from rfl, ← Nat.add_assoc]

lemma length_encode (b : EventBody) : b.encode.length = b.encodedLen := by
  rw [encode, List.length_append, List.length_append, length_emit, length_emit, length_indexRows,
    length_payloads, length_sorted, payloadBytes_sorted, encodedLen]
  show 32 * 1 + (16 * _ + _) = 32 + 16 * _ + _
  omega

lemma drop_index (b : EventBody) : b.encode.drop eventPrefixBytes =
    emit IndexRow.table.columns (indexRows 0 b.sorted) ++
      b.sorted.flatMap fun e => e.pad.payload :=
  List.drop_left' (length_emit _ _)

lemma drop_payloads (b : EventBody) :
    b.encode.drop (eventPrefixBytes + indexStride * b.sorted.length) =
      b.sorted.flatMap fun e => e.pad.payload := by
  refine drop_add_of_drop b.drop_index ?_
  rw [length_emit, length_indexRows]
  rfl

lemma drop_payload {pre suf : List EventEntry} {e : EventEntry} (h : b.sorted = pre ++ e :: suf) :
    b.encode.drop (eventPrefixBytes + indexStride * b.sorted.length + payloadBytes pre) =
      e.pad.payload ++ suf.flatMap fun e => e.pad.payload := by
  refine drop_add_of_drop (x := pre.flatMap fun e => e.pad.payload) ?_ (length_payloads pre)
  rw [drop_payloads, h, List.flatMap_append, List.flatMap_cons]

/-! ## Reading back -/

section RoundTrip

/-- Counts and offsets of a body that fits a frame fit their fields. -/
lemma fits (hlen : b.encodedLen < 2 ^ 32) :
    b.fixed.count.toNat = b.sorted.length ∧
      b.fixed.offIndex.toNat = (if 0 < b.sorted.length then eventPrefixBytes else 0) ∧
      b.fixed.offPayloads.toNat = (if 0 < payloadBytes b.sorted then
        eventPrefixBytes + indexStride * b.sorted.length else 0) ∧
      b.fixed.payloadBytes.toNat = payloadBytes b.sorted := by
  have htotal : 32 + 16 * b.sorted.length + payloadBytes b.sorted < 2 ^ 32 := by
    rw [length_sorted, payloadBytes_sorted]
    exact hlen
  refine ⟨toNat_ofNat_of_lt (by omega), toNat_ofNat_of_lt ?_, toNat_ofNat_of_lt ?_,
    toNat_ofNat_of_lt (by omega)⟩
  · split_ifs
    · decide
    · decide
  · split_ifs
    · show 32 + 16 * _ < _
      omega
    · decide

/-- The payload of an entry is read back. -/
lemma read_payload (hlen : b.encodedLen < 2 ^ 32) {pre suf : List EventEntry} {e : EventEntry}
    (h : b.sorted = pre ++ e :: suf) :
    readAt (RecordError.truncated "vwp Event.payload") b.encode
      (b.fixed.offPayloads.toNat + payloadBytes pre) e.paddedLen = .ok e.pad.payload := by
  obtain ⟨-, -, hoff, -⟩ := fits hlen
  have htotal : payloadBytes b.sorted = payloadBytes pre + (e.paddedLen + payloadBytes suf) := by
    rw [h, payloadBytes_append]
    rfl
  rcases Nat.eq_zero_or_pos e.paddedLen with hzero | hpos
  · -- nothing is read, but the place is still checked
    have hle : b.fixed.offPayloads.toNat + payloadBytes pre ≤ b.encode.length := by
      rw [hoff, length_encode, encodedLen, ← length_sorted, ← payloadBytes_sorted]
      split_ifs
      · omega
      · omega
    rw [hzero, readAt, Nat.add_zero, if_pos hle, List.take_zero]
    rw [← List.eq_nil_of_length_eq_zero (l := e.pad.payload) (by rw [length_pad, hzero])]
  · rw [hoff, if_pos (by omega)]
    exact readAt_of_drop _ (drop_payload h) (length_pad e) hpos

/-- The entries are read back one after another. -/
lemma decodeEntries_encode (hlen : b.encodedLen < 2 ^ 32) (suf : List EventEntry) :
    ∀ (pre : List EventEntry) (prev : SimTime × UInt16), b.sorted = pre ++ suf →
      (∀ e ∈ suf, e.paddedLen < 2 ^ 16) →
      (pre ≠ [] → ∀ e ∈ suf, keyLt e.simTimeNs e.channelId prev.1 prev.2 = false) →
      decodeEntries b.encode b.fixed b.sorted.length suf.length pre.length prev =
        .ok (suf.map EventEntry.pad) := by
  obtain ⟨-, hindex, -, hbytes⟩ := fits hlen
  induction suf with
  | nil => exact fun _ _ _ _ _ => rfl
  | cons e suf ih =>
    intro pre prev h hfit hprev
    have htotal : payloadBytes b.sorted = payloadBytes pre + (e.paddedLen + payloadBytes suf) := by
      rw [h, payloadBytes_append]
      rfl
    have hpos : 0 < b.sorted.length := by
      rw [h, List.length_append, List.length_cons]
      omega
    have hrow : IndexRow.table.readRow (RecordError.truncated "vwp Event") b.encode
        b.fixed.offIndex.toNat b.sorted.length pre.length =
        .ok ⟨e.simTimeNs, UInt32.ofNat (payloadBytes pre), UInt16.ofNat e.paddedLen,
          e.channelId⟩ := by
      have hget := getElem_indexRows pre suf e 0
      rw [← h, Nat.zero_add] at hget
      have hread := IndexRow.table.readRow_emit (RecordError.truncated "vwp Event") hget b.drop_index
      rw [length_indexRows] at hread
      rw [hindex, if_pos hpos]
      exact hread
    have hoff : (UInt32.ofNat (payloadBytes pre)).toNat = payloadBytes pre := by
      refine toNat_ofNat_of_lt ?_
      have : payloadBytes b.sorted < 2 ^ 32 := hbytes ▸ b.fixed.payloadBytes.toNat_lt
      omega
    have hplen : (UInt16.ofNat e.paddedLen).toNat = e.paddedLen :=
      UInt16.toNat_ofNat_of_lt' (hfit e List.mem_cons_self)
    have hmod : payloadBytes pre % 8 = 0 := by
      clear h htotal hrow hoff
      induction pre with
      | nil => rfl
      | cons x pre ih =>
        have hx : x.paddedLen % 8 = 0 := by
          unfold EventEntry.paddedLen ceil8
          omega
        have ih := ih fun _ => hprev (List.cons_ne_nil _ _)
        rw [show payloadBytes (x :: pre) = x.paddedLen + payloadBytes pre from rfl]
        omega
    have hfirst : (decide (0 < pre.length) && keyLt e.simTimeNs e.channelId prev.1 prev.2) =
        false := by
      cases pre with
      | nil => rfl
      | cons x pre =>
        rw [hprev (List.cons_ne_nil _ _) e List.mem_cons_self, Bool.and_false]
    have hsuf : ∀ e' ∈ suf, keyLt e'.simTimeNs e'.channelId e.simTimeNs e.channelId = false := by
      intro e' he'
      have hpair := b.stablySorted.sorted
      rw [h] at hpair
      have hle := List.rel_of_pairwise_cons (List.pairwise_append.1 hpair).2.1 he'
      rw [EventEntry.le, Bool.not_eq_true'] at hle
      exact hle
    have hrest := ih (pre ++ [e]) (e.simTimeNs, e.channelId)
      (by rw [h, List.append_assoc, List.singleton_append])
      (fun e' he' => hfit e' (List.mem_cons_of_mem _ he')) fun _ => hsuf
    rw [List.length_append, List.length_singleton] at hrest
    have hpayload := read_payload hlen h
    rw [List.length_cons, decodeEntries, hrow]
    simp only [bind, Except.bind, hfirst, Bool.false_eq_true, if_false, hoff, hplen, hmod,
      ne_eq, not_true_eq_false, hbytes, htotal, hpayload, hrest]
    rw [if_neg (by omega)]
    rfl

/-- The batch a reader gets: the entries in the order of the index, with padded payloads. -/
def canonical (b : EventBody) : EventBody := { b with entries := b.sorted.map EventEntry.pad }

/-- A batch whose padded payloads fit their length fields is read back. -/
lemma decode_encode (hlen : b.encodedLen < 2 ^ 32) (hfit : ∀ e ∈ b.entries, e.paddedLen < 2 ^ 16) :
    decode b.encode = .ok b.canonical := by
  obtain ⟨hcount, hindex, hoff, -⟩ := fits hlen
  have hfixed : EventPrefix.table.readRecord (RecordError.truncated "vwp Event") b.encode 0 =
      .ok b.fixed := EventPrefix.table.readRecord_emit _ rfl
  rw [decode, hfixed]
  show (if b.fixed.count.toNat = 0 then _ else _) = _
  rw [hcount]
  by_cases hzero : b.sorted.length = 0
  · rw [if_pos hzero, canonical, List.eq_nil_of_length_eq_zero hzero]
    rfl
  · have haligned : ¬ (b.fixed.offIndex.toNat % 8 ≠ 0 ∨ b.fixed.offPayloads.toNat % 8 ≠ 0) := by
      rw [hindex, hoff, if_pos (Nat.pos_of_ne_zero hzero)]
      split_ifs
      · show ¬ (32 % 8 ≠ 0 ∨ (32 + 16 * b.sorted.length) % 8 ≠ 0)
        omega
      · decide
    have hchecked : checkedCount b.sorted.length 16 b.encode.length "vwp Event" "event_count" =
        .ok b.sorted.length := by
      rw [checkedCount, if_neg]
      rw [length_encode, encodedLen, ← length_sorted]
      show ¬ (32 + 16 * b.sorted.length + _ < b.sorted.length * 16)
      omega
    have hentries := decodeEntries_encode hlen b.sorted [] (0, 0) rfl
      (fun e he => hfit e ((b.stablySorted.perm.mem_iff).1 he)) fun h => absurd rfl h
    rw [List.length_nil] at hentries
    rw [if_neg hzero, if_neg haligned, hchecked]
    simp only [bind, Except.bind, hentries]
    rfl

lemma length_of_readAt {ε : Type} {fail : ℕ → ℕ → ℕ → ε} {body x : Bytes} {off n : ℕ}
    (h : readAt fail body off n = .ok x) : x.length ≤ n := by
  unfold readAt at h
  split_ifs at h
  cases h
  exact List.length_take_le _ _

/-- No decoded payload is longer than its length field can say. -/
lemma payload_lt_of_decodeEntries {body : Bytes} {p : EventPrefix} {n : ℕ} (k : ℕ) :
    ∀ {i : ℕ} {prev : SimTime × UInt16} {es : List EventEntry},
      decodeEntries body p n k i prev = .ok es → ∀ e ∈ es, e.payload.length < 2 ^ 16 := by
  induction k with
  | zero =>
    intro i prev es h e he
    cases h
    cases he
  | succ k ih =>
    intro i prev es h
    rw [decodeEntries] at h
    simp only [bind, Except.bind] at h
    split at h
    · cases h
    · split_ifs at h
      split at h
      · cases h
      next payload hpayload =>
        split at h
        · cases h
        next rest hrest =>
          cases h
          intro e he
          rcases List.mem_cons.1 he with rfl | he
          · exact lt_of_le_of_lt (length_of_readAt hpayload) (UInt16.toNat_lt _)
          · exact ih hrest e he

lemma payload_lt_of_decode {body : Bytes} {b : EventBody} (h : decode body = .ok b) :
    ∀ e ∈ b.entries, e.payload.length < 2 ^ 16 := by
  rw [decode] at h
  simp only [bind, Except.bind] at h
  split at h
  · cases h
  · split_ifs at h
    · cases h
      intro e he
      cases he
    · split at h
      · cases h
      · split at h
        · cases h
        next es hes =>
          cases h
          exact payload_lt_of_decodeEntries _ hes

lemma paddedLen_lt_iff (e : EventEntry) : e.paddedLen < 2 ^ 16 ↔ e.payload.length ≤ 65528 := by
  unfold EventEntry.paddedLen ceil8
  omega

lemma decode_encode_iff (hlen : b.encodedLen < 2 ^ 32) :
    decode b.encode = .ok b.canonical ↔ ∀ e ∈ b.entries, e.payload.length ≤ 65528 := by
  refine ⟨fun h e he => ?_, fun h => decode_encode hlen fun e he => (paddedLen_lt_iff e).2 (h e he)⟩
  have hmem : e.pad ∈ b.canonical.entries :=
    List.mem_map_of_mem ((b.stablySorted.perm.mem_iff).2 he)
  have hlt := payload_lt_of_decode h e.pad hmem
  rw [length_pad] at hlt
  exact (paddedLen_lt_iff e).1 hlt

end RoundTrip

/-- **Batches of events are read back** if and only if no payload is longer than 65528 bytes: the
bounds of the batch, and the entries, stably sorted by instant and channel, each payload followed
by zeros up to the next multiple of eight. -/
theorem event_roundTrip (b : EventBody) (hlen : b.encodedLen < 2 ^ 32) :
    ∃ es, StablySorted EventEntry.le b.entries es ∧
      (decode b.encode = .ok ⟨b.tStartNs, b.tEndNs, es.map EventEntry.pad⟩ ↔
        ∀ e ∈ b.entries, e.payload.length ≤ 65528) :=
  ⟨b.sorted, b.stablySorted, decode_encode_iff hlen⟩

/-- Two events that come out of order, one of them without a payload. -/
theorem event_roundTrip_two :
    ∃ es, StablySorted EventEntry.le [⟨7, 2, [1, 2, 3]⟩, ⟨5, 4, []⟩] es ∧
      decode (encode ⟨5, 7, [⟨7, 2, [1, 2, 3]⟩, ⟨5, 4, []⟩]⟩) =
        .ok ⟨5, 7, es.map EventEntry.pad⟩ := by
  obtain ⟨es, hsorted, hiff⟩ := event_roundTrip ⟨5, 7, [⟨7, 2, [1, 2, 3]⟩, ⟨5, 4, []⟩]⟩ (by decide)
  exact ⟨es, hsorted, hiff.2 (by decide)⟩

lemma not_read_back {e : EventEntry} (he : e ∈ b.entries) (hlong : 65528 < e.payload.length) :
    ¬ ∃ es, StablySorted EventEntry.le b.entries es ∧
      decode b.encode = .ok ⟨b.tStartNs, b.tEndNs, es.map EventEntry.pad⟩ := by
  rintro ⟨es, hsorted, h⟩
  have hlt := payload_lt_of_decode h _ (List.mem_map_of_mem ((hsorted.perm.mem_iff).2 he))
  rw [length_pad, paddedLen_lt_iff] at hlt
  omega

/-- A batch of one event. -/
def single (payload : Bytes) : EventBody := ⟨0, 0, [⟨0, 0, payload⟩]⟩

lemma lost_of_length {payload : Bytes} (hlen : payload.length = 65529) :
    (single payload).encodedLen < 2 ^ 32 ∧
      ¬ ∃ es, StablySorted EventEntry.le (single payload).entries es ∧
        decode (single payload).encode = .ok ⟨0, 0, es.map EventEntry.pad⟩ := by
  refine ⟨?_, not_read_back (e := ⟨0, 0, payload⟩) List.mem_cons_self ?_⟩
  · show 32 + 16 * 1 + (ceil8 payload.length + 0) < 2 ^ 32
    rw [hlen]
    decide
  · show 65528 < payload.length
    omega

theorem long_payload_lost :
    (single (List.replicate 65529 1)).encodedLen < 2 ^ 32 ∧
      ¬ ∃ es, StablySorted EventEntry.le (single (List.replicate 65529 1)).entries es ∧
        decode (single (List.replicate 65529 1)).encode = .ok ⟨0, 0, es.map EventEntry.pad⟩ :=
  lost_of_length List.length_replicate

end EventBody

end V2xw.Record
