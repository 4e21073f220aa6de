import V2xw.Lib.BitList
import V2xw.Msg.Uper

/-!
# What the bit writer and the bit reader do to the bits

A writer holds a list of bits when its octets are these bits followed by fewer than eight zeros; a
reader stands at a bit of its octets. Over these two relations the bit operations append and take
lists of bits, whatever the phase of the writer or of the reader within an octet.

## Main results

* `emits_writeBit`, `emits_writeBits`, `emits_writeOctets` — what the writer appends.
* `takes_readBit`, `takes_readBits`, `takes_readOctets` — what the reader takes.
* `finish_eq_ok_iff` — the reader finishes on fewer than eight zeros.
-/

namespace V2xw.Msg

open Stream BitList Proc

/-! ## The writer -/

/-- The octets are the bits written and fewer than eight zeros. -/
structure BitWriter.Holding (w : BitWriter) (l : List Bool) : Prop where
  bits_eq : w.bits = l.length
  unpack_eq : ∃ pad < 8, unpack w.bytes = l ++ List.replicate pad false

instance : Sink BitWriter Bool where
  Holds := BitWriter.Holding

namespace BitWriter

lemma holds_new : Holds new [] := ⟨rfl, 0, by decide, rfl⟩

lemma Holding.pad {w : BitWriter} {l : List Bool} (h : Holds w l) :
    unpack w.bytes = l ++ List.replicate (8 * w.bytes.length - w.bits) false ∧
      8 * w.bytes.length - w.bits < 8 ∧ w.bits ≤ 8 * w.bytes.length := by
  obtain ⟨hlen, pad, hpad, hbits⟩ := h
  have hlen' := congrArg List.length hbits
  simp only [length_unpack, List.length_append, List.length_replicate] at hlen'
  have : 8 * w.bytes.length - w.bits = pad := by omega
  exact ⟨by rw [this, hbits], by omega, by omega⟩

/-- The octets before a bit is set: at least one zero follows the bits. -/
lemma Holding.pushed {w : BitWriter} {l : List Bool} (h : Holds w l) :
    ∃ xs x, (if w.bits % 8 = 0 then w.bytes ++ [0] else w.bytes) = xs ++ [x] ∧
      8 * xs.length + w.bits % 8 = l.length ∧
      ∃ pad < 8, unpack (xs ++ [x]) = l ++ List.replicate (pad + 1) false := by
  obtain ⟨hbits, hpad, hle⟩ := h.pad
  have hlen := h.bits_eq
  by_cases h8 : w.bits % 8 = 0
  · -- at an octet boundary a zero octet has just been pushed
    refine ⟨w.bytes, 0, by rw [if_pos h8], by omega, 7, by decide, ?_⟩
    have hpad0 : 8 * w.bytes.length - w.bits = 0 := by omega
    rw [hpad0, List.replicate_zero, List.append_nil] at hbits
    rw [unpack_append, hbits]
    rfl
  · have hne : w.bytes ≠ [] := by
      intro hnil
      rw [hnil, List.length_nil] at hle
      omega
    refine ⟨w.bytes.dropLast, w.bytes.getLast hne, ?_, ?_, 8 * w.bytes.length - w.bits - 1,
      by omega, ?_⟩
    · rw [if_neg h8, List.dropLast_append_getLast]
    · rw [List.length_dropLast]
      omega
    · rw [List.dropLast_append_getLast, hbits]
      congr 2
      omega

/-- Appending one bit. -/
lemma holds_writeBit {w : BitWriter} {l : List Bool} (h : Holds w l) (bit : Bool) :
    Holds (w.writeBit bit) (l ++ [bit]) := by
  obtain ⟨xs, x, hpush, hlen, pad, hpad, hbits⟩ := h.pushed
  refine ⟨?_, pad, hpad, ?_⟩
  · show w.bits + 1 = _
    rw [List.length_append, h.bits_eq, List.length_singleton]
  · show unpack (writeBit w bit).bytes = _
    unfold writeBit
    simp only [hpush]
    cases bit with
    | false =>
      rw [if_neg Bool.false_ne_true, hbits]
      simp [List.replicate_succ]
    | true =>
      rw [if_pos rfl, mask, unpack_modify_last xs x (Nat.mod_lt _ (by decide)), hlen,
        hbits, List.set_append_right _ _ (Nat.le_refl _)]
      simp [List.replicate_succ]

lemma holds_writeBitsLoop (value width : ℕ) {w : BitWriter} {l : List Bool} (h : Holds w l) :
    Holds (w.writeBitsLoop value width) (l ++ ofNat width value) := by
  induction width generalizing w l with
  | zero => simpa [writeBitsLoop, ofNat] using h
  | succ width ih =>
    have hbit : ((value >>> width) &&& 1 == 1) = value.testBit width := by
      rw [Nat.testBit_eq_decide_div_mod_eq, Nat.shiftRight_eq_div_pow, Nat.and_one_is_mod]
      rfl
    rw [ofNat, List.append_cons, ← hbit]
    exact ih (holds_writeBit h _)

lemma holds_writeBits (value width : ℕ) {w : BitWriter} {l : List Bool} (h : Holds w l) :
    Holds (w.writeBits value width) (l ++ ofNat (min width 64) value) :=
  holds_writeBitsLoop value _ h

lemma holds_writeOctets_slow (octets : List UInt8) {w : BitWriter} {l : List Bool}
    (h : Holds w l) :
    Holds (octets.foldl (fun w octet => w.writeBits octet.toNat 8) w) (l ++ unpack octets) := by
  induction octets generalizing w l with
  | nil => simpa using h
  | cons octet octets ih =>
    rw [unpack_cons, ← List.append_assoc]
    exact ih (holds_writeBits octet.toNat 8 h)

/-- Appending whole octets, on either path. -/
lemma holds_writeOctets (octets : List UInt8) {w : BitWriter} {l : List Bool} (h : Holds w l) :
    Holds (w.writeOctets octets) (l ++ unpack octets) := by
  unfold writeOctets
  by_cases h8 : w.bits % 8 = 0
  · rw [if_pos h8]
    obtain ⟨hbits, hpad, hle⟩ := h.pad
    have hpad0 : 8 * w.bytes.length - w.bits = 0 := by omega
    rw [hpad0, List.replicate_zero, List.append_nil] at hbits
    refine ⟨?_, 0, by decide, ?_⟩
    · show w.bits + octets.length * 8 = _
      rw [List.length_append, length_unpack, h.bits_eq]
      omega
    · rw [unpack_append, hbits, List.replicate_zero, List.append_nil]
  · rw [if_neg h8]
    exact holds_writeOctets_slow octets h

end BitWriter

open BitWriter

lemma emits_modify {f : BitWriter → BitWriter} {bs : List Bool}
    (h : ∀ w l, Holds w l → Holds (f w) (l ++ bs)) : Emits (modify f : Write) bs := by
  intro w l hw
  exact ⟨f w, rfl, h w l hw⟩

lemma emits_writeBit (bit : Bool) : Emits (modify (·.writeBit bit) : Write) [bit] :=
  emits_modify fun _ _ h => holds_writeBit h bit

lemma emits_writeBits (value width : ℕ) :
    Emits (modify (·.writeBits value width) : Write) (ofNat (min width 64) value) :=
  emits_modify fun _ _ h => holds_writeBits value width h

lemma emits_writeOctets (octets : List UInt8) :
    Emits (modify (·.writeOctets octets) : Write) (unpack octets) :=
  emits_modify fun _ _ h => holds_writeOctets octets h

lemma emits_forM_writeBit (bits : List Bool) :
    Emits (bits.forM fun p => (modify (·.writeBit p) : Write)) bits := by
  induction bits with
  | nil => exact Emits.pure
  | cons bit bits ih => exact (emits_writeBit bit).bind ih

/-! ## The reader -/

/-- The reader stands between the bits taken and the bits left. -/
structure BitReader.Standing (r : BitReader) (done left : List Bool) : Prop where
  pos_eq : r.pos = done.length
  unpack_eq : unpack r.bytes = done ++ left

instance : Source BitReader Bool where
  At := BitReader.Standing

lemma at_new (bytes : List UInt8) : At (BitReader.new bytes) [] (unpack bytes) := ⟨rfl, rfl⟩

lemma BitReader.Standing.remaining_eq {r : BitReader} {done left : List Bool}
    (h : At r done left) :
    r.remaining = left.length := by
  have hlen := congrArg List.length h.unpack_eq
  rw [length_unpack, List.length_append] at hlen
  rw [BitReader.remaining, BitReader.bitLen, h.pos_eq]
  omega

lemma exec_need {r : BitReader} {done left : List Bool} (h : At r done left) {want : ℕ}
    (hw : want ≤ left.length) : (need want).exec r = (.ok (), r) := by
  have : ¬ r.remaining < want := by rw [h.remaining_eq]; omega
  simp [need, exec_bind, this]

lemma takes_need_bind {α : Type} {rd : Read α} {a : α} (bs : List Bool) (h : Takes rd bs a) :
    Takes (need bs.length >>= fun _ => rd) bs a := by
  intro r done rest hr
  have hw : bs.length ≤ (bs ++ rest).length := by simp
  rw [exec_bind_of_ok (exec_need hr hw)]
  exact h r done rest hr

lemma takes_readBit (bit : Bool) : Takes readBit [bit] bit := by
  apply takes_need_bind [bit]
  intro r done rest hr
  have hpos : r.pos = done.length := hr.pos_eq
  have hget : (unpack r.bytes)[r.pos]? = some bit := by
    rw [hr.unpack_eq, hpos, List.getElem?_append_right (Nat.le_refl _), Nat.sub_self]
    rfl
  rw [getElem?_unpack] at hget
  obtain ⟨x, hx, hbit⟩ := Option.map_eq_some_iff.1 hget
  refine ⟨{ r with pos := r.pos + 1 }, ?_, ?_⟩
  · rw [exec_bind_of_ok (exec_get r), exec_bind_of_ok (exec_set r _), exec_pure, List.getD, hx,
      Option.getD_some, BitWriter.mask, and_mask_ne_zero x (Nat.mod_lt _ (by decide)), hbit]
  · refine ⟨?_, ?_⟩
    · show r.pos + 1 = _
      rw [List.length_append, hpos, List.length_singleton]
    · rw [List.append_assoc]
      exact hr.unpack_eq

lemma shift_or_bit {value k : ℕ} (hv : value < 2 ^ k) (hk : k < 64) (bit : Bool) :
    (value <<< 1) % 2 ^ 64 ||| bit.toNat = 2 * value + bit.toNat ∧
      2 * value + bit.toNat < 2 ^ (k + 1) := by
  have hb : bit.toNat < 2 := bit.toNat_lt
  have hlt : 2 * value + bit.toNat < 2 ^ (k + 1) := by
    rw [pow_succ]
    omega
  have hle : 2 ^ (k + 1) ≤ 2 ^ 64 := Nat.pow_le_pow_right (by decide) hk
  refine ⟨?_, hlt⟩
  rw [Nat.shiftLeft_eq, Nat.mod_eq_of_lt (by omega), Nat.mul_comm value, pow_one]
  exact (Nat.two_pow_add_eq_or_of_lt (i := 1) (by omega) value).symm

/-- The loop of `read_bits` spells the bits it takes after the value it starts from. -/
lemma takes_readBitsLoop (bs : List Bool) (value k : ℕ) (hv : value < 2 ^ k)
    (hk : k + bs.length ≤ 64) :
    Takes (readBitsLoop bs.length value) bs (value * 2 ^ bs.length + toNat bs) := by
  induction bs generalizing value k with
  | nil => simpa [readBitsLoop] using Takes.pure value
  | cons bit bs ih =>
    rw [List.length_cons] at hk
    obtain ⟨hval, hlt⟩ := shift_or_bit hv (by omega) bit
    have hloop := ih _ _ hlt (by omega)
    have hsum : value * 2 ^ (bit :: bs).length + toNat (bit :: bs) =
        (2 * value + bit.toNat) * 2 ^ bs.length + toNat bs := by
      rw [toNat_cons, List.length_cons, pow_succ]
      ring
    rw [hsum]
    refine (takes_readBit bit).bind ?_
    rwa [hval]

lemma takes_readBits {width : ℕ} {bs : List Bool} (h : bs.length = min width 64) :
    Takes (readBits width) bs (toNat bs) := by
  have hloop := takes_readBitsLoop bs 0 0 (by simp) (by omega)
  rw [Nat.zero_mul, Nat.zero_add] at hloop
  rw [readBits, ← h]
  exact takes_need_bind _ hloop

lemma takes_readBits_ofNat (value width : ℕ) :
    Takes (readBits width) (ofNat (min width 64) value) (value % 2 ^ min width 64) := by
  rw [← toNat_ofNat]
  exact takes_readBits (length_ofNat _ _)

/-! ### Octets -/

lemma takes_readBits_eight (value : ℕ) (h : value < 2 ^ 8) :
    Takes (readBits 8) (ofNat 8 value) value := by
  have ht := takes_readBits_ofNat value 8
  rwa [show min 8 64 = 8 from rfl, Nat.mod_eq_of_lt h] at ht

lemma takes_readOctet (x : UInt8) : Takes readOctet (ofByte x) x := by
  refine (takes_readBits_eight _ x.toNat_lt).bind_nil ?_
  rw [UInt8.ofNat_toNat]
  exact Takes.pure x

lemma takes_readOctets (xs : List UInt8) : Takes (readOctets xs.length) (unpack xs) xs := by
  have hloop : Takes (replicateM xs.length readOctet) (unpack xs) xs := by
    induction xs with
    | nil => exact Takes.pure []
    | cons x xs ih => exact (takes_readOctet x).bind (ih.bind_nil (Takes.pure _))
  have hlen : xs.length * 8 = (unpack xs).length := by rw [length_unpack, Nat.mul_comm]
  rw [readOctets, hlen]
  exact takes_need_bind _ hloop

/-! ### The end of the encoding -/

lemma exec_finishLoop (bits : ℕ) {r : BitReader} {done left : List Bool} (h : At r done left) :
    ((finishLoop bits left.length).exec r).1 = .ok () ↔ ∀ b ∈ left, b = false := by
  induction left generalizing r done with
  | nil => simp [finishLoop]
  | cons b left ih =>
    obtain ⟨r', hex, hr'⟩ := takes_readBit b r done left h
    rw [List.length_cons, finishLoop, exec_bind_of_ok hex]
    cases b with
    | true => simp
    | false => simpa using ih hr'

lemma finish_eq_ok_iff {r : BitReader} {done left : List Bool} (h : At r done left) :
    r.finish = .ok () ↔ left.length < 8 ∧ left = List.replicate left.length false := by
  rw [BitReader.finish, h.remaining_eq, List.eq_replicate_iff]
  by_cases h8 : 8 ≤ left.length
  · simp [h8]
  · rw [if_neg h8, exec_finishLoop _ h]
    simp [Nat.lt_of_not_le h8]

/-! ## Whole encodings -/

/-- **Whole round trip.** What an accepted write leaves in the octets of a fresh writer, a reader
over these octets takes back, up to the writer's last bit, and only padding is left. -/
lemma roundTrips_whole {α : Type} {op : Write} {rd : Read α} {a : α} (h : RoundTrips op rd a)
    {w : BitWriter} (hop : op.exec BitWriter.new = (.ok (), w)) :
    ∃ r, rd.exec (BitReader.new w.intoBytes) = (.ok a, r) ∧ r.bitsRead = w.bitLen ∧
      r.finish = .ok () := by
  obtain ⟨bs, he, ht⟩ := h _ _ w holds_new hop
  obtain ⟨w', hop', hw⟩ := he _ _ holds_new
  obtain rfl : w = w' := (Prod.mk.inj (hop.symm.trans hop')).2
  rw [List.nil_append] at hw
  obtain ⟨hbits, pad, hpad, hunpack⟩ := hw
  have hat := at_new w.bytes
  rw [hunpack] at hat
  obtain ⟨r, hex, hr⟩ := ht _ _ _ hat
  refine ⟨r, hex, ?_, ?_⟩
  · rw [BitReader.bitsRead, hr.pos_eq, BitWriter.bitLen, hbits, List.nil_append]
  · rw [finish_eq_ok_iff hr]
    simp [hpad]

end V2xw.Msg
