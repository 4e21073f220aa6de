import Mathlib.Tactic.Positivity
import V2xw.Msg.UperBits

/-!
# The constructs of unaligned PER

For every construct of the engine, the reader takes back what an accepted write emits. The message
codecs are compositions of these.

## Main results

* `roundTrips_constrainedInt` — constrained whole numbers.
* `roundTrips_length`, `roundTrips_openType` — length determinants and open types.
* `roundTrips_preamble`, `roundTrips_choiceIndex`.
-/

namespace V2xw.Msg

open Stream BitList Proc

/-! ## Raw bits -/

lemma roundTrips_bit (bit : Bool) : RoundTrips (modify (·.writeBit bit) : Write) readBit bit :=
  (emits_writeBit bit).roundTrips (takes_readBit bit)

lemma roundTrips_bits (value width : ℕ) :
    RoundTrips (modify (·.writeBits value width) : Write) (readBits width)
      (value % 2 ^ min width 64) :=
  (emits_writeBits value width).roundTrips (takes_readBits_ofNat value width)

lemma roundTrips_bits_of_lt {value width : ℕ} (hw : width ≤ 64) (h : value < 2 ^ width) :
    RoundTrips (modify (·.writeBits value width) : Write) (readBits width) value := by
  have hrt := roundTrips_bits value width
  rwa [Nat.min_eq_left hw, Nat.mod_eq_of_lt h] at hrt

/-! ## Constrained whole numbers -/

lemma lt_two_pow_constrainedWidth {value range : ℕ} (h : value < range) :
    value < 2 ^ constrainedWidth range := by
  unfold constrainedWidth
  split
  · omega
  · have := Nat.lt_size_self (range - 1)
    omega

lemma constrainedWidth_le {range : ℕ} (h : range ≤ 2 ^ 64) : constrainedWidth range ≤ 64 := by
  unfold constrainedWidth
  split
  · omega
  · exact Nat.size_le.2 (by omega)

/-- Bounds that are 64-bit signed words and leave out at least one of the 64-bit words. -/
structure WordRange (min max : ℤ) : Prop where
  le_min : -2 ^ 63 ≤ min
  max_lt : max < 2 ^ 63
  card_lt : max - min + 1 < 2 ^ 64

lemma asSigned_of_mem {w : ℕ} {z : ℤ} (hlo : -2 ^ w ≤ z * 2) (hhi : z * 2 < 2 ^ w) :
    asSigned w z = z :=
  Int.bmod_eq_of_le_mul_two (by push_cast; exact hlo) (by push_cast; exact hhi)

lemma asUnsigned_of_mem {w : ℕ} {z : ℤ} (hlo : 0 ≤ z) (hhi : z < 2 ^ w) :
    (asUnsigned w z : ℤ) = z := by
  unfold asUnsigned
  rw [Int.toNat_of_nonneg (Int.emod_nonneg _ (by positivity)), Int.emod_eq_of_lt hlo hhi]

lemma asI64_of_mem {z : ℤ} (hlo : -2 ^ 63 ≤ z) (hhi : z < 2 ^ 63) : asI64 z = z :=
  asSigned_of_mem (by omega) (by omega)

lemma asU64_of_mem {z : ℤ} (hlo : 0 ≤ z) (hhi : z < 2 ^ 64) : (asU64 z : ℤ) = z :=
  asUnsigned_of_mem hlo hhi

lemma WordRange.rangeOf_eq {min max : ℤ} (h : WordRange min max) (hle : min ≤ max) :
    (rangeOf min max : ℤ) = max - min + 1 := by
  have := h.card_lt
  rw [rangeOf, if_neg (by omega), asU64_of_mem (by omega) this]

lemma rangeOf_le (min max : ℤ) : rangeOf min max ≤ 2 ^ 64 := by
  unfold rangeOf asU64 asUnsigned
  split <;> omega

lemma emits_constrainedInt (field : Field) {value min max : ℤ} (h : min ≤ value ∧ value ≤ max) :
    Emits (writeConstrainedInt field value min max)
      (ofNat (constrainedWidth (rangeOf min max)) (asU64 (value - min))) := by
  have hw := constrainedWidth_le (rangeOf_le min max)
  have he := emits_writeBits (asU64 (value - min)) (constrainedWidth (rangeOf min max))
  rw [Nat.min_eq_left hw] at he
  rw [writeConstrainedInt, if_neg (by omega)]
  exact he

lemma takes_constrainedInt (field : Field) {value min max : ℤ} (hr : WordRange min max)
    (h : min ≤ value ∧ value ≤ max) :
    Takes (readConstrainedInt field min max)
      (ofNat (constrainedWidth (rangeOf min max)) (asU64 (value - min))) value := by
  have hlo := hr.le_min
  have hhi := hr.max_lt
  have hcard := hr.card_lt
  have hrange := hr.rangeOf_eq (h.1.trans h.2)
  have hraw : (asU64 (value - min) : ℤ) = value - min := asU64_of_mem (by omega) (by omega)
  have hlt : asU64 (value - min) < rangeOf min max := by omega
  have hw := constrainedWidth_le (rangeOf_le min max)
  have ht := takes_readBits_ofNat (asU64 (value - min)) (constrainedWidth (rangeOf min max))
  rw [Nat.min_eq_left hw, Nat.mod_eq_of_lt (lt_two_pow_constrainedWidth hlt)] at ht
  have hval : asI64 (min + asU64 (value - min)) = value := by
    rw [hraw, asI64_of_mem (by omega) (by omega)]
    omega
  refine ht.bind_nil (Takes.guard (by omega) ?_)
  rw [hval]
  exact Takes.pure value

lemma roundTrips_constrainedInt {min max : ℤ} (hr : WordRange min max) (field : Field)
    (value : ℤ) :
    RoundTrips (writeConstrainedInt field value min max) (readConstrainedInt field min max)
      value := by
  by_cases h : min ≤ value ∧ value ≤ max
  · exact (emits_constrainedInt field h).roundTrips (takes_constrainedInt field hr h)
  · rw [writeConstrainedInt, if_pos (by omega)]
    exact .throw _ _ _

/-! ## Length determinants -/

lemma asU64_asI64 {n : ℕ} (h : n < 2 ^ 64) : asU64 (asI64 n) = n := by
  unfold asU64 asUnsigned asI64 asSigned
  have hmod : (n : ℤ).bmod (2 ^ 64) % 2 ^ 64 = n % 2 ^ 64 := Int.bmod_emod
  rw [hmod]
  omega

lemma WordRange.ofLength {min max : ℕ} (h : asI64 max - asI64 min + 1 < 2 ^ 64) :
    WordRange (asI64 min) (asI64 max) := by
  refine ⟨?_, ?_, h⟩
  · have hle := Int.le_bmod (x := min) (m := 2 ^ 64) (by decide)
    unfold asI64 asSigned
    omega
  · have hlt := Int.bmod_lt (x := max) (m := 2 ^ 64) (by decide)
    unfold asI64 asSigned
    omega

lemma roundTrips_constrainedLength {min max : ℕ} (h : asI64 max - asI64 min + 1 < 2 ^ 64)
    (field : Field) {n : ℕ} (hn : n < 2 ^ 64) :
    RoundTrips (writeConstrainedLength field n min max) (readConstrainedLength field min max) n := by
  refine (roundTrips_constrainedInt (.ofLength h) field (asI64 n)).bind_nil ?_
  rw [asU64_asI64 hn]
  exact Takes.pure n

/-! ### Unconstrained lengths -/

lemma first_octet : ∀ first < 256, (first &&& 0x80 = 0 ↔ first < 128) ∧
    (128 ≤ first → (first &&& 0x40 = 0 ↔ first < 192)) ∧ first &&& 0x3f = first % 64 := by
  decide +kernel

lemma two_octet_form {n : ℕ} (h : n < 2 ^ 14) :
    ofNat 2 0b10 ++ ofNat 14 n = ofNat 8 (128 + n / 256) ++ ofNat 8 (n % 256) := by
  apply eq_of_toNat_eq
  · simp
  · simp only [toNat_append, toNat_ofNat, length_ofNat]
    omega

lemma takes_length_one (construct : String) {n : ℕ} (h : n < 128) :
    Takes (readLength construct) (ofNat 8 n) n := by
  refine (takes_readBits_eight _ (by omega)).bind_nil ?_
  rw [if_pos ((first_octet n (by omega)).1.2 h)]
  exact Takes.pure n

lemma takes_length_two (construct : String) {n : ℕ} (h : n < 2 ^ 14) :
    Takes (readLength construct) (ofNat 8 (128 + n / 256) ++ ofNat 8 (n % 256)) n := by
  obtain ⟨h80, h40, h3f⟩ := first_octet (128 + n / 256) (by omega)
  refine (takes_readBits_eight _ (by omega)).bind ?_
  rw [if_neg (by omega), if_pos ((h40 (by omega)).2 (by omega)), h3f]
  refine (takes_readBits_eight (n % 256) (by omega)).bind_nil ?_
  have hn : ((128 + n / 256) % 64) <<< 8 ||| n % 256 = n := by
    rw [Nat.shiftLeft_eq, Nat.mul_comm,
      ← Nat.two_pow_add_eq_or_of_lt (i := 8) (Nat.mod_lt _ (by decide))]
    omega
  rw [hn]
  exact Takes.pure n

lemma roundTrips_length (construct : String) (n : ℕ) :
    RoundTrips (writeLength construct n) (readLength construct) n := by
  unfold writeLength
  by_cases h1 : n < 128
  · rw [if_pos h1]
    exact (emits_writeBits n 8).roundTrips (takes_length_one construct h1)
  · rw [if_neg h1]
    by_cases h2 : n ≤ maxUnfragmentedLength
    · have hn : n < 2 ^ 14 := by
        unfold maxUnfragmentedLength at h2
        omega
      rw [if_pos h2]
      have he := (emits_writeBits 0b10 2).bind (emits_writeBits n 14)
      rw [show min 2 64 = 2 from rfl, show min 14 64 = 14 from rfl, two_octet_form hn] at he
      exact he.roundTrips (takes_length_two construct hn)
    · rw [if_neg h2]
      exact .throw _ _ _

/-! ## Open types -/

lemma roundTrips_openType (construct : String) {inner : List UInt8} (h : inner ≠ []) :
    RoundTrips (writeOpenType construct inner) (readOpenType construct) inner := by
  rw [writeOpenType, if_neg (by simpa using h)]
  refine (roundTrips_length construct inner.length).bind ?_
  rw [if_neg (by simpa using h)]
  exact (emits_writeOctets inner).roundTrips (takes_readOctets inner)

/-! ## Simple types -/

lemma roundTrips_bool (value : Bool) : RoundTrips (writeBool value) readBool value :=
  roundTrips_bit value

lemma roundTrips_enumerated (field : Field) (index : ℕ) {count : ℕ} (h : count ≤ 2 ^ 64) :
    RoundTrips (writeEnumerated field index count) (readEnumerated field count) index := by
  refine RoundTrips.guard fun hc => ?_
  have hlt : index < count := by omega
  exact (roundTrips_bits_of_lt (constrainedWidth_le h) (lt_two_pow_constrainedWidth hlt)).bind_nil
    (Takes.guard (by omega) (Takes.pure index))

lemma writeFixedBitString_of_le (field : Field) {bits len : ℕ} (hlen : len < 64)
    (h : 2 ^ len ≤ bits) :
    writeFixedBitString field bits len =
      throw (.outOfRange field.path field.asn1Type (asI64 bits) 0 (asI64 (2 ^ len - 1))) := by
  have hshift : bits >>> len ≠ 0 := by
    rw [Nat.shiftRight_eq_div_pow]
    intro h0
    have := (Nat.div_eq_zero_iff_lt (Nat.two_pow_pos len)).1 h0
    omega
  rw [writeFixedBitString, if_pos ⟨hlen, hshift⟩]

lemma roundTrips_fixedBitString (field : Field) {bits len : ℕ}
    (h : len < 64 ∨ len = 64 ∧ bits < 2 ^ 64) :
    RoundTrips (writeFixedBitString field bits len) (readFixedBitString len) bits := by
  by_cases hb : bits < 2 ^ len
  · exact RoundTrips.guard fun _ => roundTrips_bits_of_lt (by omega) hb
  · rcases h with h | ⟨rfl, hbits⟩
    · rw [writeFixedBitString_of_le field h (Nat.le_of_not_lt hb)]
      exact .throw _ _ _
    · exact absurd hbits hb

lemma roundTrips_extensibleBitString (field : Field) (construct : String) {bits rootLen : ℕ}
    (h : rootLen < 64 ∨ rootLen = 64 ∧ bits < 2 ^ 64) :
    RoundTrips (writeExtensibleBitString field bits rootLen)
      (readExtensibleBitString construct rootLen) bits := by
  refine (roundTrips_bit false).bind ?_
  rw [if_neg Bool.false_ne_true]
  exact roundTrips_fixedBitString field h

lemma roundTrips_fixedOctetString (octets : List UInt8) :
    RoundTrips (writeFixedOctetString octets) (readFixedOctetString octets.length) octets :=
  (emits_writeOctets octets).roundTrips (takes_readOctets octets)

/-! ## Preambles -/

/-- The word a preamble of these presence bits is read as. -/
def Preamble.ofList (present : List Bool) : Preamble := ⟨toNat present.reverse⟩

lemma roundTrips_extensionBit (construct detail : String) (extensible : Bool) :
    RoundTrips (writeExtensionBit extensible) (readExtensionBit construct detail extensible) () := by
  cases extensible with
  | false => exact .pure ()
  | true => exact (roundTrips_bit false).bind_nil (Takes.pure ())

/-- The loop of `read_preamble` adds the bits from field `i` on. -/
lemma takes_readPreambleLoop (bs : List Bool) (i present : ℕ) (h : present < 2 ^ i) :
    Takes (readPreambleLoop bs.length i present) bs (present + 2 ^ i * toNat bs.reverse) := by
  induction bs generalizing i present with
  | nil => simpa [readPreambleLoop] using Takes.pure present
  | cons bit bs ih =>
    have hor : (if bit then present ||| 1 <<< i else present) = present + 2 ^ i * bit.toNat := by
      cases bit with
      | false => simp
      | true =>
        rw [if_pos rfl, Nat.shiftLeft_eq, Nat.one_mul, Nat.lor_comm]
        have := Nat.two_pow_add_eq_or_of_lt (i := i) h 1
        simp only [Bool.toNat_true, Nat.mul_one] at this ⊢
        omega
    have hlt : present + 2 ^ i * bit.toNat < 2 ^ (i + 1) := by
      have := bit.toNat_lt
      have : 2 ^ i * bit.toNat ≤ 2 ^ i * 1 := Nat.mul_le_mul_left _ (by omega)
      rw [pow_succ]
      omega
    have hsum : present + 2 ^ i * toNat (bit :: bs).reverse =
        present + 2 ^ i * bit.toNat + 2 ^ (i + 1) * toNat bs.reverse := by
      rw [List.reverse_cons, toNat_snoc, pow_succ]
      ring
    rw [hsum]
    refine (takes_readBit bit).bind ?_
    rw [hor]
    exact ih _ _ hlt

lemma roundTrips_preamble (construct : String) (extensible : Bool) (present : List Bool)
    (h : present.length ≤ 64) :
    RoundTrips (writePreamble extensible present)
      (readPreamble construct extensible present.length) (.ofList present) := by
  refine (roundTrips_extensionBit construct _ extensible).bind ?_
  rw [if_neg (by omega)]
  have ht := takes_readPreambleLoop present 0 0 (by simp)
  rw [Nat.zero_add, pow_zero, Nat.one_mul] at ht
  exact (emits_forM_writeBit present).roundTrips (ht.bind_nil (Takes.pure _))

/-! ## Choices -/

lemma roundTrips_choiceIndex (field : Field) (construct : String) (extensible : Bool)
    (index : ℕ) {rootCount : ℕ} (h : rootCount ≤ 2 ^ 64) :
    RoundTrips (writeChoiceIndex field extensible index rootCount)
      (readChoiceIndex field construct extensible rootCount) index := by
  refine RoundTrips.guard fun hc => (roundTrips_extensionBit construct _ extensible).bind ?_
  have hlt : index < rootCount := by omega
  exact (roundTrips_bits_of_lt (constrainedWidth_le h) (lt_two_pow_constrainedWidth hlt)).bind_nil
    (Takes.guard (by omega) (Takes.pure index))

end V2xw.Msg
