import Mathlib.Algebra.Order.Ring.Int
import Mathlib.Data.Nat.Size
import V2xw.Lib.Stream

/-!
# Unaligned PER

The bit writer, the bit reader and one function per ASN.1 construct of the J2735 messages
(`crates/v2xw-msg/src/j2735/uper.rs`). Octets are `UInt8`, an unsigned machine word is a natural
number and a signed one an integer, with the wrap-around of the source's casts written out.

A write returns its error beside the writer it leaves: a refused field may have written bits, and
the writer the caller holds is the one those bits are in.

## Main definitions

* `BitWriter`, `BitReader` — bits most significant first, no padding between fields.
* `writeConstrainedInt`, `readConstrainedInt` — X.691 clause 11.5.
* `writeLength`, `writeOpenType` — clauses 11.9 and 11.2.
* `writePreamble`, `writeChoiceIndex` — clauses 19 and 23.
-/

namespace V2xw.Msg

open Stream

/-! ## Errors -/

/-- The field being encoded or decoded, for error messages that name a cause. -/
structure Field where
  path : String
  /-- The ASN.1 type whose constraint applies. -/
  asn1Type : String
  deriving DecidableEq, Repr

/-- Anything the bit-level engine can refuse. -/
inductive UperError where
  /-- A value did not fit the constraint of its ASN.1 type. -/
  | outOfRange (field asn1Type : String) (value min max : ℤ)
  /-- The encoding ended in the middle of a field. -/
  | truncated (pos want left : ℕ)
  /-- An `ENUMERATED` selected an index its root list does not have. -/
  | badEnumIndex (asn1Type : String) (index count : ℕ)
  /-- A construct the engine does not implement. -/
  | unsupported (construct detail : String)
  /-- Bits were left over after the outermost value was decoded. -/
  | trailingData (bits : ℕ)
  /-- The bytes are not a legal encoding of the type at all. -/
  | malformed (construct detail : String)
  deriving DecidableEq, Repr

/-! ## Machine words -/

/-- A cast to an unsigned word of `w` bits, which is also the wrap-around of its arithmetic. -/
def asUnsigned (w : ℕ) (z : ℤ) : ℕ := (z % 2 ^ w).toNat

/-- A cast to a signed word of `w` bits. -/
def asSigned (w : ℕ) (z : ℤ) : ℤ := z.bmod (2 ^ w)

/-- `as u64`. -/
def asU64 (z : ℤ) : ℕ := asUnsigned 64 z

/-- `as i64`. -/
def asI64 (z : ℤ) : ℤ := asSigned 64 z

/-! ## Bit writer -/

/-- Appends bits, most significant first, with no padding between fields. -/
structure BitWriter where
  bytes : List UInt8
  bits : ℕ
  deriving DecidableEq, Repr

/-- The computations on a writer. -/
abbrev Write := Proc BitWriter UperError Unit

namespace BitWriter

/-- An empty writer. -/
def new : BitWriter := ⟨[], 0⟩

/-- How many bits have been written. -/
def bitLen (w : BitWriter) : ℕ := w.bits

/-- The mask of bit `k` of an octet; bit 0 is the most significant. -/
def mask (k : ℕ) : UInt8 := 0x80 >>> UInt8.ofNat k

/-- Appends one bit. -/
def writeBit (w : BitWriter) (bit : Bool) : BitWriter :=
  let bytes := if w.bits % 8 = 0 then w.bytes ++ [0] else w.bytes
  { bytes := if bit then bytes.modify (bytes.length - 1) (· ||| mask (w.bits % 8)) else bytes
    bits := w.bits + 1 }

/-- The loop of `write_bits`: bits `shift - 1` down to `0` of the value. -/
def writeBitsLoop (value : ℕ) : ℕ → BitWriter → BitWriter
  | 0, w => w
  | shift + 1, w => writeBitsLoop value shift (w.writeBit ((value >>> shift) &&& 1 == 1))

/-- Appends the low `width` bits of `value`, most significant first; at most 64. -/
def writeBits (w : BitWriter) (value width : ℕ) : BitWriter := writeBitsLoop value (min width 64) w

/-- Appends whole octets, in bulk where the writer stands at an octet boundary. -/
def writeOctets (w : BitWriter) (octets : List UInt8) : BitWriter :=
  if w.bits % 8 = 0 then
    { bytes := w.bytes ++ octets, bits := w.bits + octets.length * 8 }
  else
    octets.foldl (fun w octet => w.writeBits octet.toNat 8) w

/-- Appends every bit that another writer holds, in bulk where both stand at an octet boundary. -/
def writeAll (w other : BitWriter) : BitWriter :=
  if w.bits % 8 = 0 ∧ other.bits % 8 = 0 then
    { bytes := w.bytes ++ other.bytes, bits := w.bits + other.bits }
  else
    (List.range other.bits).foldl
      (fun w i => w.writeBit (other.bytes.getD (i / 8) 0 &&& mask (i % 8) != 0)) w

/-- The encoding, the last octet padded with zeros. -/
def intoBytes (w : BitWriter) : List UInt8 := w.bytes

end BitWriter

/-! ## Bit reader -/

/-- Reads bits, most significant first. -/
structure BitReader where
  bytes : List UInt8
  pos : ℕ
  deriving DecidableEq, Repr

/-- The computations on a reader. -/
abbrev Read := Proc BitReader UperError

namespace BitReader

/-- A reader over an encoding. -/
def new (bytes : List UInt8) : BitReader := ⟨bytes, 0⟩

/-- How many bits the encoding holds, padding included. -/
def bitLen (r : BitReader) : ℕ := r.bytes.length * 8

/-- How many bits have been consumed. -/
def bitsRead (r : BitReader) : ℕ := r.pos

/-- How many bits are left. -/
def remaining (r : BitReader) : ℕ := r.bitLen - r.pos

end BitReader

open BitReader

/-- Refuses to go on when fewer than `want` bits are left. -/
def need (want : ℕ) : Read Unit := do
  let r ← get
  if r.remaining < want then throw (.truncated r.pos want r.remaining) else pure ()

/-- Reads one bit. -/
def readBit : Read Bool := do
  need 1
  let r ← get
  set { r with pos := r.pos + 1 }
  pure (r.bytes.getD (r.pos / 8) 0 &&& BitWriter.mask (r.pos % 8) != 0)

/-- The loop of `read_bits`, shifting each bit into the value. -/
def readBitsLoop : ℕ → ℕ → Read ℕ
  | 0, value => pure value
  | width + 1, value => do
    let bit ← readBit
    readBitsLoop width ((value <<< 1) % 2 ^ 64 ||| bit.toNat)

/-- Reads `width` bits as a number, most significant first; at most 64. -/
def readBits (width : ℕ) : Read ℕ := do
  need (min width 64)
  readBitsLoop (min width 64) 0

/-- Reads one octet. -/
def readOctet : Read UInt8 := do
  let value ← readBits 8
  pure (UInt8.ofNat value)

/-- Reads `n` whole octets. -/
def readOctets (n : ℕ) : Read (List UInt8) := do
  need (n * 8)
  replicateM n readOctet

/-- The loop of `finish` over a copy of the reader: `n` bits, all clear. -/
def finishLoop (left : ℕ) : ℕ → Read Unit
  | 0 => pure ()
  | n + 1 => do
    let bit ← readBit
    if bit then throw (.trailingData left) else finishLoop left n

/-- Checks that what is left is nothing but padding: at most seven bits, all zero. -/
def BitReader.finish (r : BitReader) : Except UperError Unit :=
  if 8 ≤ r.remaining then .error (.trailingData r.remaining)
  else ((finishLoop r.remaining r.remaining).exec r).1

/-! ## Constrained whole numbers -/

/-- Bits a constrained whole number over `range` values occupies. -/
def constrainedWidth (range : ℕ) : ℕ := if range ≤ 1 then 0 else Nat.size (range - 1)

/-- The number of values of `min..=max`, which wraps to zero for a full 64-bit range. -/
def rangeOf (min max : ℤ) : ℕ := if max < min then 0 else asU64 (max - min + 1)

/-- Encodes a constrained whole number. -/
def writeConstrainedInt (field : Field) (value min max : ℤ) : Write :=
  if value < min ∨ max < value then
    throw (.outOfRange field.path field.asn1Type value min max)
  else
    modify (·.writeBits (asU64 (value - min)) (constrainedWidth (rangeOf min max)))

/-- Decodes a constrained whole number; an encoding above the range is refused. -/
def readConstrainedInt (field : Field) (min max : ℤ) : Read ℤ := do
  let raw ← readBits (constrainedWidth (rangeOf min max))
  if rangeOf min max ≤ raw then
    throw (.outOfRange field.path field.asn1Type (asI64 (min + raw)) min max)
  else
    pure (asI64 (min + raw))

/-! ## Length determinants -/

/-- Encodes a length constrained to `min..=max`. -/
def writeConstrainedLength (field : Field) (n min max : ℕ) : Write :=
  writeConstrainedInt field (asI64 n) (asI64 min) (asI64 max)

/-- Decodes a length constrained to `min..=max`. -/
def readConstrainedLength (field : Field) (min max : ℕ) : Read ℕ := do
  let n ← readConstrainedInt field (asI64 min) (asI64 max)
  pure (asU64 n)

/-- Largest length encoded without fragmentation. -/
def maxUnfragmentedLength : ℕ := 16383

/-- Encodes an unconstrained length determinant, in one octet below 128 and in two from there. -/
def writeLength (construct : String) (n : ℕ) : Write :=
  if n < 128 then
    modify (·.writeBits n 8)
  else if n ≤ maxUnfragmentedLength then do
    modify (·.writeBits 0b10 2)
    modify (·.writeBits n 14)
  else
    throw (.unsupported construct ("a length of 16384 octets or more needs X.691 clause 11.9.3.8 "
      ++ "fragmentation, which no BSM container can require"))

/-- Decodes an unconstrained length determinant. -/
def readLength (construct : String) : Read ℕ := do
  let first ← readBits 8
  if first &&& 0x80 = 0 then
    pure first
  else if first &&& 0x40 = 0 then do
    let low ← readBits 8
    pure ((first &&& 0x3f) <<< 8 ||| low)
  else
    throw (.unsupported construct ("a fragmented length determinant (X.691 clause 11.9.3.8) was "
      ++ "met; this engine decodes only the one- and two-octet forms"))

/-! ## Simple types -/

/-- Encodes a `BOOLEAN`. -/
def writeBool (value : Bool) : Write := modify (·.writeBit value)

/-- Decodes a `BOOLEAN`. -/
def readBool : Read Bool := readBit

/-- Encodes a non-extensible `ENUMERATED`: the index of the value in the root list. -/
def writeEnumerated (field : Field) (index count : ℕ) : Write :=
  if count = 0 ∨ count ≤ index then
    throw (.badEnumIndex field.asn1Type index count)
  else
    modify (·.writeBits index (constrainedWidth count))

/-- Decodes a non-extensible `ENUMERATED`. -/
def readEnumerated (field : Field) (count : ℕ) : Read ℕ := do
  let index ← readBits (constrainedWidth count)
  if count ≤ index then throw (.badEnumIndex field.asn1Type index count) else pure index

/-- Encodes a `BIT STRING` of a fixed size of at most 64 bits; a bit above the size is refused. -/
def writeFixedBitString (field : Field) (bits len : ℕ) : Write :=
  if len < 64 ∧ bits >>> len ≠ 0 then
    throw (.outOfRange field.path field.asn1Type (asI64 bits) 0 (asI64 (2 ^ len - 1)))
  else
    modify (·.writeBits bits len)

/-- Decodes a `BIT STRING` of a fixed size of at most 64 bits. -/
def readFixedBitString (len : ℕ) : Read ℕ := readBits len

/-- Encodes a `BIT STRING` whose size is extensible with a single root value. -/
def writeExtensibleBitString (field : Field) (bits rootLen : ℕ) : Write := do
  modify (·.writeBit false)
  writeFixedBitString field bits rootLen

/-- Decodes a `BIT STRING` whose size is extensible with a single root value. -/
def readExtensibleBitString (construct : String) (rootLen : ℕ) : Read ℕ := do
  let extended ← readBit
  if extended then
    throw (.unsupported construct ("the bit string's length is outside its extension root; this "
      ++ "codec encodes and decodes only the root length"))
  else
    readBits rootLen

/-- Encodes an `OCTET STRING` of a fixed size. -/
def writeFixedOctetString (octets : List UInt8) : Write := modify (·.writeOctets octets)

/-- Decodes an `OCTET STRING` of a fixed size. -/
def readFixedOctetString (n : ℕ) : Read (List UInt8) := readOctets n

/-! ## Preambles -/

/-- What a `SEQUENCE` preamble said: a bit for each optional field, field `i` in `1 << i`. -/
structure Preamble where
  present : ℕ
  deriving DecidableEq, Repr

/-- The extension bit of a construct that has one, always written as absent. -/
def writeExtensionBit (extensible : Bool) : Write :=
  if extensible then modify (·.writeBit false) else pure ()

/-- Encodes a `SEQUENCE` preamble. -/
def writePreamble (extensible : Bool) (present : List Bool) : Write := do
  writeExtensionBit extensible
  present.forM fun p => modify (·.writeBit p)

/-- The loop of `read_preamble`: `n` optional fields from field `i` on. -/
def readPreambleLoop : ℕ → ℕ → ℕ → Read ℕ
  | 0, _, present => pure present
  | n + 1, i, present => do
    let bit ← readBit
    readPreambleLoop n (i + 1) (if bit then present ||| 1 <<< i else present)

/-- Reads an extension bit where the construct has one, and refuses it when it is set. -/
def readExtensionBit (construct detail : String) (extensible : Bool) : Read Unit :=
  if extensible then do
    let bit ← readBit
    if bit then throw (.unsupported construct detail) else pure ()
  else
    pure ()

/-- Decodes a `SEQUENCE` preamble. -/
def readPreamble (construct : String) (extensible : Bool) (optionals : ℕ) : Read Preamble := do
  readExtensionBit construct ("the encoder set the extension bit, so the value carries extension "
    ++ "additions from a later edition of the standard that this codec cannot interpret") extensible
  if 64 < optionals then
    throw (.unsupported construct ("a SEQUENCE with more than 64 OPTIONAL or DEFAULT fields; the "
      ++ "clause 19.2 bit-map does not fit the engine's 64-bit `present` word, and reading part "
      ++ "of it would desynchronise every field after it"))
  else do
    let present ← readPreambleLoop optionals 0 0
    pure ⟨present⟩

/-! ## Open types -/

/-- Encodes an open type field; an empty inner encoding becomes one zero octet. -/
def writeOpenType (construct : String) (inner : List UInt8) : Write :=
  if inner.isEmpty then do
    writeLength construct 1
    modify (·.writeBits 0 8)
  else do
    writeLength construct inner.length
    modify (·.writeOctets inner)

/-- Decodes an open type field, returning the inner octets. -/
def readOpenType (construct : String) : Read (List UInt8) := do
  let n ← readLength construct
  if n = 0 then
    throw (.malformed construct ("the open type's length determinant is zero, but X.691 clause "
      ++ "11.2.2 encodes an empty inner value as a single zero octet, so an open type is never "
      ++ "shorter than one octet"))
  else
    readOctets n

/-! ## Choices -/

/-- Encodes the alternative selector of a `CHOICE`, always one of the extension root. -/
def writeChoiceIndex (field : Field) (extensible : Bool) (index rootCount : ℕ) : Write :=
  if rootCount = 0 ∨ rootCount ≤ index then
    throw (.badEnumIndex field.asn1Type index rootCount)
  else do
    writeExtensionBit extensible
    modify (·.writeBits index (constrainedWidth rootCount))

/-- Decodes the alternative selector of a `CHOICE`. -/
def readChoiceIndex (field : Field) (construct : String) (extensible : Bool) (rootCount : ℕ) :
    Read ℕ := do
  readExtensionBit construct ("the CHOICE selects an extension addition from a later edition of the "
    ++ "standard; its open type carries a value this codec cannot interpret") extensible
  let index ← readBits (constrainedWidth rootCount)
  if rootCount ≤ index then
    throw (.badEnumIndex field.asn1Type index rootCount)
  else
    pure index

end V2xw.Msg
