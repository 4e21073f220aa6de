import V2xw.Msg.UperConstructs

/-!
# Sequences of primitives

A message is a sequence of primitives written one after the other with no tags and no padding, so
that the reader knows what it reads only from the order. Here a sequence is arbitrary: any
primitives with any parameters, in any order, each starting at whatever phase of an octet the ones
before it end at.

## Main definitions

* `Prim` — a primitive and its parameters, as the reader has to know them.
* `Prim.Admissible` — the parameters and values the engine is made for.
* `writeAll`, `readAll` — a sequence of values written, a sequence of primitives read.

## Main results

* `readAll_writeAll` — what was written is read back, to the last bit.
-/

namespace V2xw.Msg

open Stream Proc

/-! ## Primitives -/

/-- A primitive of the engine with the parameters its reader is given. -/
inductive Prim where
  | bits (width : ℕ)
  | bool
  | constrainedInt (field : Field) (min max : ℤ)
  | constrainedLength (field : Field) (min max : ℕ)
  | length (construct : String)
  | enumerated (field : Field) (count : ℕ)
  | fixedBitString (field : Field) (len : ℕ)
  | extensibleBitString (field : Field) (construct : String) (rootLen : ℕ)
  | fixedOctetString (n : ℕ)
  | preamble (construct : String) (extensible : Bool) (optionals : ℕ)
  | choiceIndex (field : Field) (construct : String) (extensible : Bool) (rootCount : ℕ)
  | openType (construct : String)

namespace Prim

/-- What is handed to the writer of a primitive. -/
def Written : Prim → Type
  | bool => Bool
  | constrainedInt _ _ _ => ℤ
  | fixedOctetString _ => List UInt8
  | openType _ => List UInt8
  | preamble _ _ _ => List Bool
  | _ => ℕ

/-- What the reader of a primitive returns. -/
def Result : Prim → Type
  | preamble _ _ _ => Preamble
  | p => p.Written

/-- The write of a primitive. -/
def write : (p : Prim) → p.Written → Write
  | bits width => fun value : ℕ => modify fun w => w.writeBits value width
  | bool => writeBool
  | constrainedInt field min max => fun value => writeConstrainedInt field value min max
  | constrainedLength field min max => fun n => writeConstrainedLength field n min max
  | length construct => writeLength construct
  | enumerated field count => fun index => writeEnumerated field index count
  | fixedBitString field len => fun value => writeFixedBitString field value len
  | extensibleBitString field _ rootLen => fun value => writeExtensibleBitString field value rootLen
  | fixedOctetString _ => writeFixedOctetString
  | preamble _ extensible _ => writePreamble extensible
  | choiceIndex field _ extensible rootCount => fun index =>
    writeChoiceIndex field extensible index rootCount
  | openType construct => writeOpenType construct

/-- The read of a primitive, from its parameters alone. -/
def read : (p : Prim) → Read p.Result
  | bits width => readBits width
  | bool => readBool
  | constrainedInt field min max => readConstrainedInt field min max
  | constrainedLength field min max => readConstrainedLength field min max
  | length construct => readLength construct
  | enumerated field count => readEnumerated field count
  | fixedBitString _ len => readFixedBitString len
  | extensibleBitString _ construct rootLen => readExtensibleBitString construct rootLen
  | fixedOctetString n => readFixedOctetString n
  | preamble construct extensible optionals => readPreamble construct extensible optionals
  | choiceIndex field construct extensible rootCount =>
    readChoiceIndex field construct extensible rootCount
  | openType construct => readOpenType construct

/-- What the engine is made for: ranges that are 64-bit words, of fewer than `2 ^ 64` values, at
most 64 bits and at most 64 optional fields, octet strings of the size both sides expect, and open
types with something in them. -/
def Admissible : (p : Prim) → p.Written → Prop
  | bits width => fun _ => width ≤ 64
  | bool => fun _ => True
  | constrainedInt _ min max => fun _ => WordRange min max
  | constrainedLength _ min max => fun n : ℕ =>
    asI64 max - asI64 min + 1 < 2 ^ 64 ∧ n < 2 ^ 64
  | length _ => fun _ => True
  | enumerated _ count => fun _ => count < 2 ^ 64
  | fixedBitString _ len => fun value : ℕ => len ≤ 64 ∧ value < 2 ^ 64
  | extensibleBitString _ _ rootLen => fun value : ℕ => rootLen ≤ 64 ∧ value < 2 ^ 64
  | fixedOctetString n => fun octets : List UInt8 => octets.length = n
  | preamble _ _ optionals => fun present : List Bool =>
    present.length = optionals ∧ optionals ≤ 64
  | choiceIndex _ _ _ rootCount => fun _ => rootCount < 2 ^ 64
  | openType _ => fun inner : List UInt8 => inner ≠ []

/-- The value written, as the reader returns it: of raw bits the low ones, which are the ones
written; of presence bits the word they make. -/
def readBack : (p : Prim) → p.Written → p.Result
  | bits width => fun value : ℕ => value % 2 ^ width
  | preamble _ _ _ => Preamble.ofList
  | bool => id
  | constrainedInt _ _ _ => id
  | constrainedLength _ _ _ => id
  | length _ => id
  | enumerated _ _ => id
  | fixedBitString _ _ => id
  | extensibleBitString _ _ _ => id
  | fixedOctetString _ => id
  | choiceIndex _ _ _ _ => id
  | openType _ => id

/-- Every primitive makes its round trip. -/
lemma roundTrips (p : Prim) (v : p.Written) (h : p.Admissible v) :
    RoundTrips (p.write v) p.read (p.readBack v) := by
  cases p with
  | bits width =>
    have hrt := roundTrips_bits v width
    rwa [Nat.min_eq_left h] at hrt
  | bool => exact roundTrips_bool v
  | constrainedInt field min max => exact roundTrips_constrainedInt h field v
  | constrainedLength field min max => exact roundTrips_constrainedLength h.1 field h.2
  | length construct => exact roundTrips_length construct v
  | enumerated field count => exact roundTrips_enumerated field v (Nat.le_of_lt h)
  | fixedBitString field len =>
    obtain ⟨hlen, hv⟩ := h
    exact roundTrips_fixedBitString field (by omega)
  | extensibleBitString field construct rootLen =>
    obtain ⟨hlen, hv⟩ := h
    exact roundTrips_extensibleBitString field construct (by omega)
  | fixedOctetString n =>
    have hrt := roundTrips_fixedOctetString v
    rwa [show List.length v = n from h] at hrt
  | preamble construct extensible optionals =>
    obtain ⟨hlen, hle⟩ := h
    have hrt := roundTrips_preamble construct extensible v (hlen.trans_le hle)
    rwa [hlen] at hrt
  | choiceIndex field construct extensible rootCount =>
    exact roundTrips_choiceIndex field construct extensible v (Nat.le_of_lt h)
  | openType construct => exact roundTrips_openType construct h

end Prim

/-! ## Sequences -/

/-- Writes a sequence of values, each by its primitive. -/
def writeAll : List (Σ p : Prim, p.Written) → Write
  | [] => pure ()
  | ⟨p, v⟩ :: items => do
    p.write v
    writeAll items

/-- Reads a sequence of primitives. -/
def readAll : List Prim → Read (List (Σ p : Prim, p.Result))
  | [] => pure []
  | p :: ps => do
    let v ← p.read
    let vs ← readAll ps
    pure (⟨p, v⟩ :: vs)

lemma roundTrips_all (items : List (Σ p : Prim, p.Written))
    (h : ∀ item ∈ items, item.1.Admissible item.2) :
    RoundTrips (writeAll items) (readAll (items.map Sigma.fst))
      (items.map fun item => ⟨item.1, item.1.readBack item.2⟩) := by
  induction items with
  | nil => exact .pure []
  | cons item items ih =>
    refine (item.1.roundTrips item.2 (h item (by simp))).bind ?_
    exact (ih fun item' h' => h item' (by simp [h'])).bind_nil (Takes.pure _)

/-- **Round trip at any alignment.** If a fresh writer accepts a sequence of admissible primitives,
a reader over its octets that reads the same primitives returns the values written, has then
consumed exactly the bits written, and finds nothing but padding after them. -/
theorem readAll_writeAll (items : List (Σ p : Prim, p.Written))
    (h : ∀ item ∈ items, item.1.Admissible item.2) {w : BitWriter}
    (hw : (writeAll items).exec BitWriter.new = (.ok (), w)) :
    ∃ r, (readAll (items.map Sigma.fst)).exec (BitReader.new w.intoBytes) =
        (.ok (items.map fun item => ⟨item.1, item.1.readBack item.2⟩), r) ∧
      r.bitsRead = w.bitLen ∧ r.finish = .ok () :=
  roundTrips_whole (roundTrips_all items h) hw

/-- A sequence with every primitive in it, most of them away from an octet boundary. -/
def everyPrim : List (Σ p : Prim, p.Written) :=
  [⟨.bits 5, (0x3a : ℕ)⟩, ⟨.bool, true⟩, ⟨.constrainedInt ⟨"lat", "Latitude"⟩ (-5) 17, (-3 : ℤ)⟩,
    ⟨.constrainedLength ⟨"points", "List"⟩ 1 23, (9 : ℕ)⟩, ⟨.length "open", (300 : ℕ)⟩,
    ⟨.enumerated ⟨"kind", "Kind"⟩ 5, (4 : ℕ)⟩, ⟨.fixedBitString ⟨"lane", "Lane"⟩ 10, (0x2a5 : ℕ)⟩,
    ⟨.extensibleBitString ⟨"lights", "Lights"⟩ "Lights" 9, (0x101 : ℕ)⟩,
    ⟨.fixedOctetString 3, [(0xde : UInt8), 0xad, 0x01]⟩,
    ⟨.preamble "Seq" true 3, [true, false, true]⟩,
    ⟨.choiceIndex ⟨"choice", "Choice"⟩ "Choice" true 8, (6 : ℕ)⟩,
    ⟨.openType "partII", [(0x7f : UInt8), 0x80]⟩]

lemma everyPrim_accepted : (writeAll everyPrim).exec BitWriter.new =
    (.ok (), ⟨[212, 72, 129, 44, 149, 42, 3, 189, 90, 2, 172, 4, 255, 0], 111⟩) := by
  decide +kernel

lemma everyPrim_admissible : ∀ item ∈ everyPrim, item.1.Admissible item.2 := by
  simp only [everyPrim, List.forall_mem_cons, Prim.Admissible]
  exact ⟨by decide, trivial, ⟨by decide, by decide, by decide⟩, by decide, trivial, by decide,
    by decide, by decide, rfl, by decide, by decide, by decide, by simp⟩

theorem readAll_everyPrim : ∃ w r, w.bitLen = 111 ∧
    (writeAll everyPrim).exec BitWriter.new = (.ok (), w) ∧
    (readAll (everyPrim.map Sigma.fst)).exec (BitReader.new w.intoBytes) =
        (.ok (everyPrim.map fun item => ⟨item.1, item.1.readBack item.2⟩), r) ∧
      r.bitsRead = w.bitLen ∧ r.finish = .ok () := by
  obtain ⟨r, hr⟩ := readAll_writeAll everyPrim everyPrim_admissible everyPrim_accepted
  exact ⟨_, r, rfl, everyPrim_accepted, hr⟩

end V2xw.Msg
