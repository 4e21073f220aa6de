import V2xw.Msg.UperBits

/-!
# Writers are canonical

A writer that has been reached by writes is determined by the bits written: its octets are as many
as the bits need, and the rest of the last one is zero. So the bulk paths of the writer come to the
same as bit after bit.

## Main definitions

* `BitWriter.Reached` — the writers that writes lead to.

## Main results

* `reached_canonical` — their octets, and what the bulk writes do to them.
-/

namespace V2xw.Msg

open Stream BitList

/-! ## Octets and bits -/

lemma toNat_ofByte (x : UInt8) : toNat (ofByte x) = x.toNat := by
  rw [ofByte, toNat_ofNat, Nat.mod_eq_of_lt x.toNat_lt]

lemma ofByte_injective {x y : UInt8} (h : ofByte x = ofByte y) : x = y := by
  rw [← UInt8.toNat_inj, ← toNat_ofByte, h, toNat_ofByte]

lemma unpack_injective : ∀ {xs ys : List UInt8}, unpack xs = unpack ys → xs = ys
  | [], [], _ => rfl
  | [], y :: ys, h => absurd (congrArg List.length h) (by simp)
  | x :: xs, [], h => absurd (congrArg List.length h) (by simp)
  | x :: xs, y :: ys, h => by
    rw [unpack_cons, unpack_cons] at h
    obtain ⟨hx, hxs⟩ := List.append_inj h (by rw [length_ofByte, length_ofByte])
    rw [ofByte_injective hx, unpack_injective hxs]

lemma toNat_replicate (n : ℕ) : toNat (List.replicate n false) = 0 := by
  induction n with
  | zero => rfl
  | succ n ih => rw [List.replicate_succ, toNat_cons, ih]; simp

namespace BitWriter

/-! ## Reached writers -/

/-- The writers that writes lead to from an empty one. -/
inductive Reached : BitWriter → Prop
  | new : Reached .new
  | writeBit {w : BitWriter} (bit : Bool) : Reached w → Reached (w.writeBit bit)
  | writeBits {w : BitWriter} (value width : ℕ) : Reached w → Reached (w.writeBits value width)
  | writeOctets {w : BitWriter} (octets : List UInt8) : Reached w → Reached (w.writeOctets octets)
  | writeAll {w other : BitWriter} : Reached w → Reached other → Reached (w.writeAll other)

/-- The bits that a writer holds determine it. -/
lemma Holding.unique {w w' : BitWriter} {l : List Bool} (h : Holds w l) (h' : Holds w' l) :
    w = w' := by
  obtain ⟨hbytes, hpad, hle⟩ := h.pad
  obtain ⟨hbytes', hpad', hle'⟩ := h'.pad
  have hbits : w.bits = w'.bits := h.bits_eq.trans h'.bits_eq.symm
  have hlength : w.bytes.length = w'.bytes.length := by omega
  have hunpack : unpack w.bytes = unpack w'.bytes := by
    rw [hbytes, hbytes', hlength, hbits]
  cases w
  cases w'
  exact congrArg₂ BitWriter.mk (unpack_injective hunpack) hbits

lemma holds_foldl_writeBit (bs : List Bool) : ∀ {w : BitWriter} {l : List Bool}, Holds w l →
    Holds (bs.foldl writeBit w) (l ++ bs) := by
  induction bs with
  | nil => exact fun h => by rwa [List.append_nil]
  | cons b bs ih =>
    intro w l h
    rw [List.append_cons]
    exact ih (holds_writeBit h b)

/-- The bits of another writer, as `write_all` reads them. -/
lemma Holding.map_range {w : BitWriter} {l : List Bool} (h : Holds w l) :
    (List.range w.bits).map (fun i => w.bytes.getD (i / 8) 0 &&& mask (i % 8) != 0) = l := by
  obtain ⟨hbytes, _, hle⟩ := h.pad
  have hlen := h.bits_eq
  refine List.ext_getElem? fun i => ?_
  rw [List.getElem?_map]
  rcases Nat.lt_or_ge i w.bits with hi | hi
  · have hget := getElem?_unpack w.bytes i
    rw [hbytes, List.getElem?_append_left (hlen ▸ hi)] at hget
    have hbyte : i / 8 < w.bytes.length := by omega
    rw [List.getElem?_range hi, hget, Option.map_some, List.getD_eq_getElem?_getD,
      List.getElem?_eq_getElem hbyte, Option.getD_some, Option.map_some, mask,
      and_mask_ne_zero _ (Nat.mod_lt _ (by decide))]
  · rw [List.getElem?_eq_none (by rwa [List.length_range]), List.getElem?_eq_none (hlen ▸ hi),
      Option.map_none]

/-- Appending another writer, on either path. -/
lemma holds_writeAll {w other : BitWriter} {l l' : List Bool} (h : Holds w l)
    (h' : Holds other l') : Holds (w.writeAll other) (l ++ l') := by
  unfold writeAll
  split_ifs with h8
  · obtain ⟨hbytes, hpad, hle⟩ := h.pad
    obtain ⟨hbytes', hpad', hle'⟩ := h'.pad
    have hpad0 : 8 * w.bytes.length - w.bits = 0 := by omega
    have hpad0' : 8 * other.bytes.length - other.bits = 0 := by omega
    rw [hpad0, List.replicate_zero, List.append_nil] at hbytes
    rw [hpad0', List.replicate_zero, List.append_nil] at hbytes'
    refine ⟨?_, 0, by decide, ?_⟩
    · rw [List.length_append, ← h.bits_eq, ← h'.bits_eq]
    · rw [unpack_append, hbytes, hbytes', List.replicate_zero, List.append_nil]
  · have hbits := holds_foldl_writeBit l' h
    rwa [← h'.map_range, List.foldl_map, h'.map_range] at hbits

lemma Reached.holds {w : BitWriter} (h : Reached w) : ∃ l, Holds w l := by
  induction h with
  | new => exact ⟨[], holds_new⟩
  | writeBit bit _ ih =>
    obtain ⟨l, h⟩ := ih
    exact ⟨_, holds_writeBit h bit⟩
  | writeBits value width _ ih =>
    obtain ⟨l, h⟩ := ih
    exact ⟨_, holds_writeBits value width h⟩
  | writeOctets octets _ ih =>
    obtain ⟨l, h⟩ := ih
    exact ⟨_, holds_writeOctets octets h⟩
  | writeAll _ _ ih ih' =>
    obtain ⟨l, h⟩ := ih
    obtain ⟨l', h'⟩ := ih'
    exact ⟨_, holds_writeAll h h'⟩

/-- The bits of the last octet that are not used are zero. -/
lemma Holding.last_mod {w : BitWriter} {l : List Bool} (h : Holds w l) {last : UInt8}
    (hlast : w.bytes.getLast? = some last) :
    last.toNat % 2 ^ (8 * w.bytes.length - w.bits) = 0 := by
  obtain ⟨hbytes, hpad, hle⟩ := h.pad
  obtain ⟨front, hfront⟩ := List.getLast?_eq_some_iff.1 hlast
  have hlen := h.bits_eq
  have hlength : w.bytes.length = front.length + 1 := by
    rw [hfront, List.length_append, List.length_singleton]
  have hdrop := congrArg (List.drop (unpack front).length) hbytes
  rw [hfront, unpack_append, List.drop_left, unpack_singleton, ← hfront,
    List.drop_append_of_le_length (by rw [length_unpack]; omega)] at hdrop
  rw [← toNat_ofByte last, hdrop, toNat_append, toNat_replicate, List.length_replicate]
  exact Nat.mul_add_mod_self_right _ _ _

end BitWriter

/-- **Writers are canonical**: a writer that has been reached has as many octets as its bits need,
with zeros in the rest of the last one, and the bulk writes do to it what bit after bit would do. -/
theorem reached_canonical {w : BitWriter} (h : w.Reached) :
    w.bytes.length = (w.bitLen + 7) / 8 ∧
    (∀ last, w.bytes.getLast? = some last →
      last.toNat % 2 ^ (8 * w.bytes.length - w.bitLen) = 0) ∧
    (∀ octets, w.writeOctets octets = (unpack octets).foldl BitWriter.writeBit w) ∧
    ∀ other : BitWriter, other.Reached →
      w.writeAll other = ((unpack other.bytes).take other.bitLen).foldl BitWriter.writeBit w := by
  obtain ⟨l, hl⟩ := h.holds
  obtain ⟨_, hpad, hle⟩ := hl.pad
  refine ⟨?_, fun last hlast => hl.last_mod hlast, fun octets => ?_, fun other hother => ?_⟩
  · rw [BitWriter.bitLen]
    omega
  · exact (BitWriter.holds_writeOctets octets hl).unique
      (BitWriter.holds_foldl_writeBit (unpack octets) hl)
  · obtain ⟨l', hl'⟩ := hother.holds
    have htake : (unpack other.bytes).take other.bitLen = l' := by
      rw [hl'.pad.1, BitWriter.bitLen, hl'.bits_eq, List.take_left]
    rw [htake]
    exact (BitWriter.holds_writeAll hl hl').unique (BitWriter.holds_foldl_writeBit l' hl)

/-- A writer that stands after three bits. -/
theorem reached_canonical_three :
    (BitWriter.new.writeBits 5 3).writeOctets [0xa5] =
      (unpack [0xa5]).foldl BitWriter.writeBit (BitWriter.new.writeBits 5 3) :=
  (reached_canonical (.writeBits 5 3 .new)).2.2.1 [0xa5]

end V2xw.Msg
