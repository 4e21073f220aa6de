import V2xw.Lib.Utf8
import V2xw.Record.SnapshotRoundTrip
import V2xw.Server.Frame

/-!
# Symbol tables on the wire

The encoding of a symbol table in `crates/v2xw-record/src/wire/mod.rs`: the number of strings, the
size of their bytes, the offset of each string and the end of the last one, and the bytes, padded to
a multiple of four.

A buffer holds a table at any offset; decoding returns the length of the encoding beside the table.
What the standard library says about bytes that are not UTF-8 is a parameter.

## Main definitions

* `StrTable.encode`, `StrTable.decode`.

## Main results

* `StrTable.length_encode` — the length the source computes in advance.
* `StrTable.decode_of_drop` — a table that stands in a buffer is decoded.
-/

namespace V2xw.Server.StrTable

open Layout Record

/-! ## Encoding -/

/-- The bytes of all strings, one after another. -/
def blob (t : StrTable) : Bytes := t.strings.flatMap fun s => Utf8.bytes s.toList

/-- How many bytes the strings take. -/
def blobBytes (t : StrTable) : ℕ := (t.strings.map String.utf8ByteSize).sum

/-- Where each of some strings starts, the first at a cursor. -/
def offsets : ℕ → List String → List ℕ
  | _, [] => []
  | cursor, s :: ss => cursor :: offsets (cursor + s.utf8ByteSize) ss

/-- Encodes the table. -/
def encode (t : StrTable) : Bytes :=
  put (UInt32.ofNat t.strings.length) ++ (put (UInt32.ofNat t.blobBytes) ++
    ((offsets 0 t.strings ++ [t.blobBytes]).flatMap (fun o => put (UInt32.ofNat o)) ++
      (t.blob ++ List.replicate (ceil4 t.blobBytes - t.blobBytes) 0)))

/-! ## Decoding -/

/-- The string between two offsets of the blob, the `i`th of the table. -/
def decodeString (explain : Bytes → String) (blob : Bytes) (blobBytes i a b : ℕ) :
    Except RecordError String :=
  if b < a ∨ blobBytes < b then
    .error (.malformed "vwp StrTable"
      s!"offsets[{i}] = {a} .. {b} is not a non-decreasing range")
  else
    let bytes := (blob.drop a).take (b - a)
    match Utf8.text? bytes with
    | some text => .ok (String.ofList text)
    | none => .error (.malformed "vwp StrTable" s!"string {i} is not UTF-8: {explain bytes}")

/-- Decodes the table at an offset of a buffer, with the length of its encoding. -/
def decode (explain : Bytes → String) (buf : Bytes) (off : ℕ) :
    Except RecordError (StrTable × ℕ) := do
  let what := "vwp StrTable"
  let n ← getAt (α := UInt32) buf off what
  let blobBytes ← getAt (α := UInt32) buf (off + 4) what
  let blobBytes := blobBytes.toNat
  let n ← checkedCount n.toNat 4 buf.length what "the symbol table"
  let offsets ← (List.range (n + 1)).mapM fun i =>
    (getAt (α := UInt32) buf (off + 8 + 4 * i) what).map UInt32.toNat
  if offsets[0]?.getD 0 ≠ 0 ∨ offsets[n]?.getD 0 ≠ blobBytes then
    .error (.malformed what
      s!"offsets[0] = {offsets[0]?.getD 0} and offsets[{n}] = {offsets[n]?.getD 0} must be 0 and blob_bytes = {blobBytes}")
  else
    let blob ← readAt (.truncated what) buf (off + 8 + 4 * (n + 1)) blobBytes
    let strings ← (List.range n).mapM fun i =>
      decodeString explain blob blobBytes i (offsets[i]?.getD 0) (offsets[i + 1]?.getD 0)
    .ok (⟨strings⟩, 8 + 4 * (n + 1) + ceil4 blobBytes)

/-! ## Lengths -/

lemma length_bytes (s : String) : (Utf8.bytes s.toList).length = s.utf8ByteSize := by
  rw [← List.size_toByteArray, Utf8.toByteArray_bytes]
  rfl

lemma length_flatMap_bytes (ss : List String) :
    (ss.flatMap fun s => Utf8.bytes s.toList).length = (ss.map String.utf8ByteSize).sum := by
  rw [List.length_flatMap]
  exact congrArg List.sum (List.map_congr_left fun s _ => length_bytes s)

lemma length_blob (t : StrTable) : t.blob.length = t.blobBytes := length_flatMap_bytes t.strings

lemma length_offsets (ss : List String) : ∀ cursor, (offsets cursor ss).length = ss.length := by
  induction ss with
  | nil => exact fun _ => rfl
  | cons s ss ih =>
    intro cursor
    rw [offsets, List.length_cons, ih, List.length_cons]

lemma le_ceil4 (n : ℕ) : n ≤ ceil4 n := by
  unfold ceil4
  omega

lemma length_encode (t : StrTable) : t.encode.length = t.encodedLen := by
  have hwidth : ∀ o : ℕ, (put (UInt32.ofNat o)).length = 4 := fun o => length_put _
  have hpad := le_ceil4 t.blobBytes
  simp only [encode, List.length_append, length_flatMap_of_width hwidth, length_blob,
    List.length_replicate, List.length_singleton, length_offsets, hwidth]
  show _ = 8 + 4 * (t.strings.length + 1) + ceil4 t.blobBytes
  omega

/-! ## A table that stands in a buffer -/

/-- The start of string `i`, counted from the first. -/
lemma offsets_getElem? (ss : List String) :
    ∀ (cursor i : ℕ), i ≤ ss.length →
      (offsets cursor ss ++ [cursor + (ss.map String.utf8ByteSize).sum])[i]? =
        some (cursor + ((ss.take i).map String.utf8ByteSize).sum) := by
  induction ss with
  | nil =>
    intro cursor i hi
    obtain rfl : i = 0 := Nat.le_zero.1 hi
    rfl
  | cons s ss ih =>
    intro cursor i hi
    cases i with
    | zero => rfl
    | succ i =>
      have htail := ih (cursor + s.utf8ByteSize) i (Nat.le_of_succ_le_succ hi)
      rw [offsets, List.cons_append, List.getElem?_cons_succ, List.take_succ_cons, List.map_cons,
        List.map_cons, List.sum_cons, List.sum_cons, ← Nat.add_assoc, ← Nat.add_assoc, htail]

/-- The start and the end of a string are offsets of the blob, and its bytes lie between them. -/
lemma drop_blob {ss : List String} {i : ℕ} {s : String} (hs : ss[i]? = some s) :
    ((ss.take (i + 1)).map String.utf8ByteSize).sum =
        ((ss.take i).map String.utf8ByteSize).sum + s.utf8ByteSize ∧
      ((ss.take (i + 1)).map String.utf8ByteSize).sum ≤ (ss.map String.utf8ByteSize).sum ∧
      ((ss.flatMap fun s => Utf8.bytes s.toList).drop
          ((ss.take i).map String.utf8ByteSize).sum).take s.utf8ByteSize =
        Utf8.bytes s.toList := by
  obtain ⟨hlt, hget⟩ := List.getElem?_eq_some_iff.1 hs
  have htake : ss.take (i + 1) = ss.take i ++ [s] := by
    rw [List.take_add_one, hs]
    rfl
  have hsplit : ss = ss.take i ++ s :: ss.drop (i + 1) := by
    rw [← hget, List.cons_getElem_drop_succ, List.take_append_drop]
  refine ⟨?_, ?_, ?_⟩
  · rw [htake, List.map_append, List.sum_append, List.map_singleton, List.sum_singleton]
  · conv_rhs => rw [← List.take_append_drop (i + 1) ss, List.map_append, List.sum_append]
    exact Nat.le_add_right _ _
  · conv_lhs => rw [hsplit, List.flatMap_append, List.flatMap_cons]
    have htk : (ss.take i ++ s :: ss.drop (i + 1)).take i = ss.take i := by rw [← hsplit]
    rw [htk, List.drop_left' (length_flatMap_bytes _), List.take_left' (length_bytes s)]

lemma decodeString_blob (explain : Bytes → String) (t : StrTable) {i : ℕ} {s : String}
    (hs : t.strings[i]? = some s) :
    decodeString explain t.blob t.blobBytes i ((t.strings.take i).map String.utf8ByteSize).sum
        ((t.strings.take (i + 1)).map String.utf8ByteSize).sum = .ok s := by
  obtain ⟨hnext, hle, hbytes⟩ := drop_blob hs
  have htext : Utf8.text? (Utf8.bytes s.toList) = some s.toList := Utf8.text?_eq_some.2 rfl
  rw [decodeString, if_neg (by rw [blobBytes]; omega), hnext, Nat.add_sub_cancel_left]
  simp only [blob, hbytes, htext, String.ofList_toList]

lemma readAt_block {ε : Type} (fail : ℕ → ℕ → ℕ → ε) {body x rest : Bytes} {off n : ℕ}
    (h : body.drop off = x ++ rest) (hn : x.length = n) (hoff : off ≤ body.length) :
    readAt fail body off n = .ok x := by
  have hlen : body.length - off = x.length + rest.length := by
    rw [← List.length_drop, h, List.length_append]
  rw [readAt, if_pos (by omega), h, ← hn, List.take_left]

/-- **A table that stands at an offset of a buffer is decoded**, with the length of its encoding. -/
theorem decode_of_drop (explain : Bytes → String) {t : StrTable} (hlen : t.encodedLen < 2 ^ 32)
    {buf rest : Bytes} {off : ℕ} (h : buf.drop off = t.encode ++ rest) :
    decode explain buf off = .ok (t, t.encodedLen) := by
  have htotal : t.encodedLen = 8 + 4 * (t.strings.length + 1) + ceil4 t.blobBytes := rfl
  have hpad := le_ceil4 t.blobBytes
  have hbuf : buf.length - off = t.encodedLen + rest.length := by
    rw [← List.length_drop, h, List.length_append, length_encode]
  have hn : (UInt32.ofNat t.strings.length).toNat = t.strings.length :=
    toNat_ofNat_of_lt (by omega)
  have hb : (UInt32.ofNat t.blobBytes).toNat = t.blobBytes := toNat_ofNat_of_lt (by omega)
  rw [encode] at h
  simp only [List.append_assoc] at h
  have hcount := getAt_of_drop "vwp StrTable" h
  have h₁ := drop_add_of_drop h (length_put _)
  have hsize := getAt_of_drop "vwp StrTable" h₁
  have h₂ := drop_add_of_drop h₁ (length_put _)
  change buf.drop (off + 8) = _ at h₂
  have hwidth : ∀ o : ℕ, (put (UInt32.ofNat o)).length = 4 := fun o => length_put _
  have hlenOff : (offsets 0 t.strings ++ [t.blobBytes]).length = t.strings.length + 1 := by
    rw [List.length_append, length_offsets, List.length_singleton]
  have h₃ : buf.drop (off + 8 + 4 * (t.strings.length + 1)) =
      t.blob ++ (List.replicate (ceil4 t.blobBytes - t.blobBytes) 0 ++ rest) := by
    refine drop_add_of_drop h₂ ?_
    rw [length_flatMap_of_width hwidth, hlenOff]
  have hat : ∀ i, i ≤ t.strings.length → (offsets 0 t.strings ++ [t.blobBytes])[i]? =
      some ((t.strings.take i).map String.utf8ByteSize).sum := by
    intro i hi
    have hget := offsets_getElem? t.strings 0 i hi
    rwa [Nat.zero_add, Nat.zero_add] at hget
  -- the offsets are read back
  have hread : (List.range (t.strings.length + 1)).mapM (fun i =>
      (getAt (α := UInt32) buf (off + 8 + 4 * i) "vwp StrTable").map UInt32.toNat) =
      .ok (offsets 0 t.strings ++ [t.blobBytes]) := by
    rw [← hlenOff]
    refine Table.mapM_range fun i o ho => ?_
    have hdrop := Table.drop_add_flatMap hwidth ho h₂
    rw [getAt_of_drop _ hdrop]
    have hle : i ≤ t.strings.length := by
      have := (List.getElem?_eq_some_iff.1 ho).1
      omega
    have hsum : o ≤ t.blobBytes := by
      rw [hat i hle] at ho
      rw [← Option.some.inj ho, blobBytes]
      conv_rhs => rw [← List.take_append_drop i t.strings, List.map_append, List.sum_append]
      exact Nat.le_add_right _ _
    exact congrArg Except.ok (toNat_ofNat_of_lt (by omega))
  have hblob : readAt (RecordError.truncated "vwp StrTable") buf
      (off + 8 + 4 * (t.strings.length + 1)) t.blobBytes = .ok t.blob :=
    readAt_block _ h₃ t.length_blob (by omega)
  have hstrings : (List.range t.strings.length).mapM (fun i =>
      decodeString explain t.blob t.blobBytes i
        ((offsets 0 t.strings ++ [t.blobBytes])[i]?.getD 0)
        ((offsets 0 t.strings ++ [t.blobBytes])[i + 1]?.getD 0)) = .ok t.strings := by
    refine Table.mapM_range fun i s hs => ?_
    have hlt := (List.getElem?_eq_some_iff.1 hs).1
    rw [hat i hlt.le, hat (i + 1) hlt]
    exact decodeString_blob explain t hs
  have hcheck : checkedCount t.strings.length 4 buf.length "vwp StrTable" "the symbol table" =
      .ok t.strings.length := if_neg (by omega)
  have hends : ¬((offsets 0 t.strings ++ [t.blobBytes])[0]?.getD 0 ≠ 0 ∨
      (offsets 0 t.strings ++ [t.blobBytes])[t.strings.length]?.getD 0 ≠ t.blobBytes) := by
    rw [hat 0 (Nat.zero_le _), hat _ le_rfl, List.take_length]
    simp [blobBytes]
  have hsize' : getAt (α := UInt32) buf (off + 4) "vwp StrTable" =
      .ok (UInt32.ofNat t.blobBytes) := hsize
  simp only [decode, hcount, hsize', bind, Except.bind, hn, hb, hcheck, hread, if_neg hends, hblob,
    hstrings]
  rfl

end V2xw.Server.StrTable
