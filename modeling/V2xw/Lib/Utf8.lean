import Mathlib.Data.List.Basic
import V2xw.Lib.PrefixFree

/-!
# Texts as bytes

A text file is read whole: its bytes have to be UTF-8, and then it is the characters they encode.
Bytes cut off from a text are a part of its characters, or no text at all.

## Main definitions

* `Utf8.bytes` — the bytes of some characters.
* `Utf8.text?` — the characters of some bytes, if these are UTF-8.

## Main results

* `Utf8.text?_eq_some` — reading undoes writing, and nothing else is read.
* `Utf8.prefixFree` — a character can be told from the bytes it starts.
-/

namespace Utf8

/-- The bytes of some characters. -/
def bytes (cs : List Char) : List UInt8 := cs.flatMap String.utf8EncodeChar

/-- The characters of some bytes, if these are UTF-8. -/
def text? (bs : List UInt8) : Option (List Char) :=
  (String.fromUTF8? bs.toByteArray).map String.toList

@[simp] lemma bytes_nil : bytes [] = [] := rfl

@[simp] lemma bytes_append (cs ds : List Char) : bytes (cs ++ ds) = bytes cs ++ bytes ds :=
  List.flatMap_append

lemma toByteArray_bytes (s : String) : (bytes s.toList).toByteArray = s.toByteArray :=
  String.utf8Encode_toList

lemma toByteArray_injective : Function.Injective List.toByteArray := by
  intro bs cs h
  have hdata := congrArg ByteArray.data h
  rw [List.data_toByteArray, List.data_toByteArray] at hdata
  exact Array.toList_inj.2 hdata

/-- Reading undoes writing, and nothing else is read. -/
lemma text?_eq_some {bs : List UInt8} {cs : List Char} : text? bs = some cs ↔ bs = bytes cs := by
  have hiff : text? bs = some cs ↔ ∃ s : String, s.toByteArray = bs.toByteArray ∧ s.toList = cs := by
    unfold text? String.fromUTF8?
    constructor
    · intro h
      obtain ⟨s, hs, hcs⟩ := Option.map_eq_some_iff.1 h
      split at hs
      case isTrue hvalid =>
        cases hs
        exact ⟨_, rfl, hcs⟩
      case isFalse => cases hs
    · rintro ⟨s, hs, rfl⟩
      rw [dif_pos (hs ▸ s.isValidUTF8)]
      exact congrArg (fun t => some (String.toList t)) (String.toByteArray_inj.1 hs.symm)
  rw [hiff]
  constructor
  · rintro ⟨s, hs, rfl⟩
    exact toByteArray_injective (hs.symm.trans (toByteArray_bytes s).symm)
  · rintro rfl
    exact ⟨String.ofList cs, String.toByteArray_ofList, String.toList_ofList⟩

lemma prefixFree : PrefixFree String.utf8EncodeChar := by
  let reader (bs : List UInt8) : Option (Char × List UInt8) :=
    (bs.toByteArray.utf8DecodeChar? 0).map fun c => (c, bs.drop (String.utf8EncodeChar c).length)
  refine PrefixFree.of_reader (r := reader) ?_
  intro c t
  have hdecode : (String.utf8EncodeChar c ++ t).toByteArray.utf8DecodeChar? 0 = some c := by
    rw [List.toByteArray_append]
    exact ByteArray.utf8DecodeChar?_utf8EncodeChar_append
  simp only [reader, hdecode, Option.map_some, List.drop_left]

lemma prefix_of_bytes {cs ds : List Char} {bs : List UInt8} (h : bytes cs ++ bs = bytes ds) :
    ∃ es, ds = cs ++ es ∧ bs = bytes es :=
  prefixFree.prefix_of_flatMap (fun _ => String.utf8EncodeChar_ne_nil) h

lemma bytes_injective : Function.Injective bytes := by
  intro cs ds h
  obtain ⟨es, rfl, hes⟩ := @prefix_of_bytes _ _ [] ((List.append_nil _).trans h)
  cases es with
  | nil => exact (List.append_nil cs).symm
  | cons e es =>
    exact absurd (List.append_eq_nil_iff.1 hes.symm).1 String.utf8EncodeChar_ne_nil

lemma newline_mem_utf8EncodeChar {c : Char} (h : (10 : UInt8) ∈ String.utf8EncodeChar c) :
    c = '\n' := by
  have hval : c.val.toNat = 10 := by
    simp only [String.utf8EncodeChar] at h
    -- the bytes of a longer encoding all have their highest bit set
    split_ifs at h <;>
      simp only [List.mem_cons, List.not_mem_nil, or_false, ← UInt8.toNat_inj, UInt8.toNat_ofNat',
        UInt8.reduceToNat] at h <;>
      omega
  exact Char.ext (UInt32.toNat_inj.1 hval)

lemma newline_not_mem {cs : List Char} (h : '\n' ∉ cs) : (10 : UInt8) ∉ bytes cs := by
  intro hmem
  obtain ⟨c, hc, hbyte⟩ := List.mem_flatMap.1 hmem
  exact h (newline_mem_utf8EncodeChar hbyte ▸ hc)

end Utf8
