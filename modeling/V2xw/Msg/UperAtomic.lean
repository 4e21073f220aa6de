import V2xw.Lib.Atomic
import V2xw.Msg.UperRoundTrip

/-!
# Refused fields

Whether a write that is refused leaves the writer as it was. Every primitive checks its value
before it writes the first bit, and what it writes behind another primitive cannot be refused. The
extensible bit string is the exception: its extension bit is out before the bit string behind it is
checked.

## Main definitions

* `Prim.Overhangs` — the values of an extensible bit string that its root cannot hold.

## Main results

* `Prim.cleanAt_write` — refused fields leave nothing behind, but for these.
-/

namespace V2xw.Msg

open Stream Proc

lemma neverFails_writeExtensionBit (extensible : Bool) :
    NeverFails (writeExtensionBit extensible) := by
  unfold writeExtensionBit
  split_ifs
  · exact .modify _
  · exact .pure _

lemma cleanAt_writeLength (construct : String) (n : ℕ) (w : BitWriter) :
    CleanAt (writeLength construct n) w := by
  unfold writeLength
  split_ifs
  · exact (NeverFails.modify _).cleanAt w
  · exact ((NeverFails.modify _).bind fun _ => .modify _).cleanAt w
  · exact .throw _ w

lemma cleanAt_writeConstrainedInt (field : Field) (value min max : ℤ) (w : BitWriter) :
    CleanAt (writeConstrainedInt field value min max) w :=
  ((NeverFails.modify _).cleanAt w).guard

lemma cleanAt_writeConstrainedLength (field : Field) (n min max : ℕ) (w : BitWriter) :
    CleanAt (writeConstrainedLength field n min max) w :=
  cleanAt_writeConstrainedInt field (asI64 n) (asI64 min) (asI64 max) w

lemma cleanAt_writeEnumerated (field : Field) (index count : ℕ) (w : BitWriter) :
    CleanAt (writeEnumerated field index count) w :=
  ((NeverFails.modify _).cleanAt w).guard

lemma cleanAt_writeChoiceIndex (field : Field) (extensible : Bool) (index rootCount : ℕ)
    (w : BitWriter) : CleanAt (writeChoiceIndex field extensible index rootCount) w :=
  (((neverFails_writeExtensionBit extensible).bind fun _ => .modify _).cleanAt w).guard

lemma cleanAt_writeOpenType (construct : String) (inner : List UInt8) (w : BitWriter) :
    CleanAt (writeOpenType construct inner) w := by
  unfold writeOpenType
  split_ifs <;> exact (cleanAt_writeLength construct _ w).bind fun _ => .modify _

lemma cleanAt_writeFixedBitString (field : Field) (bits len : ℕ) (w : BitWriter) :
    CleanAt (writeFixedBitString field bits len) w :=
  ((NeverFails.modify _).cleanAt w).guard

lemma exec_writeExtensibleBitString (field : Field) {bits rootLen : ℕ} (hlen : rootLen < 64)
    (hbits : bits >>> rootLen ≠ 0) (w : BitWriter) :
    (writeExtensibleBitString field bits rootLen).exec w =
      (.error (.outOfRange field.path field.asn1Type (asI64 bits) 0 (asI64 (2 ^ rootLen - 1))),
        w.writeBit false) := by
  unfold writeExtensibleBitString
  rw [exec_bind_of_ok (exec_modify _ _), writeFixedBitString, if_pos ⟨hlen, hbits⟩]
  exact exec_throw _ _

lemma BitWriter.writeBit_ne (w : BitWriter) (bit : Bool) : w.writeBit bit ≠ w := by
  intro h
  have hbits : w.bits + 1 = w.bits := congrArg BitWriter.bits h
  omega

/-- The values that have bits above the size of the root. -/
def Prim.Overhangs : (p : Prim) → p.Written → Prop
  | .extensibleBitString _ _ rootLen => fun bits : ℕ => rootLen < 64 ∧ bits >>> rootLen ≠ 0
  | _ => fun _ => False

/-- **Refused fields.** A write that is refused leaves the bytes and the number of bits as they
were, unless it is an extensible bit string with a bit above its root. -/
theorem Prim.cleanAt_write (p : Prim) (value : p.Written) (w : BitWriter) :
    (∀ e w', (p.write value).exec w = (.error e, w') → w'.bytes = w.bytes ∧ w'.bits = w.bits) ↔
      ¬ p.Overhangs value := by
  have hstate (w' : BitWriter) : w'.bytes = w.bytes ∧ w'.bits = w.bits ↔ w' = w := by
    cases w
    cases w'
    simp
  simp only [hstate]
  change CleanAt (p.write value) w ↔ _
  cases p with
  | extensibleBitString field construct rootLen =>
    constructor
    · rintro hclean ⟨hlen, hbits⟩
      exact w.writeBit_ne false
        (hclean _ _ (exec_writeExtensibleBitString field hlen hbits w))
    · intro hfits
      refine (cleanAt_bind_iff (exec_modify _ _)).2 fun e w' h => ?_
      have hok : (writeFixedBitString field value rootLen).exec (w.writeBit false) =
          (.ok (), (w.writeBit false).writeBits value rootLen) := by
        unfold writeFixedBitString
        exact (congrArg (fun x : Write => x.exec _) (if_neg hfits)).trans (exec_modify _ _)
      rw [hok] at h
      cases h
  | bits width => exact iff_of_true ((NeverFails.modify _).cleanAt w) not_false
  | bool => exact iff_of_true ((NeverFails.modify _).cleanAt w) not_false
  | constrainedInt field min max =>
    exact iff_of_true (cleanAt_writeConstrainedInt field value min max w) not_false
  | constrainedLength field min max =>
    exact iff_of_true (cleanAt_writeConstrainedLength field value min max w) not_false
  | length construct => exact iff_of_true (cleanAt_writeLength construct _ w) not_false
  | enumerated field count =>
    exact iff_of_true (cleanAt_writeEnumerated field value count w) not_false
  | fixedBitString field len =>
    exact iff_of_true (cleanAt_writeFixedBitString field _ len w) not_false
  | fixedOctetString n => exact iff_of_true ((NeverFails.modify _).cleanAt w) not_false
  | preamble construct extensible optionals =>
    refine iff_of_true (NeverFails.cleanAt ?_ w) not_false
    exact (neverFails_writeExtensionBit extensible).bind fun _ => .forM (fun _ => .modify _) _
  | choiceIndex field construct extensible rootCount =>
    exact iff_of_true (cleanAt_writeChoiceIndex field extensible value rootCount w) not_false
  | openType construct => exact iff_of_true (cleanAt_writeOpenType construct value w) not_false

/-- Thirteen bits, of which the fourteenth is set: the refusal leaves an extension bit behind. -/
theorem extension_bit_left_behind :
    (writeExtensibleBitString ⟨"events", "VehicleEventFlags"⟩ (1 <<< 13) 13).exec BitWriter.new =
        (.error (.outOfRange "events" "VehicleEventFlags" 8192 0 8191), ⟨[0], 1⟩) ∧
      ¬ ∀ (p : Prim) (value : p.Written) (w : BitWriter) (e : UperError) (w' : BitWriter),
        (p.write value).exec w = (.error e, w') → w'.bytes = w.bytes ∧ w'.bits = w.bits := by
  have hrun : (writeExtensibleBitString ⟨"events", "VehicleEventFlags"⟩ (1 <<< 13) 13).exec
      BitWriter.new = (.error (.outOfRange "events" "VehicleEventFlags" 8192 0 8191), ⟨[0], 1⟩) := by
    decide +kernel
  refine ⟨hrun, fun h => ?_⟩
  have hbytes := (h (.extensibleBitString ⟨"events", "VehicleEventFlags"⟩ "" 13) (1 <<< 13)
    BitWriter.new _ _ hrun).2
  cases hbytes

end V2xw.Msg
