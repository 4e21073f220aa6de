import V2xw.Scms.Crypto
import V2xw.Sec.Ec

/-!
# Butterfly key expansion over bytes

`crates/v2xw-sec/src/{butterfly,aes128}.rs` down to the bytes: seeds, expansion blocks and the two
reductions. The curve is any commutative group with a homomorphism from the scalars, the block
cipher any function of a key and a block, the hash any function to 32 bytes.

## Main definitions

* `Primitives` — the curve, the cipher and the hash.
* `expand` — the expansion function `f`.
* `Caterpillar` — a device's request material.
* `Primitives.crypto` — these primitives as the ones the credential system's model runs on.

## Main results

* `butterfly_identity` — the keys a device derives are those certified for it.
* `cipherInput_injective` — no two expansions share an input of the cipher.
* `keys_refined` — the credential system's model computes the keys computed here.
-/

namespace V2xw.Sec

open Scms (Bytes beBytes)

/-- The curve, the block cipher and the hash. -/
structure Primitives (P : Type) [AddCommGroup P] where
  /-- A scalar times the generator. -/
  mulBase : Scalar →+ P
  /-- AES-128 of a block under a key. -/
  encryptBlock : U8Array 16 → U8Array 16 → U8Array 16
  sha256 : Bytes → U8Array 32

variable {P : Type} [AddCommGroup P]

/-- Numbers as big-endian bytes, and back. -/
lemma beNat_beBytes (k n : ℕ) : beNat (beBytes k n) = n % 256 ^ k := by
  induction k generalizing n with
  | zero => simp [beBytes, beNat, Nat.mod_one]
  | succ k ih =>
    have hsplit : beBytes (k + 1) n = beBytes k (n / 256) ++ [UInt8.ofNat n] := by
      simp only [beBytes, List.range_succ, List.map_append, List.map_singleton]
      congr 1
      · apply List.map_congr_left
        intro m hm
        have hlt := List.mem_range.mp hm
        rw [show 8 * (k + 1 - 1 - m) = 8 + 8 * (k - 1 - m) by omega, Nat.shiftRight_add,
          Nat.shiftRight_eq_div_pow n 8]
      · simp
    rw [hsplit, beNat, BigEndian.value_concat, ← beNat, ih, UInt8.toNat_ofNat', pow_succ' 256 k,
      Nat.mod_mul]
    omega

@[simp] lemma length_beBytes (k n : ℕ) : (beBytes k n).length = k := by
  simp [beBytes]

/-! ## The expansion function -/

/-- An AES-128 expansion key. -/
abbrev ExpansionKey := U8Array 16

/-- A block encrypted and xored with itself. -/
def daviesMeyer (prim : Primitives P) (key block : U8Array 16) : U8Array 16 :=
  ⟨(prim.encryptBlock key block).1.zipWith (· ^^^ ·) block.1, by
    rw [List.length_zipWith, (prim.encryptBlock key block).2, block.2, Nat.min_self]⟩

/-- The block `prefix ‖ i ‖ j ‖ 0`, 32 bits each. -/
def xBlock (prefixOne : Bool) (i j : UInt32) : U8Array 16 :=
  ⟨(if prefixOne then [0xff, 0xff, 0xff, 0xff] else [0, 0, 0, 0]) ++
    beBytes 4 i.toNat ++ beBytes 4 j.toNat ++ [0, 0, 0, 0], by
    cases prefixOne <;> simp⟩

/-- The cipher's input: the block plus `m`, wrapping over the whole 128 bits. -/
def cipherInput (x : U8Array 16) (m : ℕ) : U8Array 16 :=
  ⟨beBytes 16 ((beNat x.1 + m) % 2 ^ 128), length_beBytes _ _⟩

/-- The three compressed blocks of an expansion. -/
def wide (prim : Primitives P) (key : ExpansionKey) (x : U8Array 16) : U8Array 48 :=
  ⟨[1, 2, 3].flatMap fun m => (daviesMeyer prim key (cipherInput x m)).1, by
    simp [(daviesMeyer prim key _).2]⟩

/-- The three-block expansion, reduced modulo the group order. -/
def expand (prim : Primitives P) (key : ExpansionKey) (x : U8Array 16) : Scalar :=
  scalarFromBeModN (wide prim key x).1
    ⟨List.ne_nil_of_length_pos (by rw [(wide prim key x).2]; decide), by rw [(wide prim key x).2]⟩

/-- The signing-key expansion value. -/
def f1 (prim : Primitives P) (ck : ExpansionKey) (i j : UInt32) : Scalar :=
  expand prim ck (xBlock false i j)

/-- The encryption-key expansion value. -/
def f2 (prim : Primitives P) (ek : ExpansionKey) (i j : UInt32) : Scalar :=
  expand prim ek (xBlock true i j)

/-- A block as a number. -/
lemma beNat_xBlock (prefixOne : Bool) (i j : UInt32) :
    beNat (xBlock prefixOne i j).1 =
      (if prefixOne then 0xffffffff * 2 ^ 96 else 0) + i.toNat * 2 ^ 64 + j.toNat * 2 ^ 32 := by
  have hi : beNat (beBytes 4 i.toNat) = i.toNat := by
    rw [beNat_beBytes, Nat.mod_eq_of_lt (by simpa using UInt32.toNat_lt i)]
  have hj : beNat (beBytes 4 j.toNat) = j.toNat := by
    rw [beNat_beBytes, Nat.mod_eq_of_lt (by simpa using UInt32.toNat_lt j)]
  have hzero : beNat [0, 0, 0, 0] = 0 := by decide
  have hones : beNat [0xff, 0xff, 0xff, 0xff] = 0xffffffff := by decide
  show beNat (_ ++ beBytes 4 i.toNat ++ beBytes 4 j.toNat ++ [0, 0, 0, 0]) = _
  unfold beNat at hi hj hzero hones ⊢
  rw [BigEndian.value_append, BigEndian.value_append, BigEndian.value_append, hi, hj, hzero]
  simp only [length_beBytes, List.length_cons, List.length_nil]
  cases prefixOne
  · simp only [Bool.false_eq_true, if_false, hzero]
    omega
  · simp only [if_true, hones]
    omega

lemma beNat_cipherInput (prefixOne : Bool) (i j : UInt32) {m : ℕ} (hm : m ≤ 3) :
    beNat (cipherInput (xBlock prefixOne i j) m).1 = beNat (xBlock prefixOne i j).1 + m := by
  have hi := UInt32.toNat_lt i
  have hj := UInt32.toNat_lt j
  have hlt : beNat (xBlock prefixOne i j).1 + m < 2 ^ 128 := by
    rw [beNat_xBlock]
    split <;> omega
  show beNat (beBytes 16 _) = _
  rw [beNat_beBytes, Nat.mod_eq_of_lt hlt, Nat.mod_eq_of_lt (by simpa using hlt)]

/-- **Domain separation**: inputs of the cipher for different prefixes, periods, indices or blocks
differ, and none is the zero block.

**Proof sketch.** As a number an input is the sum of the prefix, the period, the index and the
block's number, each in its own 32 bits, and the block's number is positive. -/
theorem cipherInput_injective {p₁ p₂ : Bool} {i₁ i₂ j₁ j₂ : UInt32} {m₁ m₂ : ℕ}
    (h₁ : m₁ ∈ [1, 2, 3]) (h₂ : m₂ ∈ [1, 2, 3])
    (h : cipherInput (xBlock p₁ i₁ j₁) m₁ = cipherInput (xBlock p₂ i₂ j₂) m₂) :
    p₁ = p₂ ∧ i₁ = i₂ ∧ j₁ = j₂ ∧ m₁ = m₂ ∧ beNat (cipherInput (xBlock p₁ i₁ j₁) m₁).1 ≠ 0 := by
  have hm₁ : 1 ≤ m₁ ∧ m₁ ≤ 3 := by simp at h₁; omega
  have hm₂ : 1 ≤ m₂ ∧ m₂ ≤ 3 := by simp at h₂; omega
  have hnat : beNat (xBlock p₁ i₁ j₁).1 + m₁ = beNat (xBlock p₂ i₂ j₂).1 + m₂ := by
    rw [← beNat_cipherInput _ _ _ hm₁.2, h, beNat_cipherInput _ _ _ hm₂.2]
  have hi₁ := UInt32.toNat_lt i₁
  have hi₂ := UInt32.toNat_lt i₂
  have hj₁ := UInt32.toNat_lt j₁
  have hj₂ := UInt32.toNat_lt j₂
  have hne : beNat (cipherInput (xBlock p₁ i₁ j₁) m₁).1 ≠ 0 := by
    rw [beNat_cipherInput _ _ _ hm₁.2]
    omega
  rw [beNat_xBlock, beNat_xBlock] at hnat
  have hp : p₁ = p₂ := by
    cases p₁ <;> cases p₂ <;> simp only [Bool.false_eq_true, if_true, if_false] at hnat ⊢ <;> omega
  subst hp
  have hi : i₁.toNat = i₂.toNat := by omega
  have hj : j₁.toNat = j₂.toNat := by omega
  exact ⟨rfl, UInt32.toNat_inj.mp hi, UInt32.toNat_inj.mp hj, by omega, hne⟩

theorem cipherInput_injective_zeros : beNat (cipherInput (xBlock false 0 0) 1).1 ≠ 0 :=
  (cipherInput_injective (by decide) (by decide) rfl).2.2.2.2

/-! ## Caterpillars -/

/-- Bytes of seed a caterpillar needs. -/
def seedBytes : ℕ := 64

/-- A device's butterfly request material. -/
structure Caterpillar where
  a : Scalar
  p : Scalar
  ck : ExpansionKey
  ek : ExpansionKey
  deriving DecidableEq

/-- Half a seed modulo `n - 1`, plus one. -/
def scalarFromSeedHalf (half : U8Array 32) : Except SecError Scalar :=
  (scalarFromBe32 (reduceModNMinus1 half)).map (· + 1)

lemma scalarFromSeedHalf_eq (half : U8Array 32) :
    scalarFromSeedHalf half = .ok ((beNat half.1 % (groupOrder - 1) + 1 : ℕ) : Scalar) := by
  have hlt : beNat half.1 % (groupOrder - 1) < groupOrder - 1 := Nat.mod_lt _ (by decide)
  rw [scalarFromSeedHalf, scalarFromBe32_of_lt (by rw [beNat_reduceModNMinus1]; omega),
    beNat_reduceModNMinus1, Nat.cast_add, Nat.cast_one]
  rfl

lemma val_succ_mod (x : ℕ) :
    ((x % (groupOrder - 1) + 1 : ℕ) : Scalar).val ∈ Set.Icc 1 (groupOrder - 1) := by
  have hlt : x % (groupOrder - 1) < groupOrder - 1 := Nat.mod_lt _ (by decide)
  rw [ZMod.val_cast_of_lt (by omega)]
  exact ⟨by omega, by omega⟩

/-- The first 16 bytes of the hash of a label and a seed. -/
def expansionKey (prim : Primitives P) (label : Bytes) (seed : Bytes) : ExpansionKey :=
  ⟨(prim.sha256 (label ++ seed)).1.take 16, by rw [List.length_take, (prim.sha256 _).2]; rfl⟩

namespace Caterpillar

/-- The caterpillar of a seed of at least 64 bytes. -/
def fromSeed (prim : Primitives P) (seed : Bytes) : Except SecError Caterpillar :=
  if h : seed.length < seedBytes then
    .error (.badLength "butterfly caterpillar seed" seedBytes seed.length)
  else do
    let a ← scalarFromSeedHalf ⟨seed.take 32, by
      simp only [seedBytes] at h; rw [List.length_take]; omega⟩
    let p ← scalarFromSeedHalf ⟨(seed.drop 32).take 32, by
      simp only [seedBytes] at h; rw [List.length_take, List.length_drop]; omega⟩
    return {
      a, p
      ck := expansionKey prim "ck".toUTF8.toList seed
      ek := expansionKey prim "ek".toUTF8.toList seed }

/-- The signing public key the device uploads. -/
def signingPublic (prim : Primitives P) (cat : Caterpillar) : P := prim.mulBase cat.a

/-- The encryption public key the device uploads. -/
def encryptionPublic (prim : Primitives P) (cat : Caterpillar) : P := prim.mulBase cat.p

/-- The signing private key for a period and an index, with the randomiser of the certificate. -/
def signingPrivate (prim : Primitives P) (cat : Caterpillar) (i j : UInt32) (c : Scalar) : Scalar :=
  cat.a + f1 prim cat.ck i j + c

/-- The cocoon encryption private key for a period and an index. -/
def encryptionPrivate (prim : Primitives P) (cat : Caterpillar) (i j : UInt32) : Scalar :=
  cat.p + f2 prim cat.ek i j

lemma fromSeed_eq (prim : Primitives P) {seed : Bytes} (h : 64 ≤ seed.length) :
    fromSeed prim seed = .ok {
      a := ((beNat (seed.take 32) % (groupOrder - 1) + 1 : ℕ) : Scalar)
      p := ((beNat ((seed.drop 32).take 32) % (groupOrder - 1) + 1 : ℕ) : Scalar)
      ck := expansionKey prim "ck".toUTF8.toList seed
      ek := expansionKey prim "ek".toUTF8.toList seed } := by
  rw [fromSeed, dif_neg (Nat.not_lt.mpr (show seedBytes ≤ seed.length from h)),
    scalarFromSeedHalf_eq, scalarFromSeedHalf_eq]
  rfl

end Caterpillar

/-- The Registration Authority's expansion step: the cocoon keys for signing and encryption. -/
def raCocoonKeys (prim : Primitives P) (signingPublic encryptionPublic : P)
    (ck ek : ExpansionKey) (i j : UInt32) : P × P :=
  (signingPublic + prim.mulBase (f1 prim ck i j), encryptionPublic + prim.mulBase (f2 prim ek i j))

/-- The certifying step: the certified key and the point of the randomiser. -/
def pcaCertifyExplicit (prim : Primitives P) (cocoonSigning : P) (c : Scalar) : P × P :=
  (cocoonSigning + prim.mulBase c, prim.mulBase c)

/-- The randomiser of a certificate, from 32 bytes. -/
def secretRandomiser (be32 : U8Array 32) : Except SecError Scalar :=
  match scalarFromBe32 be32 with
  | .ok c => .ok c
  | .error _ => .error (.crypto "butterfly PCA randomiser" .ecqvP256
      "c must be a scalar below the P-256 group order")

/-- What a device uploads: its public keys and the expansion keys. -/
structure Upload (P : Type) where
  signingPublic : P
  encryptionPublic : P
  ck : ExpansionKey
  ek : ExpansionKey

/-- The upload of a caterpillar. -/
def Caterpillar.upload (prim : Primitives P) (cat : Caterpillar) : Upload P :=
  ⟨cat.signingPublic prim, cat.encryptionPublic prim, cat.ck, cat.ek⟩

/-- The cocoon keys computed from an upload. -/
def Upload.cocoonKeys (prim : Primitives P) (u : Upload P) (i j : UInt32) : P × P :=
  raCocoonKeys prim u.signingPublic u.encryptionPublic u.ck u.ek i j

lemma mulBase_signingPrivate (prim : Primitives P) {cat : Caterpillar} {u : Upload P}
    (hu : cat.upload prim = u) (i j : UInt32) (c : Scalar) :
    prim.mulBase (cat.signingPrivate prim i j c) =
      (pcaCertifyExplicit prim (u.cocoonKeys prim i j).1 c).1 := by
  subst hu
  show prim.mulBase (cat.a + f1 prim cat.ck i j + c) = _
  rw [map_add, map_add]
  rfl

lemma mulBase_encryptionPrivate (prim : Primitives P) {cat : Caterpillar} {u : Upload P}
    (hu : cat.upload prim = u) (i j : UInt32) :
    prim.mulBase (cat.encryptionPrivate prim i j) = (u.cocoonKeys prim i j).2 := by
  subst hu
  show prim.mulBase (cat.p + f2 prim cat.ek i j) = _
  rw [map_add]
  rfl

/-- **The butterfly identity.** A seed of at least 64 bytes has a caterpillar, with both scalars in
`1..n-1`. From its upload alone the Registration Authority computes cocoon keys, and for whoever
owns a caterpillar with that upload, for every period, index and randomiser, the derived signing
key is the private key of what is certified and the derived encryption key that of the cocoon
encryption key.

**Proof sketch.** The halves of the seed are reduced modulo `n - 1` and increased by one. The
generator's multiples turn the sums of scalars into the sums of points. -/
theorem butterfly_identity (prim : Primitives P) (seed : Bytes) (hseed : 64 ≤ seed.length) :
    ∃ cat, Caterpillar.fromSeed prim seed = .ok cat ∧
      cat.a.val ∈ Set.Icc 1 (groupOrder - 1) ∧ cat.p.val ∈ Set.Icc 1 (groupOrder - 1) ∧
      ∀ owner : Caterpillar, owner.upload prim = cat.upload prim →
        ∀ (i j : UInt32) (c : Scalar),
          prim.mulBase (owner.signingPrivate prim i j c) =
            (pcaCertifyExplicit prim ((cat.upload prim).cocoonKeys prim i j).1 c).1 ∧
          prim.mulBase (owner.encryptionPrivate prim i j) =
            ((cat.upload prim).cocoonKeys prim i j).2 := by
  refine ⟨_, Caterpillar.fromSeed_eq prim hseed, val_succ_mod _, val_succ_mod _, ?_⟩
  intro owner howner i j c
  exact ⟨mulBase_signingPrivate prim howner i j c, mulBase_encryptionPrivate prim howner i j⟩

/-- The identity at the seed of 64 zero bytes, over the scalars themselves as the group. -/
theorem butterfly_identity_zeros :
    let prim : Primitives Scalar :=
      ⟨AddMonoidHom.id Scalar, fun _ block => block, fun _ => nBe⟩
    ∃ cat, Caterpillar.fromSeed prim (List.replicate 64 0) = .ok cat ∧
      cat.a.val ∈ Set.Icc 1 (groupOrder - 1) ∧ cat.p.val ∈ Set.Icc 1 (groupOrder - 1) ∧
      ∀ owner : Caterpillar, owner.upload prim = cat.upload prim →
        ∀ (i j : UInt32) (c : Scalar),
          prim.mulBase (owner.signingPrivate prim i j c) =
            (pcaCertifyExplicit prim ((cat.upload prim).cocoonKeys prim i j).1 c).1 ∧
          prim.mulBase (owner.encryptionPrivate prim i j) =
            ((cat.upload prim).cocoonKeys prim i j).2 :=
  butterfly_identity _ (List.replicate 64 0) (by decide)

/-! ## The credential system's keys -/

/-- A byte string as an array of the length asked for, zeros if it has another. -/
def arrayOf (k : ℕ) (bytes : Bytes) : U8Array k :=
  if h : bytes.length = k then ⟨bytes, h⟩ else ⟨List.replicate k 0, List.length_replicate⟩

@[simp] lemma arrayOf_val {k : ℕ} (x : U8Array k) : arrayOf k x.1 = x := dif_pos x.2

/-- These primitives as those of the credential system. The encoding of points and the random
streams play no part in the keys. -/
def Primitives.crypto (prim : Primitives P) (compressed : P → Option Bytes)
    (keystream : ℕ → Scms.NodeId → ℕ → UInt8) : Scms.Crypto Scalar P where
  mulBase := prim.mulBase
  scalarFromBeModN bytes :=
    if h : bytes ≠ [] ∧ bytes.length % 16 = 0 then scalarFromBeModN bytes h else 0
  scalarFromSeedHalf half := ((scalarFromSeedHalf (arrayOf 32 half)).toOption).getD 0
  compressed := compressed
  sha256 bytes := (prim.sha256 bytes).1
  daviesMeyer key block := (daviesMeyer prim (arrayOf 16 key) (arrayOf 16 block)).1
  keystream := keystream

/-- The material of a caterpillar as the credential system holds it. -/
def Caterpillar.material (cat : Caterpillar) : Scms.Caterpillar Scalar :=
  ⟨cat.a, cat.p, cat.ck.1, cat.ek.1⟩

section Crypto

variable (prim : Primitives P) (compressed : P → Option Bytes)
  (keystream : ℕ → Scms.NodeId → ℕ → UInt8)

/-- The credential system expands a block as the bytes do. -/
lemma expand_crypto (key : ExpansionKey) (prefixOne : Bool) (i j : UInt32) :
    Scms.expand (prim.crypto compressed keystream) key.1 (Scms.xBlock prefixOne i.toNat j.toNat) =
      expand prim key (xBlock prefixOne i j) := by
  have hx : Scms.xBlock prefixOne i.toNat j.toNat = beNat (xBlock prefixOne i j).1 := by
    rw [beNat_xBlock, Scms.xBlock, Scms.wrap32, Scms.wrap32, Nat.mod_eq_of_lt (UInt32.toNat_lt i),
      Nat.mod_eq_of_lt (UInt32.toNat_lt j)]
  have hwide : ([1, 2, 3].flatMap fun m => (prim.crypto compressed keystream).daviesMeyer key.1
      (beBytes 16 ((Scms.xBlock prefixOne i.toNat j.toNat + m) % 2 ^ 128))) =
      (wide prim key (xBlock prefixOne i j)).1 := by
    have hblock (m : ℕ) : (prim.crypto compressed keystream).daviesMeyer key.1
        (beBytes 16 ((Scms.xBlock prefixOne i.toNat j.toNat + m) % 2 ^ 128)) =
        (daviesMeyer prim key (cipherInput (xBlock prefixOne i j) m)).1 := by
      show (daviesMeyer prim (arrayOf 16 key.1) (arrayOf 16 _)).1 = _
      rw [hx, arrayOf_val, ← arrayOf_val (cipherInput (xBlock prefixOne i j) m)]
      rfl
    simp only [hblock]
    rfl
  rw [Scms.expand, hwide, expand]
  exact dif_pos _

lemma raCocoonKeys_crypto (u : Upload P) (i j : UInt32) :
    Scms.raCocoonKeys (prim.crypto compressed keystream) u.signingPublic u.encryptionPublic u.ck.1
      u.ek.1 i.toNat j.toNat = u.cocoonKeys prim i j := by
  rw [Scms.raCocoonKeys, Scms.f1, Scms.f2, expand_crypto, expand_crypto]
  rfl

lemma signingPrivate_crypto (cat : Caterpillar) (i j : UInt32) (c : Scalar) :
    cat.material.signingPrivate (prim.crypto compressed keystream) i.toNat j.toNat c =
      cat.signingPrivate prim i j c := by
  rw [Scms.Caterpillar.signingPrivate, Scms.f1, Caterpillar.material, expand_crypto]
  rfl

/-- The credential system draws the caterpillar drawn here. -/
lemma fromSeed_crypto {seed : Bytes} {cat : Caterpillar}
    (h : Caterpillar.fromSeed prim seed = .ok cat) :
    Scms.Caterpillar.fromSeed (prim.crypto compressed keystream) seed = cat.material := by
  have hlen : 64 ≤ seed.length := by
    by_contra hshort
    rw [Caterpillar.fromSeed, dif_pos (show seed.length < seedBytes from Nat.not_le.mp hshort)] at h
    exact nomatch h
  have hhalf {half : Bytes} (hh : half.length = 32) :
      (prim.crypto compressed keystream).scalarFromSeedHalf half =
        ((beNat half % (groupOrder - 1) + 1 : ℕ) : Scalar) := by
    show ((scalarFromSeedHalf (arrayOf 32 half)).toOption).getD 0 = _
    rw [arrayOf, dif_pos hh, scalarFromSeedHalf_eq]
    rfl
  rw [Caterpillar.fromSeed_eq prim hlen] at h
  obtain rfl := Except.ok.inj h
  rw [Scms.Caterpillar.fromSeed, hhalf (by rw [List.length_take]; omega),
    hhalf (by rw [List.length_take, List.length_drop]; omega)]
  rfl

end Crypto

end V2xw.Sec
