import Mathlib.Algebra.Group.Hom.Basic
import Mathlib.Data.List.Lex
import V2xw.Scms.Kernel

/-!
# Butterfly keys and linkage values

`crates/v2xw-sec/src/{butterfly,linkage}.rs`: the key expansion by which a device, the Registration
Authority and the Pseudonym Certificate Authority derive one signing key between them, and the
linkage values by which two Linkage Authorities make a device's certificates recognisable from a
period on. The curve, the hash, the block cipher and the random streams come from other crates;
they are the fields of `Crypto`.

## Main definitions

* `Crypto` — the primitives the protocol rests on.
* `Caterpillar` — a device's request material and the keys derived from it.
* `CrlLinkageEntry` — an entry of a revocation list and the certificates it matches.
-/

namespace V2xw.Scms

/-- A byte string. -/
abbrev Bytes := List UInt8

instance transCmp_bytes : Std.TransCmp (@compare Bytes LinearOrder.toOrd) := OrdMap.transCmp

instance transCmp_numbered : Std.TransCmp (@compare (ℕ ×ₗ Bytes) LinearOrder.toOrd) := inferInstance

/-- The last `k` bytes of a number, most significant first. -/
def beBytes (k n : ℕ) : Bytes :=
  (List.range k).map fun m => UInt8.ofNat (n >>> (8 * (k - 1 - m)))

/-- The primitives of the other crates: scalars `S`, points `P`, hashing, encryption and the
keystreams the random registry hands out per node. -/
structure Crypto (S P : Type) [AddCommGroup S] [AddCommGroup P] where
  /-- A scalar times the generator. -/
  mulBase : S →+ P
  /-- A big-endian byte string as a scalar, reduced modulo the group order. -/
  scalarFromBeModN : Bytes → S
  /-- Half a seed as a non-zero scalar. -/
  scalarFromSeedHalf : Bytes → S
  /-- The compressed encoding of a point other than the identity. -/
  compressed : P → Option Bytes
  sha256 : Bytes → Bytes
  /-- AES-128 of a block under a key, xored with the block. -/
  daviesMeyer : Bytes → Bytes → Bytes
  /-- The byte of a node's keystream at a position, under a master seed. -/
  keystream : ℕ → NodeId → ℕ → UInt8

variable {S P : Type} [AddCommGroup S] [AddCommGroup P]

/-! ## Random streams -/

/-- The random registry: how much of each node's keystream has been used. -/
structure RngRegistry where
  masterSeed : ℕ
  position : OrdMap NodeId ℕ

/-- The next `n` bytes of a node's keystream. -/
def RngRegistry.fillBytes (c : Crypto S P) (g : RngRegistry) (node : NodeId) (n : ℕ) :
    Bytes × RngRegistry :=
  let start := g.position[node]?.getD 0
  ((List.range n).map fun m => c.keystream g.masterSeed node (start + m),
    { g with position := g.position.insert node (start + n) })

/-! ## Butterfly keys -/

/-- The input block of the expansion functions: a prefix, the period and the index. -/
def xBlock (prefixOne : Bool) (i j : ℕ) : ℕ :=
  (if prefixOne then 0xffffffff * 2 ^ 96 else 0) + wrap32 i * 2 ^ 64 + wrap32 j * 2 ^ 32

/-- Three encrypted blocks, reduced modulo the group order. -/
def expand (c : Crypto S P) (key : Bytes) (x : ℕ) : S :=
  c.scalarFromBeModN
    ([1, 2, 3].flatMap fun m => c.daviesMeyer key (beBytes 16 ((x + m) % 2 ^ 128)))

/-- The expansion value of signing keys. -/
def f1 (c : Crypto S P) (ck : Bytes) (i j : ℕ) : S := expand c ck (xBlock false i j)

/-- The expansion value of encryption keys. -/
def f2 (c : Crypto S P) (ek : Bytes) (i j : ℕ) : S := expand c ek (xBlock true i j)

/-- Bytes of seed a caterpillar needs. -/
def seedBytes : ℕ := 64

/-- A device's butterfly request material. -/
structure Caterpillar (S : Type) where
  a : S
  p : S
  ck : Bytes
  ek : Bytes

namespace Caterpillar

/-- The caterpillar of a seed. -/
def fromSeed (c : Crypto S P) (seed : Bytes) : Caterpillar S where
  a := c.scalarFromSeedHalf (seed.take 32)
  p := c.scalarFromSeedHalf ((seed.drop 32).take 32)
  ck := (c.sha256 ("ck".toUTF8.toList ++ seed)).take 16
  ek := (c.sha256 ("ek".toUTF8.toList ++ seed)).take 16

/-- The signing public key the device uploads. -/
def signingPublic (c : Crypto S P) (cat : Caterpillar S) : P := c.mulBase cat.a

/-- The encryption public key the device uploads. -/
def encryptionPublic (c : Crypto S P) (cat : Caterpillar S) : P := c.mulBase cat.p

/-- The signing private key for a period and an index, with the randomiser of the certificate. -/
def signingPrivate (c : Crypto S P) (cat : Caterpillar S) (i j : ℕ) (r : S) : S :=
  cat.a + f1 c cat.ck i j + r

end Caterpillar

/-- The Registration Authority's expansion step: the cocoon keys for signing and encryption. -/
def raCocoonKeys (c : Crypto S P) (signingPublic encryptionPublic : P) (ck ek : Bytes) (i j : ℕ) :
    P × P :=
  (signingPublic + c.mulBase (f1 c ck i j), encryptionPublic + c.mulBase (f2 c ek i j))

/-- The certifying step: the certified key and the point of the randomiser. -/
def pcaCertifyExplicit (c : Crypto S P) (cocoonSigning : P) (r : S) : P × P :=
  (cocoonSigning + c.mulBase r, c.mulBase r)

/-- Whether a derived private key matches a certified public key. -/
def derivedKeyMatches [DecidableEq P] (c : Crypto S P) (privateKey : S) (certifiedPublic : P) :
    Bool :=
  c.mulBase privateKey = certifiedPublic

/-! ## Linkage values -/

/-- The identifier of a Linkage Authority. -/
abbrev LaId := ℕ

/-- A linkage seed of a period. -/
abbrev LinkageSeed := Bytes

/-- One authority's share of a linkage value. -/
abbrev PreLinkageValue := Bytes

/-- The linkage value of a certificate. -/
abbrev LinkageValue := Bytes

/-- The seed of the next period. -/
def linkageSeedNext (c : Crypto S P) (laId : LaId) (lsPrev : LinkageSeed) : LinkageSeed :=
  (c.sha256 (beBytes 2 laId ++ lsPrev ++ List.replicate 14 0)).take 16

/-- The seed of period `i`, hashed forward from the initial one. -/
def linkageSeedAt (c : Crypto S P) (laId : LaId) (ls0 : LinkageSeed) : ℕ → LinkageSeed
  | 0 => ls0
  | i + 1 => linkageSeedNext c laId (linkageSeedAt c laId ls0 i)

lemma linkageSeedAt_add (c : Crypto S P) (laId : LaId) (ls0 : LinkageSeed) (i k : ℕ) :
    linkageSeedAt c laId ls0 (i + k) = linkageSeedAt c laId (linkageSeedAt c laId ls0 i) k := by
  induction k with
  | zero => rfl
  | succ k ih => rw [← Nat.add_assoc, linkageSeedAt, ih, linkageSeedAt]

/-- One authority's share for an index of the period of a seed. -/
def preLinkageValue (c : Crypto S P) (laId : LaId) (ls : LinkageSeed) (j : ℕ) : PreLinkageValue :=
  (c.daviesMeyer ls (beBytes 2 laId ++ beBytes 4 j ++ List.replicate 10 0)).take 9

/-- The two shares together. -/
def linkageValue (plv1 plv2 : PreLinkageValue) : LinkageValue := plv1.zipWith (· ^^^ ·) plv2

/-- An entry that revokes the certificates of two chains from a period on. -/
structure CrlLinkageEntry where
  i : ℕ
  laId1 : LaId
  laId2 : LaId
  /-- The first authority's seed at period `i`. -/
  ls1 : LinkageSeed
  /-- The second authority's seed at period `i`. -/
  ls2 : LinkageSeed
  jmax : ℕ
  /-- How many periods past `i` the chains are walked. -/
  maxForward : ℕ
  deriving DecidableEq

/-- How far forward an entry walks its chains. -/
def defaultMaxForwardPeriods : ℕ := 156

namespace CrlLinkageEntry

/-- The seeds in period `certI`, if the entry reaches that far. -/
def seedsAt (c : Crypto S P) (e : CrlLinkageEntry) (certI : ℕ) :
    Option (LinkageSeed × LinkageSeed) :=
  if certI < e.i then none
  else if e.maxForward < certI - e.i then none
  else some (linkageSeedAt c e.laId1 e.ls1 (certI - e.i),
    linkageSeedAt c e.laId2 e.ls2 (certI - e.i))

/-- Whether a certificate is revoked by the entry. -/
def matchesCert (c : Crypto S P) (e : CrlLinkageEntry) (certI certJ : ℕ) (certLv : LinkageValue) :
    Bool :=
  if e.jmax ≤ certJ then false
  else
    match e.seedsAt c certI with
    | none => false
    | some (ls1, ls2) =>
      linkageValue (preLinkageValue c e.laId1 ls1 certJ) (preLinkageValue c e.laId2 ls2 certJ) =
        certLv

end CrlLinkageEntry

end V2xw.Scms
