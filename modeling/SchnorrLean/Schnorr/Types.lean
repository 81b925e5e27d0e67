import SchnorrLean.Curve.Generator
import SchnorrLean.Curve.Octets
import SchnorrLean.Hash.SHA256

/-!
# Keys, signatures and the checks shared by signing and verification

{lit}`Schnorr.h` declares the key and signature classes as holders of
OpenSSL objects: a {lit}`PrivKey` holds the scalar {lit}`m_d`, a
{lit}`PubKey` the point {lit}`m_P`, a {lit}`Signature` the two scalars
{lit}`m_r` and {lit}`m_s`.  Their constructors are not in the sources; the
specification (section 3) says a private key lies in `[1, n − 1]`, which is
kept as a field of {lit}`PrivKey`.  A public key is any curve point, the
point at infinity included, since neither {lit}`Sign` nor {lit}`Verify`
checks more, and a signature any pair of integers.

Both {lit}`Schnorr::Sign` and {lit}`Schnorr::Verify` begin with the same two
checks on the message window.  The sum `offset + size` is computed in
{lit}`unsigned int`, so it wraps modulo `2 ^ 32`, and a window that passes
them can still leave the message.  Both then hash the same string and reduce
its digest with {lit}`BN_nnmod`; a call ends in a return, a crash in
{lit}`BN_nnmod`, or a read past the end of the message ({lit}`Outcome`).

Main results:

- {lit}`inputChecks_eq_true_iff`: the checks pass exactly for a nonempty
  message whose length is at least `(offset + size) mod 2 ^ 32`;
- {lit}`inputChecks_wraps`: at `offset = 2 ^ 32 − 1, size = 1` they pass on a
  one-byte message, although the window lies outside it.
-/

namespace LibSchnorr

open Secp256k1

/-- A private key: the scalar {lit}`m_d`, in `[1, n − 1]`. -/
structure PrivKey where
  d : Int
  range : 1 ≤ d ∧ d < groupOrder

/-- A public key: the point {lit}`m_P`. -/
structure PubKey where
  P : ECPoint
  onCurve : P.OnCurve

/-- A signature: the challenge {lit}`m_r` and the response {lit}`m_s`. -/
@[ext] structure Signature where
  r : Int
  s : Int
deriving DecidableEq, Repr

/-- What one call of {lit}`BN_generate_dsa_nonce` yields: failure, or a value
in `[0, n)`. -/
abbrev NonceDraw : Type := Option (Fin groupOrder)

/-- How a call of {lit}`Sign` or {lit}`Verify` ends. -/
inductive Outcome where
  /-- It returns `ok`. -/
  | returned (ok : Bool)
  /-- {lit}`BN_nnmod` with a null context crashes the process. -/
  | crashed
  /-- {lit}`SHA2::Update` reads past the end of the message. -/
  | readOutOfBounds
deriving DecidableEq, Repr

/-- Every point other than infinity has a compressed encoding of
{lit}`PUBKEY_COMPRESSED_SIZE_BYTES = 33` bytes. -/
theorem length_point2oct_of_ne_infinity {P : ECPoint} (h : P ≠ .infinity) :
    (point2oct .compressed P).length = 33 := by
  obtain _ | ⟨x, y⟩ := P
  · exact absurd rfl h
  · exact length_point2oct_compressed x y

/-- The initial checks of {lit}`Schnorr::Sign` and {lit}`Schnorr::Verify`: the
message is not empty, and {lit}`message.size() < (offset + size)` fails, the
sum taken in {lit}`unsigned int`. -/
def inputChecks (message : Bytes) (offset size : UInt32) : Bool :=
  message.length != 0 && !decide (message.length < (offset + size).toNat)

/-- The digest `H(enc(Q) ‖ enc(P) ‖ m[offset, offset + size))` as a number:
what {lit}`Sign` and {lit}`Verify` pass to {lit}`BN_nnmod`, hashing the
compressed encodings and the message window. -/
def challengeDigest (Q P : ECPoint) (message : Bytes) (offset size : UInt32) : Nat :=
  bin2bn (sha256 (point2oct .compressed Q ++ point2oct .compressed P ++
    window message offset.toNat size.toNat))

/-- The challenge `H(enc(Q) ‖ enc(P) ‖ m[offset, offset + size)) mod n`. -/
def challenge (Q P : ECPoint) (message : Bytes) (offset size : UInt32) : Int :=
  (challengeDigest Q P message offset size : Int) % groupOrder

/-- Addition in {lit}`unsigned int` wraps modulo `2 ^ 32`. -/
theorem toNat_add_uint32 (a b : UInt32) : (a + b).toNat = (a.toNat + b.toNat) % 2 ^ 32 := rfl

/-- The checks pass exactly on a nonempty message at least as long as the
wrapped sum `offset + size`. -/
theorem inputChecks_eq_true_iff {message : Bytes} {offset size : UInt32} :
    inputChecks message offset size = true ↔
      message ≠ [] ∧ (offset.toNat + size.toNat) % 2 ^ 32 ≤ message.length := by
  simp [inputChecks, toNat_add_uint32, List.length_eq_zero]

/-- Without wrapping, the checks pass exactly on windows inside a nonempty
message. -/
theorem inputChecks_of_le {message : Bytes} {offset size : UInt32} (hm : message ≠ [])
    (h : offset.toNat + size.toNat ≤ message.length) : inputChecks message offset size = true := by
  refine inputChecks_eq_true_iff.mpr ⟨hm, le_trans (Nat.mod_le _ _) h⟩

/-- When `offset + size` does not wrap, passing the checks puts the window
inside the message. -/
theorem le_of_inputChecks {message : Bytes} {offset size : UInt32}
    (h : inputChecks message offset size = true) (hnw : offset.toNat + size.toNat < 2 ^ 32) :
    offset.toNat + size.toNat ≤ message.length := by
  have h' := (inputChecks_eq_true_iff.mp h).2
  rwa [Nat.mod_eq_of_lt hnw] at h'

/-- The sum `offset + size` wraps: the checks pass on a one-byte message for a
window that starts at its last possible offset. -/
theorem inputChecks_wraps :
    inputChecks [0] 0xFFFFFFFF 1 = true ∧ [(0 : UInt8)].length < (0xFFFFFFFF : UInt32).toNat + 1 := by
  decide

/-- On a window inside the message, the hash object {lit}`Sign` and
{lit}`Verify` fill holds the encodings of their two points and the window,
and its digest is their challenge digest. -/
theorem updateWindow_challengeDigest (Q P : ECPoint) {message : Bytes} {offset size : UInt32}
    (hfit : offset.toNat + size.toNat ≤ message.length) :
    ((SHA2.init.update (point2oct .compressed Q)).update (point2oct .compressed P)).updateWindow
        message offset.toNat size.toNat =
      some ⟨point2oct .compressed Q ++ point2oct .compressed P ++
        window message offset.toNat size.toNat⟩ ∧
      bin2bn (SHA2.finalize ⟨point2oct .compressed Q ++ point2oct .compressed P ++
        window message offset.toNat size.toNat⟩) = challengeDigest Q P message offset size :=
  ⟨SHA2.updateWindow_of_le _ hfit, rfl⟩

/-- A digest {lit}`BN_nnmod` returns is the challenge itself. -/
theorem challenge_eq_of_nnmod {lib : OpenSSL} {Q P : ECPoint} {message : Bytes}
    {offset size : UInt32} {r : Nat}
    (h : nnmod lib (challengeDigest Q P message offset size) groupOrder = some r) :
    challenge Q P message offset size = r := by
  obtain ⟨-, hlt, rfl⟩ := nnmod_eq_some_iff.mp h
  rw [challenge, Int.emod_eq_of_lt (Int.natCast_nonneg _) (by exact_mod_cast hlt)]

/-- A nonnegative `r` is the challenge of a digest below `n` exactly when it is
the digest. -/
theorem toNat_eq_iff_eq_challenge {r : Int} (hr : 0 ≤ r) {Q P : ECPoint} {message : Bytes}
    {offset size : UInt32} (hD : challengeDigest Q P message offset size < groupOrder) :
    r.toNat = challengeDigest Q P message offset size ↔
      r = challenge Q P message offset size := by
  rw [challenge, Int.emod_eq_of_lt (Int.natCast_nonneg _) (by exact_mod_cast hD)]
  omega

/-- The challenge lies in `[0, n)`. -/
theorem challenge_nonneg (Q P : ECPoint) (message : Bytes) (offset size : UInt32) :
    0 ≤ challenge Q P message offset size :=
  Int.emod_nonneg _ (by exact_mod_cast groupOrder_pos.ne')

theorem challenge_lt (Q P : ECPoint) (message : Bytes) (offset size : UInt32) :
    challenge Q P message offset size < groupOrder :=
  Int.emod_lt_of_pos _ (by exact_mod_cast groupOrder_pos)

/-! ## The whole-message overloads

The overloads {lit}`Sign(message, privkey, pubkey, result)` and
{lit}`Verify(message, toverify, pubkey)` pass the offset `0` and
{lit}`message.size()` on.  The {lit}`size_t` length becomes the
{lit}`unsigned int` parameter {lit}`size`, so it is taken modulo `2 ^ 32`. -/

/-- The window of the overloads is the first `|m| mod 2 ^ 32` bytes of the message. -/
theorem window_whole (message : Bytes) :
    window message (0 : UInt32).toNat (UInt32.ofNat message.length).toNat =
      message.take (message.length % 2 ^ 32) := rfl

/-- The window of the overloads lies inside the message. -/
theorem fits_whole (message : Bytes) :
    (0 : UInt32).toNat + (UInt32.ofNat message.length).toNat ≤ message.length := by
  show 0 + message.length % 2 ^ 32 ≤ message.length
  omega

/-- The overloads pass the initial checks on every nonempty message. -/
theorem inputChecks_whole {message : Bytes} (hm : message ≠ []) :
    inputChecks message 0 (UInt32.ofNat message.length) = true :=
  inputChecks_of_le hm (fits_whole message)

/-- Messages that agree on the bytes the overloads hash have the same digest. -/
theorem challengeDigest_whole_congr {message message' : Bytes}
    (h : message.take (message.length % 2 ^ 32) = message'.take (message'.length % 2 ^ 32))
    (Q P : ECPoint) :
    challengeDigest Q P message 0 (UInt32.ofNat message.length) =
      challengeDigest Q P message' 0 (UInt32.ofNat message'.length) := by
  rw [challengeDigest, challengeDigest, window_whole, window_whole, h]

end LibSchnorr
