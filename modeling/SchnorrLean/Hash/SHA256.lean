import SchnorrLean.Bytes.BigEndian

/-!
# SHA-256 and the {lit}`SHA2` hashing object

The sources hash with {lit}`SHA2<HASH_TYPE::HASH_VARIANT_256>`, whose code
is not part of the repository; its interface (update with a buffer or with a
window of one, finalize to a digest, reset) is used by {lit}`Schnorr::Sign`
and {lit}`Schnorr::Verify`.  The digest is SHA-256 as FIPS 180-4 defines it,
written with 32-bit words as natural numbers reduced modulo `2 ^ 32`, every
loop structural so that digests of concrete inputs evaluate by {lit}`decide`.

The object is modelled by the bytes absorbed since the last reset: what the
signing proofs use is only that the digest is a function of that string.
{lit}`Update(input, offset, size)` copies `input[offset, offset + size)`; past
the end of the buffer the read has no defined result.

Main results:

- {lit}`pad_length_mod`: padding fills whole 64-byte blocks;
- {lit}`length_sha256`: every digest has 32 bytes;
- {lit}`SHA2.updateWindow_eq_some_iff`: updating with a window succeeds
  exactly on a window inside the buffer, and appends it; a window past the
  end is read out of range.
-/

namespace LibSchnorr
namespace SHA256

/-- Round constants (FIPS 180-4, section 4.2.2). -/
def K : List Nat := [
  0x428a2f98, 0x71374491, 0xb5c0fbcf, 0xe9b5dba5, 0x3956c25b, 0x59f111f1, 0x923f82a4, 0xab1c5ed5,
  0xd807aa98, 0x12835b01, 0x243185be, 0x550c7dc3, 0x72be5d74, 0x80deb1fe, 0x9bdc06a7, 0xc19bf174,
  0xe49b69c1, 0xefbe4786, 0x0fc19dc6, 0x240ca1cc, 0x2de92c6f, 0x4a7484aa, 0x5cb0a9dc, 0x76f988da,
  0x983e5152, 0xa831c66d, 0xb00327c8, 0xbf597fc7, 0xc6e00bf3, 0xd5a79147, 0x06ca6351, 0x14292967,
  0x27b70a85, 0x2e1b2138, 0x4d2c6dfc, 0x53380d13, 0x650a7354, 0x766a0abb, 0x81c2c92e, 0x92722c85,
  0xa2bfe8a1, 0xa81a664b, 0xc24b8b70, 0xc76c51a3, 0xd192e819, 0xd6990624, 0xf40e3585, 0x106aa070,
  0x19a4c116, 0x1e376c08, 0x2748774c, 0x34b0bcb5, 0x391c0cb3, 0x4ed8aa4a, 0x5b9cca4f, 0x682e6ff3,
  0x748f82ee, 0x78a5636f, 0x84c87814, 0x8cc70208, 0x90befffa, 0xa4506ceb, 0xbef9a3f7, 0xc67178f2]

/-- Initial hash value (FIPS 180-4, section 5.3.3). -/
def H0 : List Nat :=
  [0x6a09e667, 0xbb67ae85, 0x3c6ef372, 0xa54ff53a, 0x510e527f, 0x9b05688c, 0x1f83d9ab, 0x5be0cd19]

/-- The word size `2 ^ 32`. -/
def wordSize : Nat := 2 ^ 32

/-- Rotation of a 32-bit word to the right. -/
def rotr (x n : Nat) : Nat := (x >>> n) ||| ((x <<< (32 - n)) % wordSize)

/-- Bitwise complement of a 32-bit word. -/
def complement (x : Nat) : Nat := x ^^^ (wordSize - 1)

/-! ## Logical functions (FIPS 180-4, section 4.1.2) -/

def ch (e f g : Nat) : Nat := (e &&& f) ^^^ (complement e &&& g)
def maj (a b c : Nat) : Nat := (a &&& b) ^^^ (a &&& c) ^^^ (b &&& c)
def bigSigma0 (a : Nat) : Nat := rotr a 2 ^^^ rotr a 13 ^^^ rotr a 22
def bigSigma1 (e : Nat) : Nat := rotr e 6 ^^^ rotr e 11 ^^^ rotr e 25
def smallSigma0 (w : Nat) : Nat := rotr w 7 ^^^ rotr w 18 ^^^ (w >>> 3)
def smallSigma1 (w : Nat) : Nat := rotr w 17 ^^^ rotr w 19 ^^^ (w >>> 10)

/-! ## Message schedule and compression (FIPS 180-4, section 6.2.2) -/

/-- Big-endian 32-bit words of a block. -/
def words : Bytes → List Nat
  | a :: b :: c :: d :: rest =>
    (a.toNat <<< 24 ||| b.toNat <<< 16 ||| c.toNat <<< 8 ||| d.toNat) :: words rest
  | _ => []

/-- The schedule words after the first sixteen, computed over a sliding window
of the last sixteen. -/
def expand : Nat → List Nat → List Nat
  | fuel + 1, (w0 :: w1 :: w2 :: w3 :: w4 :: w5 :: w6 :: w7 :: w8 :: w9 :: w10 :: w11 :: w12 ::
      w13 :: w14 :: w15 :: _) =>
    let x := (smallSigma1 w14 + w9 + smallSigma0 w1 + w0) % wordSize
    x :: expand fuel [w1, w2, w3, w4, w5, w6, w7, w8, w9, w10, w11, w12, w13, w14, w15, x]
  | _, _ => []

/-- The 64 rounds over the working variables `a, …, h`. -/
def rounds : List Nat → List Nat → List Nat → List Nat
  | [a, b, c, d, e, f, g, h], k :: ks, w :: ws =>
    let t1 := (h + bigSigma1 e + ch e f g + k + w) % wordSize
    let t2 := (bigSigma0 a + maj a b c) % wordSize
    rounds [(t1 + t2) % wordSize, a, b, c, (d + t1) % wordSize, e, f, g] ks ws
  | st, _, _ => st

/-- One application of the compression function to a 64-byte block. -/
def compress (h : List Nat) (block : Bytes) : List Nat :=
  let w := words block
  List.zipWith (fun x y => (x + y) % wordSize) h (rounds h K (w ++ expand 48 w))

/-- The 64-byte blocks of a padded message. -/
def blocks : Nat → Bytes → List Bytes
  | 0, _ => []
  | fuel + 1, m => if m.isEmpty then [] else m.take 64 :: blocks fuel (m.drop 64)

/-- Padding (FIPS 180-4, section 5.1.1): a one bit, zeros, and the bit length
as a 64-bit big-endian number. -/
def pad (m : Bytes) : Bytes :=
  m ++ [0x80] ++ List.replicate ((119 - m.length % 64) % 64) 0 ++ toBytesBE 8 (m.length * 8)

/-- A 32-bit word as four big-endian bytes. -/
def wordBytes (x : Nat) : Bytes := toBytesBE 4 x

end SHA256

open SHA256 in
/-- The SHA-256 digest. -/
def sha256 (m : Bytes) : Bytes :=
  ((blocks (pad m).length (pad m)).foldl compress H0).flatMap wordBytes

namespace SHA256

theorem pad_length (m : Bytes) :
    (pad m).length = m.length + 1 + (119 - m.length % 64) % 64 + 8 := by
  simp [pad]
  omega

theorem pad_length_mod (m : Bytes) : (pad m).length % 64 = 0 := by
  rw [pad_length]
  omega

theorem length_rounds : ∀ (st ks ws : List Nat), st.length = 8 → (rounds st ks ws).length = 8
  | [_, _, _, _, _, _, _, _], _ :: ks, _ :: ws, _ => length_rounds _ ks ws rfl
  | [_, _, _, _, _, _, _, _], [], _, h => h
  | [_, _, _, _, _, _, _, _], _ :: _, [], h => h
  | [], _, _, h | [_], _, _, h | [_, _], _, _, h | [_, _, _], _, _, h | [_, _, _, _], _, _, h
  | [_, _, _, _, _, _], _, _, h | [_, _, _, _, _], _, _, h | [_, _, _, _, _, _, _], _, _, h => by
    simp at h
  | _ :: _ :: _ :: _ :: _ :: _ :: _ :: _ :: _ :: _, _, _, h => by
    simp at h

theorem length_compress {h : List Nat} (hlen : h.length = 8) (block : Bytes) :
    (compress h block).length = 8 := by
  simp [compress, length_rounds _ _ _ hlen, hlen]

theorem length_foldl_compress (bs : List Bytes) :
    (bs.foldl compress H0).length = 8 := by
  suffices ∀ h : List Nat, h.length = 8 → (bs.foldl compress h).length = 8 from this H0 rfl
  induction bs with
  | nil => exact fun _ h => h
  | cons b bs ih => exact fun h hh => ih _ (length_compress hh b)

theorem length_flatMap_wordBytes (l : List Nat) : (l.flatMap wordBytes).length = 4 * l.length := by
  induction l with
  | nil => rfl
  | cons x l ih => simp [wordBytes, ih]; ring

end SHA256

open SHA256 in
theorem length_sha256 (m : Bytes) : (sha256 m).length = 32 := by
  rw [sha256, length_flatMap_wordBytes, length_foldl_compress]

set_option maxRecDepth 100000 in
example : bin2bn (sha256 [0x61, 0x62, 0x63]) =
    0xba7816bf8f01cfea414140de5dae2223b00361a396177a9cb410ff61f20015ad := by
  decide

set_option maxRecDepth 100000 in
/-- The two-block test vector of FIPS 180-4: a 56-byte message, whose padding
needs a second block. -/
example : bin2bn (sha256 ((List.range 14).flatMap fun i =>
    [0x61 + UInt8.ofNat i, 0x62 + UInt8.ofNat i, 0x63 + UInt8.ofNat i, 0x64 + UInt8.ofNat i])) =
    0x248d6a61d20638b8e5c026930c3e6039a33ce45964ff2167f6ecedd419db06c1 := by
  decide

/-! ## The hashing object -/

/-- A {lit}`SHA2<HASH_VARIANT_256>` object: the bytes absorbed since it was
created or last reset. -/
structure SHA2 where
  absorbed : Bytes
  deriving DecidableEq, Repr

namespace SHA2

/-- A fresh object. -/
def init : SHA2 := ⟨[]⟩

/-- {lit}`Update(input)`. -/
def update (h : SHA2) (input : Bytes) : SHA2 := ⟨h.absorbed ++ input⟩

/-- {lit}`Update(input, offset, size)`: absorbs `input[offset, offset + size)`.
A window that leaves the buffer is read out of range, which has no defined
result: `none`. -/
def updateWindow (h : SHA2) (input : Bytes) (offset size : Nat) : Option SHA2 :=
  if offset + size ≤ input.length then some (h.update (window input offset size)) else none

/-- {lit}`Finalize()`: the digest of everything absorbed. -/
def finalize (h : SHA2) : Bytes := sha256 h.absorbed

/-- {lit}`Reset()`. -/
def reset (_ : SHA2) : SHA2 := init

@[simp] theorem absorbed_init : init.absorbed = [] := rfl
@[simp] theorem absorbed_update (h : SHA2) (input : Bytes) :
    (h.update input).absorbed = h.absorbed ++ input := rfl
@[simp] theorem reset_eq (h : SHA2) : h.reset = init := rfl

theorem updateWindow_of_le (h : SHA2) {input : Bytes} {offset size : Nat}
    (hle : offset + size ≤ input.length) :
    h.updateWindow input offset size = some ⟨h.absorbed ++ window input offset size⟩ :=
  if_pos hle

theorem updateWindow_of_lt (h : SHA2) {input : Bytes} {offset size : Nat}
    (hlt : input.length < offset + size) : h.updateWindow input offset size = none :=
  if_neg (Nat.not_le.mpr hlt)

/-- {lit}`Update(input, offset, size)` succeeds exactly on windows inside the
buffer, and appends the window. -/
theorem updateWindow_eq_some_iff {h h' : SHA2} {input : Bytes} {offset size : Nat} :
    h.updateWindow input offset size = some h' ↔
      offset + size ≤ input.length ∧ h'.absorbed = h.absorbed ++ window input offset size := by
  unfold updateWindow
  split_ifs with hle
  · simp only [Option.some.injEq, hle, true_and]
    exact ⟨fun e => e ▸ rfl, fun e => congrArg SHA2.mk e.symm⟩
  · simp [hle]

end SHA2

end LibSchnorr
