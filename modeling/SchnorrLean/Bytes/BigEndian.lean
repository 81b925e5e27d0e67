import Mathlib.Data.List.Basic
import Mathlib.Tactic.Ring

/-!
# Big-endian byte strings and the OpenSSL releases

The library moves numbers between {lit}`BIGNUM`s and byte buffers
({lit}`bytes`, a {lit}`std::vector<uint8_t>`) with OpenSSL's
{lit}`BN_bin2bn`, {lit}`BN_num_bytes` and {lit}`BN_bn2binpad`.  This module
gives them as structurally recursive functions, so that concrete encodings
can be evaluated by {lit}`decide`, and proves the codec laws the
serialisation and point-encoding proofs use.

Two OpenSSL functions the library calls behave differently across releases,
so the model takes the release as a parameter: 1.0.2, the release of the
Ubuntu xenial image the CI configuration builds on, and the current 3.0.
{lit}`Sign` and {lit}`Verify` reduce their digest with
{lit}`BN_nnmod(r, r, order, NULL)`.  {lit}`BN_div` claims a frame of the
context with {lit}`BN_CTX_start(ctx)`, which dereferences the null pointer;
on 1.0.2 it returns before that when the dividend is already below the
divisor, on 3.0 it never does.  {lit}`EC_POINT_bn2point` differs on zero
(module {lit}`Curve.Octets`).

Main results:

- {lit}`bin2bn_toBytesBE` and {lit}`toBytesBE_bin2bn`: fixed-width encoding
  and decoding are inverse;
- {lit}`numBytes_le_iff`: a number fits in `len` bytes iff it is below
  `256 ^ len`;
- {lit}`bin2bn_lt_iff_head`: a big-endian string is short-valued exactly when
  its first byte is zero;
- {lit}`nnmod_eq_some_iff`: {lit}`BN_nnmod` without a context returns only on
  1.0.2, and only on a dividend already reduced.
-/

namespace LibSchnorr

/-- A byte buffer ({lit}`bytes` in the sources). -/
abbrev Bytes : Type := List UInt8

/-- {lit}`BN_bin2bn`: read a byte string as a big-endian number. -/
def bin2bn (src : Bytes) : Nat :=
  src.foldl (fun acc b => acc * 256 + b.toNat) 0

/-- The `len`-byte big-endian encoding of `n mod 256 ^ len`. -/
def toBytesBE : Nat → Nat → Bytes
  | 0, _ => []
  | len + 1, n => toBytesBE len (n / 256) ++ [UInt8.ofNat n]

/-- Fuelled loop of {lit}`numBytes`: the fuel bounds the number of bytes. -/
def numBytesAux : Nat → Nat → Nat
  | 0, _ => 0
  | fuel + 1, n => if n = 0 then 0 else numBytesAux fuel (n / 256) + 1

/-- {lit}`BN_num_bytes`: the length of the shortest big-endian encoding. -/
def numBytes (n : Nat) : Nat := numBytesAux n n

/-- {lit}`BN_bn2binpad`: the value left-padded with zeros to `len` bytes, or
failure when it does not fit. -/
def bn2binpad (n len : Nat) : Option Bytes :=
  if numBytes n ≤ len then some (toBytesBE len n) else none

/-- The window `src[offset, offset + size)` of a buffer.  Past the end of the
buffer it is clipped; the callers that would read there fail first. -/
def window (src : Bytes) (offset size : Nat) : Bytes :=
  (src.drop offset).take size

/-- The OpenSSL releases the model distinguishes. -/
inductive OpenSSL where
  /-- OpenSSL 1.0.2, the {lit}`libssl-dev` of the CI image. -/
  | v1_0_2
  /-- OpenSSL 3.0. -/
  | v3_0
deriving DecidableEq, Repr

/-- {lit}`BN_nnmod(r, a, n, NULL)` as {lit}`Sign` and {lit}`Verify` call it:
`some r` when it returns, `none` when {lit}`BN_CTX_start(NULL)` crashes the
process.  On 1.0.2 {lit}`BN_div` copies a dividend below the divisor without
touching the context; on 3.0 {lit}`bn_div_fixed_top` always starts it. -/
def nnmod : OpenSSL → Nat → Nat → Option Nat
  | .v1_0_2, a, n => if a < n then some a else none
  | .v3_0, _, _ => none

/-- {lit}`BN_nnmod` without a context returns only on 1.0.2, on a reduced
dividend, which it returns unchanged. -/
theorem nnmod_eq_some_iff {lib : OpenSSL} {a n r : Nat} :
    nnmod lib a n = some r ↔ lib = .v1_0_2 ∧ a < n ∧ r = a := by
  cases lib with
  | v1_0_2 => by_cases h : a < n <;> simp [nnmod, h, eq_comm]
  | v3_0 => simp [nnmod]

/-- {lit}`BN_nnmod` without a context crashes on 3.0, and on 1.0.2 on a dividend
that is not reduced. -/
theorem nnmod_eq_none_iff {lib : OpenSSL} {a n : Nat} :
    nnmod lib a n = none ↔ lib = .v3_0 ∨ n ≤ a := by
  cases lib with
  | v1_0_2 =>
    by_cases h : a < n
    · simp [nnmod, h]
    · simpa [nnmod, h] using Nat.le_of_not_lt h
  | v3_0 => simp [nnmod]

/-- A window inside the buffer has the requested length. -/
theorem length_window_of_le {src : Bytes} {offset size : Nat} (h : offset + size ≤ src.length) :
    (window src offset size).length = size := by
  simp only [window, List.length_take, List.length_drop]
  omega

/-! ## Decoding -/

/-- A byte is below `256`. -/
theorem byte_toNat_lt (b : UInt8) : b.toNat < 256 := b.toNat_lt_size

/-- Converting a number to a byte keeps it modulo `256`. -/
@[simp] theorem toNat_byteOfNat (n : Nat) : (UInt8.ofNat n).toNat = n % 256 := rfl

/-- Bytes with one value are equal. -/
theorem byte_ext {a b : UInt8} (h : a.toNat = b.toNat) : a = b := UInt8.toNat.inj h

/-- The fold of {lit}`bin2bn` from an accumulator shifts the accumulator past
the string. -/
theorem foldl_bin2bn (acc : Nat) (src : Bytes) :
    src.foldl (fun acc b => acc * 256 + b.toNat) acc = acc * 256 ^ src.length + bin2bn src := by
  induction src using List.reverseRecOn generalizing acc with
  | nil => simp [bin2bn]
  | append_singleton l b ih =>
    simp only [List.foldl_append, List.foldl_cons, List.foldl_nil, List.length_append,
      List.length_singleton, bin2bn] at ih ⊢
    rw [ih, ih 0]
    ring

/-- The empty string reads as `0`. -/
@[simp] theorem bin2bn_nil : bin2bn [] = 0 := rfl

/-- The first byte of a string is its most significant digit. -/
@[simp] theorem bin2bn_cons (b : UInt8) (src : Bytes) :
    bin2bn (b :: src) = b.toNat * 256 ^ src.length + bin2bn src := by
  rw [bin2bn, List.foldl_cons, foldl_bin2bn, Nat.zero_mul, Nat.zero_add]

/-- The last byte of a string is its least significant digit. -/
@[simp] theorem bin2bn_append_singleton (src : Bytes) (b : UInt8) :
    bin2bn (src ++ [b]) = bin2bn src * 256 + b.toNat := by
  simp only [bin2bn, List.foldl_append, List.foldl_cons, List.foldl_nil]

/-- Reading a concatenation shifts the first part past the second. -/
theorem bin2bn_append (a b : Bytes) : bin2bn (a ++ b) = bin2bn a * 256 ^ b.length + bin2bn b := by
  rw [bin2bn, List.foldl_append, foldl_bin2bn]
  rfl

/-- A string of `len` bytes reads below `256 ^ len`. -/
theorem bin2bn_lt (src : Bytes) : bin2bn src < 256 ^ src.length := by
  induction src with
  | nil => simp
  | cons b src ih =>
    have hb := byte_toNat_lt b
    rw [bin2bn_cons, List.length_cons, pow_succ]
    calc b.toNat * 256 ^ src.length + bin2bn src
        < b.toNat * 256 ^ src.length + 256 ^ src.length := by omega
      _ = (b.toNat + 1) * 256 ^ src.length := by ring
      _ ≤ 256 * 256 ^ src.length := Nat.mul_le_mul_right _ hb
      _ = 256 ^ src.length * 256 := Nat.mul_comm _ _

/-- Leading zero bytes do not change the value. -/
@[simp] theorem bin2bn_replicate_zero (k : Nat) (src : Bytes) :
    bin2bn (List.replicate k 0 ++ src) = bin2bn src := by
  induction k with
  | zero => rfl
  | succ k ih => simpa using ih

/-- A string of zero bytes reads as `0`. -/
@[simp] theorem bin2bn_zeros (k : Nat) : bin2bn (List.replicate k 0) = 0 := by
  simpa using bin2bn_replicate_zero k []

/-- A string is below `256 ^ (length - 1)` exactly when it starts with zero. -/
theorem bin2bn_lt_iff_head (b : UInt8) (src : Bytes) :
    bin2bn (b :: src) < 256 ^ src.length ↔ b = 0 := by
  have hsrc := bin2bn_lt src
  rw [bin2bn_cons]
  constructor
  · intro h
    refine byte_ext (Nat.eq_zero_of_not_pos fun hpos => ?_)
    have := Nat.le_mul_of_pos_left (256 ^ src.length) hpos
    omega
  · rintro rfl
    simpa using hsrc

/-- A string with a nonzero first byte is worth at least `256 ^ (length - 1)`. -/
theorem pow_le_bin2bn_cons {b : UInt8} (hb : b ≠ 0) (rest : Bytes) :
    256 ^ rest.length ≤ bin2bn (b :: rest) :=
  not_lt.mp fun h => hb ((bin2bn_lt_iff_head b rest).mp h)

/-! ## Fixed-width encoding -/

/-- The fixed-width encoding has the requested width. -/
@[simp] theorem length_toBytesBE (len n : Nat) : (toBytesBE len n).length = len := by
  induction len generalizing n with
  | zero => rfl
  | succ len ih => simp [toBytesBE, ih]

/-- Decoding the fixed-width encoding gives the number modulo `256 ^ len`. -/
theorem bin2bn_toBytesBE (len n : Nat) : bin2bn (toBytesBE len n) = n % 256 ^ len := by
  induction len generalizing n with
  | zero => simp [toBytesBE, Nat.mod_one]
  | succ len ih =>
    rw [toBytesBE, bin2bn_append_singleton, ih, toNat_byteOfNat, pow_succ', Nat.mod_mul]
    ring

/-- Decoding the fixed-width encoding of a number that fits gives it back. -/
theorem bin2bn_toBytesBE_of_lt {len n : Nat} (h : n < 256 ^ len) :
    bin2bn (toBytesBE len n) = n := by
  rw [bin2bn_toBytesBE, Nat.mod_eq_of_lt h]

/-- Encoding the value of a string at its own width gives the string back. -/
theorem toBytesBE_bin2bn (src : Bytes) : toBytesBE src.length (bin2bn src) = src := by
  induction src using List.reverseRecOn with
  | nil => rfl
  | append_singleton src b ih =>
    have hb := byte_toNat_lt b
    rw [List.length_append, List.length_singleton, toBytesBE, bin2bn_append_singleton,
      show (bin2bn src * 256 + b.toNat) / 256 = bin2bn src by omega, ih]
    congr
    exact byte_ext (by rw [toNat_byteOfNat]; omega)

/-- The same at a width given by an equation. -/
theorem toBytesBE_bin2bn_of_length {src : Bytes} {len : Nat} (h : src.length = len) :
    toBytesBE len (bin2bn src) = src :=
  h ▸ toBytesBE_bin2bn src

/-- Two strings of one length with one value are equal. -/
theorem eq_of_bin2bn_eq {a b : Bytes} (hlen : a.length = b.length) (h : bin2bn a = bin2bn b) :
    a = b := by
  rw [← toBytesBE_bin2bn a, ← toBytesBE_bin2bn b, hlen, h]

/-! ## Byte length -/

/-- With enough fuel, the loop of {lit}`numBytes` stays within `len` bytes
exactly when the number is below `256 ^ len`. -/
theorem numBytesAux_le_iff : ∀ {fuel n len : Nat}, n ≤ fuel →
    (numBytesAux fuel n ≤ len ↔ n < 256 ^ len)
  | 0, n, len, hn => by
    obtain rfl : n = 0 := by omega
    simp [numBytesAux, Nat.pos_pow_of_pos]
  | fuel + 1, n, len, hn => by
    rw [numBytesAux]
    split_ifs with h0
    · simp [h0, Nat.pos_pow_of_pos]
    · cases len with
      | zero => simp; omega
      | succ len =>
        rw [Nat.add_le_add_iff_right, numBytesAux_le_iff (by omega),
          Nat.div_lt_iff_lt_mul (by decide), pow_succ]

/-- A number takes at most `len` bytes exactly when it is below `256 ^ len`. -/
theorem numBytes_le_iff {n len : Nat} : numBytes n ≤ len ↔ n < 256 ^ len :=
  numBytesAux_le_iff le_rfl

/-- A number is below `256` to the power of its byte length. -/
theorem lt_pow_numBytes (n : Nat) : n < 256 ^ numBytes n :=
  numBytes_le_iff.mp le_rfl

/-- Zero takes no bytes. -/
@[simp] theorem numBytes_zero : numBytes 0 = 0 := rfl

/-- A string whose first byte is not zero is the shortest encoding of its value. -/
theorem numBytes_bin2bn_cons {b : UInt8} (hb : b ≠ 0) (rest : Bytes) :
    numBytes (bin2bn (b :: rest)) = rest.length + 1 := by
  have hle : numBytes (bin2bn (b :: rest)) ≤ rest.length + 1 :=
    numBytes_le_iff.mpr (bin2bn_lt (b :: rest))
  have hgt : ¬ numBytes (bin2bn (b :: rest)) ≤ rest.length :=
    fun h => hb ((bin2bn_lt_iff_head b rest).mp (numBytes_le_iff.mp h))
  omega

/-- A fixed-width encoding splits into its high and its low bytes. -/
theorem toBytesBE_add (a b n : Nat) :
    toBytesBE (a + b) n = toBytesBE a (n / 256 ^ b) ++ toBytesBE b n := by
  induction b generalizing n with
  | zero => simp [toBytesBE]
  | succ b ih =>
    rw [← Nat.add_assoc, toBytesBE, ih, toBytesBE, List.append_assoc, Nat.div_div_eq_div_mul,
      ← pow_succ']

/-- The fixed-width encoding of zero is all zeros. -/
@[simp] theorem toBytesBE_zero (len : Nat) : toBytesBE len 0 = List.replicate len 0 := by
  induction len with
  | zero => rfl
  | succ len ih => rw [toBytesBE, Nat.zero_div, ih, List.replicate_succ']; rfl

/-- A string reads as `0` exactly when all its bytes are zero. -/
theorem bin2bn_eq_zero_iff {src : Bytes} : bin2bn src = 0 ↔ src = List.replicate src.length 0 :=
  ⟨fun h => by rw [← toBytesBE_zero, ← h, toBytesBE_bin2bn], fun h => by rw [h, bin2bn_zeros]⟩

/-- The strings that read as the value of a string with a nonzero first byte
are that string behind zeros. -/
theorem bin2bn_eq_bin2bn_cons_iff {b : UInt8} (hb : b ≠ 0) {src rest : Bytes} :
    bin2bn src = bin2bn (b :: rest) ↔ ∃ pad, src = List.replicate pad 0 ++ b :: rest := by
  refine ⟨fun h => ?_, fun ⟨pad, h⟩ => by rw [h, bin2bn_replicate_zero]⟩
  have hlen : (b :: rest).length ≤ src.length := by
    by_contra hlt
    have hge := pow_le_bin2bn_cons hb rest
    have hpow : 256 ^ src.length ≤ 256 ^ rest.length :=
      Nat.pow_le_pow_right (by norm_num) (by simp at hlt; omega)
    have := bin2bn_lt src
    omega
  refine ⟨src.length - (b :: rest).length, ?_⟩
  have hsplit := toBytesBE_add (src.length - (b :: rest).length) (b :: rest).length (bin2bn src)
  rw [Nat.sub_add_cancel hlen, toBytesBE_bin2bn, h,
    Nat.div_eq_of_lt (bin2bn_lt (b :: rest)), toBytesBE_zero, toBytesBE_bin2bn] at hsplit
  exact hsplit

/-- {lit}`BN_bn2binpad` succeeds exactly on numbers that fit, with their
fixed-width encoding. -/
theorem bn2binpad_eq_some_iff {n len : Nat} {out : Bytes} :
    bn2binpad n len = some out ↔ n < 256 ^ len ∧ out = toBytesBE len n := by
  unfold bn2binpad
  by_cases h : n < 256 ^ len
  · simp [numBytes_le_iff.mpr h, h, eq_comm]
  · simp [mt numBytes_le_iff.mp h, h]

end LibSchnorr
