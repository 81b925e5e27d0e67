import SchnorrLean.Schnorr.Types

/-!
# {lit}`Schnorr::Verify`

{lit}`Schnorr::Verify` runs the initial checks, then a straight line of
checks that each return {lit}`false` on failure while also accumulating into
{lit}`err`: the ranges of `r` and `s`, the recomputed commitment
`Q = s·G + r·P` not at infinity, and the compressed encodings of `Q` and of
the public key having 33 bytes.  It then hashes the message window, which
reads out of range when the window leaves the message, reduces the digest
with {lit}`BN_nnmod(…, NULL)`, which crashes unless it runs on OpenSSL 1.0.2
on a digest below `n`, and returns {lit}`!err` and the comparison of the
rebuilt challenge with `r`.  The exception handler catches only allocation
failures, which the model does not have; a crash is no exception.

Main results:

- {lit}`verify_eq_returned_true_iff`: once the initial checks pass,
  {lit}`Verify` accepts exactly when `r` and `s` are in `[1, n − 1]`, the key
  is not the point at infinity, `Q = s·G + r·P` is not either, the window
  lies inside the message and {lit}`BN_nnmod` returns `r` on the digest of
  `Q`, the key and the window;
- {lit}`verify_eq_true_of_G_mul`: for a key `d·G`, the rebuilt commitment is
  `(s + r·d)·G`, so a response `s ≡ k − r·d` of a nonzero nonce `k` verifies;
- {lit}`verifyMessage_congr`: the whole-message overload reads only the first
  `|m| mod 2 ^ 32` bytes;
- {lit}`verify_binding`: accepting one challenge with another response, window
  or key takes a collision of the hash modulo `n`.
-/

namespace LibSchnorr

open Secp256k1

/-- The range test of {lit}`Verify`, applied to `r` and to `s`:
{lit}`BN_is_zero(x) || BN_is_negative(x) || (BN_cmp(x, order) != -1)`. -/
def outOfRange (x : Int) : Bool :=
  x == 0 || decide (x < 0) || !decide (x < groupOrder)

/-- {lit}`Schnorr::Verify(message, offset, size, toverify, pubkey)` on the
release `lib`. -/
def verify (lib : OpenSSL) (message : Bytes) (offset size : UInt32) (toverify : Signature)
    (pubkey : PubKey) : Outcome :=
  if !inputChecks message offset size then .returned false else
  let err := false
  let err2 := outOfRange toverify.r
  let err := err || err2
  if err2 then .returned false else
  let err2 := outOfRange toverify.s
  let err := err || err2
  if err2 then .returned false else
  let Q := pointMul toverify.s.toNat pubkey.P toverify.r.toNat
  let err2 := Q == .infinity
  let err := err || err2
  if err2 then .returned false else
  let buf := point2oct .compressed Q
  let err2 := buf.length != 33
  let err := err || err2
  if err2 then .returned false else
  let sha2 := SHA2.init.update buf
  let buf := point2oct .compressed pubkey.P
  let err2 := buf.length != 33
  let err := err || err2
  if err2 then .returned false else
  match (sha2.update buf).updateWindow message offset.toNat size.toNat with
  | none => .readOutOfBounds
  | some sha2 =>
    match nnmod lib (bin2bn sha2.finalize) groupOrder with
    | none => .crashed
    | some challengeBuilt => .returned (!err && (challengeBuilt : Int) == toverify.r)

/-- {lit}`Schnorr::Verify(message, toverify, pubkey)`: the whole message, with
{lit}`message.size()` passed as the {lit}`unsigned int` size. -/
def verifyMessage (lib : OpenSSL) (message : Bytes) (toverify : Signature) (pubkey : PubKey) :
    Outcome :=
  verify lib message 0 (UInt32.ofNat message.length) toverify pubkey

/-- A scalar passes the range test exactly when it lies in `[1, n − 1]`. -/
theorem outOfRange_eq_false_iff {x : Int} : outOfRange x = false ↔ 0 < x ∧ x < groupOrder := by
  simp only [outOfRange, Bool.or_eq_false_iff, beq_eq_false_iff_ne, decide_eq_false_iff_not,
    Bool.not_eq_false', decide_eq_true_eq]
  omega

/-- Testing the length of the compressed encoding tests for infinity. -/
theorem bne_length_point2oct (P : ECPoint) :
    ((point2oct .compressed P).length != 33) = (P == .infinity) := by
  cases P with
  | infinity => rfl
  | affine x y => simp [length_point2oct_compressed]

/-- The tests before the hash: `r` and `s` in `[1, n − 1]`, and the rebuilt
commitment and the key other than the point at infinity. -/
def VerifyPasses (sig : Signature) (pubkey : PubKey) : Prop :=
  (0 < sig.r ∧ sig.r < groupOrder) ∧ (0 < sig.s ∧ sig.s < groupOrder) ∧
    pointMul sig.s.toNat pubkey.P sig.r.toNat ≠ .infinity ∧ pubkey.P ≠ .infinity

instance (sig : Signature) (pubkey : PubKey) : Decidable (VerifyPasses sig pubkey) :=
  inferInstanceAs (Decidable (_ ∧ _))

/-- The tests before the hash, as {lit}`Verify` accumulates them in {lit}`err`. -/
theorem verifyPasses_iff (sig : Signature) (pubkey : PubKey) :
    VerifyPasses sig pubkey ↔
      (outOfRange sig.r || outOfRange sig.s ||
        pointMul sig.s.toNat pubkey.P sig.r.toNat == .infinity || pubkey.P == .infinity) = false := by
  simp [VerifyPasses, outOfRange_eq_false_iff, and_assoc]

/-- Once the initial checks pass, {lit}`Verify` returns {lit}`false` at the
first test that fails; every early return is taken exactly when {lit}`err2`
is set, so {lit}`err` is false at the end. -/
theorem verify_eq_of_inputChecks {lib : OpenSSL} {message : Bytes} {offset size : UInt32}
    (hchk : inputChecks message offset size = true) (sig : Signature) (pubkey : PubKey) :
    verify lib message offset size sig pubkey =
      if outOfRange sig.r || outOfRange sig.s ||
          pointMul sig.s.toNat pubkey.P sig.r.toNat == .infinity || pubkey.P == .infinity then
        .returned false
      else match ((SHA2.init.update (point2oct .compressed
          (pointMul sig.s.toNat pubkey.P sig.r.toNat))).update
          (point2oct .compressed pubkey.P)).updateWindow message offset.toNat size.toNat with
        | none => .readOutOfBounds
        | some sha2 =>
          (nnmod lib (bin2bn sha2.finalize) groupOrder).elim .crashed
            fun c => .returned ((c : Int) == sig.r) := by
  simp only [verify, hchk, Bool.not_true, Bool.false_eq_true, if_false, Bool.false_or,
    bne_length_point2oct]
  cases outOfRange sig.r <;> cases outOfRange sig.s <;>
    cases pointMul sig.s.toNat pubkey.P sig.r.toNat == .infinity <;>
    cases pubkey.P == .infinity <;> simp only [Bool.or_false, Bool.or_true, Bool.false_eq_true,
      if_true, if_false]
  split <;> simp only [Bool.not_false, Bool.true_and]
  cases nnmod lib _ groupOrder <;> rfl

/-- Once the initial checks pass, {lit}`Verify` returns {lit}`false` unless the
tests before the hash pass; it then hashes the window, which reads past a
window that leaves the message, and reduces the digest. -/
theorem verify_eq {lib : OpenSSL} {message : Bytes} {offset size : UInt32}
    (hchk : inputChecks message offset size = true) (sig : Signature) (pubkey : PubKey) :
    verify lib message offset size sig pubkey =
      if VerifyPasses sig pubkey then
        if offset.toNat + size.toNat ≤ message.length then
          (nnmod lib (challengeDigest (pointMul sig.s.toNat pubkey.P sig.r.toNat) pubkey.P message
            offset size) groupOrder).elim .crashed fun c => .returned ((c : Int) == sig.r)
        else .readOutOfBounds
      else .returned false := by
  rw [verify_eq_of_inputChecks hchk]
  by_cases hpass : VerifyPasses sig pubkey
  · rw [if_neg (by rw [(verifyPasses_iff sig pubkey).mp hpass]; exact Bool.false_ne_true),
      if_pos hpass]
    split_ifs with hfit
    · rw [(updateWindow_challengeDigest _ _ hfit).1]
      simp only [SHA2.absorbed_update, SHA2.absorbed_init, List.nil_append,
        (updateWindow_challengeDigest _ _ hfit).2]
    · rw [SHA2.updateWindow_of_lt _ (Nat.lt_of_not_le hfit)]
  · rw [if_pos (Bool.not_eq_false _ ▸ mt (verifyPasses_iff sig pubkey).mpr hpass), if_neg hpass]

section Outcomes

variable {lib : OpenSSL} {message : Bytes} {offset size : UInt32}

/-- Once the initial checks pass, what {lit}`Verify` accepts. -/
theorem verify_eq_returned_true_iff (hchk : inputChecks message offset size = true)
    (sig : Signature) (pubkey : PubKey) :
    verify lib message offset size sig pubkey = .returned true ↔
      VerifyPasses sig pubkey ∧ offset.toNat + size.toNat ≤ message.length ∧
        nnmod lib (challengeDigest (pointMul sig.s.toNat pubkey.P sig.r.toNat) pubkey.P message
          offset size) groupOrder = some sig.r.toNat := by
  rw [verify_eq hchk]
  split_ifs with hpass hfit
  · have hr := hpass.1.1
    cases nnmod lib _ groupOrder with
    | none => simp
    | some c =>
      simp only [Option.elim, Outcome.returned.injEq, beq_iff_eq, Option.some.injEq, hpass, hfit,
        true_and]
      omega
  · simp [hfit]
  · simp [hpass]

/-- Once the initial checks pass, {lit}`Verify` crashes exactly when the tests
before the hash pass, the window lies inside the message, and
{lit}`BN_nnmod` does not return on the digest. -/
theorem verify_eq_crashed_iff (hchk : inputChecks message offset size = true)
    (sig : Signature) (pubkey : PubKey) :
    verify lib message offset size sig pubkey = .crashed ↔
      VerifyPasses sig pubkey ∧ offset.toNat + size.toNat ≤ message.length ∧
        nnmod lib (challengeDigest (pointMul sig.s.toNat pubkey.P sig.r.toNat) pubkey.P message
          offset size) groupOrder = none := by
  rw [verify_eq hchk]
  split_ifs with hpass hfit
  · cases nnmod lib _ groupOrder <;> simp [hpass, hfit]
  · simp [hfit]
  · simp [hpass]

/-- Once the initial checks pass, {lit}`Verify` reads past the message exactly
when the tests before the hash pass and the window leaves the message. -/
theorem verify_eq_readOutOfBounds_iff (hchk : inputChecks message offset size = true)
    (sig : Signature) (pubkey : PubKey) :
    verify lib message offset size sig pubkey = .readOutOfBounds ↔
      VerifyPasses sig pubkey ∧ message.length < offset.toNat + size.toNat := by
  rw [verify_eq hchk]
  split_ifs with hpass hfit
  · cases nnmod lib _ groupOrder <;> simp [hfit]
  · simpa [hpass] using hfit
  · simp [hpass]

end Outcomes

/-- The whole-message {lit}`Verify` reads only the first `|m| mod 2 ^ 32` bytes
of a message: two nonempty messages that agree there get the same answer for
every signature and key.  All messages of `2 ^ 32·j` bytes agree on the empty
prefix, and a message `m` shorter than `2 ^ 32` bytes agrees with `m ++ t` for
every `t` of `2 ^ 32·j` bytes. -/
theorem verifyMessage_congr {lib : OpenSSL} {message message' : Bytes} (hm : message ≠ [])
    (hm' : message' ≠ [])
    (h : message.take (message.length % 2 ^ 32) = message'.take (message'.length % 2 ^ 32))
    (sig : Signature) (pubkey : PubKey) :
    verifyMessage lib message sig pubkey = verifyMessage lib message' sig pubkey := by
  rw [verifyMessage, verifyMessage, verify_eq (inputChecks_whole hm),
    verify_eq (inputChecks_whole hm'), if_pos (fits_whole message), if_pos (fits_whole message'),
    challengeDigest_whole_congr h]

/-- Two messages of `2 ^ 32` bytes, all zeros and all ones. -/
theorem verifyMessage_congr_four_gib :
    List.replicate (2 ^ 32) (0 : UInt8) ≠ [] ∧ List.replicate (2 ^ 32) (1 : UInt8) ≠ [] ∧
      verifyMessage .v1_0_2 (List.replicate (2 ^ 32) 0) ⟨1, 1⟩ ⟨G, G_onCurve⟩ =
        verifyMessage .v1_0_2 (List.replicate (2 ^ 32) 1) ⟨1, 1⟩ ⟨G, G_onCurve⟩ :=
  have hne (b : UInt8) : List.replicate (2 ^ 32) b ≠ [] :=
    List.ne_nil_of_length_pos (by rw [List.length_replicate]; positivity)
  have hpre (b : UInt8) :
      (List.replicate (2 ^ 32) b).take ((List.replicate (2 ^ 32) b).length % 2 ^ 32) = [] := by
    rw [List.length_replicate, Nat.mod_self, List.take_zero]
  ⟨hne 0, hne 1,
    verifyMessage_congr (hne 0) (hne 1) ((hpre 0).trans (hpre 1).symm) ⟨1, 1⟩ ⟨G, G_onCurve⟩⟩

/-! ## Keys that are multiples of the base point -/

/-- Scalars congruent modulo `n` give one multiple of `G`. -/
theorem G_mul_toNat_eq {a b : Int} (ha : 0 ≤ a) (hb : 0 ≤ b) (h : a ≡ b [ZMOD groupOrder]) :
    G.mul a.toNat = G.mul b.toNat := by
  refine G_mul_eq_G_mul_iff.mpr (Int.natCast_modEq_iff.mp ?_)
  rwa [Int.toNat_of_nonneg ha, Int.toNat_of_nonneg hb]

/-- A challenge `r` in `(0, n)` is invertible modulo the prime `n`. -/
theorem modEq_of_mul_modEq {r d d' : Int} (hr : 0 < r ∧ r < groupOrder)
    (h : r * d ≡ r * d' [ZMOD groupOrder]) : d ≡ d' [ZMOD groupOrder] := by
  have hdvd := h.dvd
  rw [← mul_sub] at hdvd
  rcases Int.Prime.dvd_mul' groupOrder_prime hdvd with hr' | hd
  · exact absurd (Int.eq_zero_of_dvd_of_nonneg_of_lt hr.1.le hr.2 hr') hr.1.ne'
  · exact Int.modEq_iff_dvd.mpr hd

/-- For a key `d·G`, the commitment {lit}`Verify` rebuilds from `(r, s)` is
`k·G` whenever `s ≡ k − r·d (mod n)`. -/
theorem pointMul_G_mul_eq {r s d k : Int} (hr : 0 ≤ r) (hs : 0 ≤ s) (hd : 0 ≤ d) (hk : 0 ≤ k)
    (h : s + r * d ≡ k [ZMOD groupOrder]) :
    pointMul s.toNat (G.mul d.toNat) r.toNat = G.mul k.toNat := by
  rw [pointMul_G_mul, ← G_mul_toNat_eq (by positivity) hk h, Int.toNat_add hs (by positivity)]
  congr
  zify
  rw [Int.toNat_of_nonneg hr, Int.toNat_of_nonneg hd, Int.toNat_of_nonneg (by positivity)]

/-- A signature `(r, s)` with `s ≡ k − r·d` for a nonce `k` whose commitment
is not infinity, on a window inside the message, where {lit}`BN_nnmod`
returns `r` on the digest of that commitment, verifies under the key
`d·G`. -/
theorem verify_eq_true_of_G_mul {lib : OpenSSL} {message : Bytes} {offset size : UInt32}
    (hchk : inputChecks message offset size = true) {sig : Signature} {pubkey : PubKey}
    {d k : Int} (hd : 0 ≤ d) (hk : 0 ≤ k) (hP : pubkey.P = G.mul d.toNat)
    (hPne : pubkey.P ≠ .infinity) (hQ : G.mul k.toNat ≠ .infinity)
    (hr : 0 < sig.r ∧ sig.r < groupOrder) (hs : 0 < sig.s ∧ sig.s < groupOrder)
    (hmod : sig.s + sig.r * d ≡ k [ZMOD groupOrder])
    (hfit : offset.toNat + size.toNat ≤ message.length)
    (hred : nnmod lib (challengeDigest (G.mul k.toNat) pubkey.P message offset size) groupOrder =
      some sig.r.toNat) :
    verify lib message offset size sig pubkey = .returned true := by
  have hQ' : pointMul sig.s.toNat pubkey.P sig.r.toNat = G.mul k.toNat := by
    rw [hP]
    exact pointMul_G_mul_eq hr.1.le hs.1.le hd hk hmod
  exact (verify_eq_returned_true_iff hchk sig pubkey).mpr
    ⟨⟨hr, hs, hQ'.symm ▸ hQ, hPne⟩, hfit, hQ' ▸ hred⟩

/-! ## What an accepted signature binds -/

/-- Only a window that passes the initial checks is accepted. -/
theorem inputChecks_of_verify {lib : OpenSSL} {message : Bytes} {offset size : UInt32}
    {sig : Signature} {pubkey : PubKey} (h : verify lib message offset size sig pubkey = .returned true) :
    inputChecks message offset size = true := by
  by_contra hchk
  simp [verify, hchk] at h

/-- Two signatures with one challenge `r` and responses in `[1, n − 1]` that
differ in the response, the message window or the key make {lit}`Verify` hash
different strings, when the keys and both rebuilt commitments are points other
than infinity: the encodings have 33 bytes each and are injective. -/
theorem hashed_strings_ne {message message' : Bytes} {offset size offset' size' : UInt32}
    {pubkey pubkey' : PubKey} {r s s' : Int} (hs : 0 < s ∧ s < groupOrder)
    (hs' : 0 < s' ∧ s' < groupOrder) (hQ : pointMul s.toNat pubkey.P r.toNat ≠ .infinity)
    (hP : pubkey.P ≠ .infinity) (hQ' : pointMul s'.toNat pubkey'.P r.toNat ≠ .infinity)
    (hP' : pubkey'.P ≠ .infinity)
    (hne : s ≠ s' ∨ window message offset.toNat size.toNat ≠ window message' offset'.toNat size'.toNat ∨
      pubkey.P ≠ pubkey'.P) :
    point2oct .compressed (pointMul s.toNat pubkey.P r.toNat) ++ point2oct .compressed pubkey.P ++
        window message offset.toNat size.toNat ≠
      point2oct .compressed (pointMul s'.toNat pubkey'.P r.toNat) ++
        point2oct .compressed pubkey'.P ++ window message' offset'.toNat size'.toNat := by
  intro heq
  obtain ⟨hQP, hw⟩ := List.append_inj heq (by
    simp only [List.length_append, length_point2oct_of_ne_infinity hQ,
      length_point2oct_of_ne_infinity hP, length_point2oct_of_ne_infinity hQ',
      length_point2oct_of_ne_infinity hP'])
  obtain ⟨hQQ, hPP⟩ := List.append_inj hQP (by
    rw [length_point2oct_of_ne_infinity hQ, length_point2oct_of_ne_infinity hQ'])
  have hdec {A B : ECPoint} (hA : A.OnCurve) (hB : B.OnCurve)
      (h : point2oct .compressed A = point2oct .compressed B) : A = B :=
    Option.some.inj ((oct2point_point2oct _ hA).symm.trans (h ▸ oct2point_point2oct _ hB))
  have hon (t : Int) (K : PubKey) : (pointMul t.toNat K.P r.toNat).OnCurve :=
    add_onCurve (G_mul_onCurve _) (mul_onCurve _ K.onCurve)
  have hPeq := hdec pubkey.onCurve pubkey'.onCurve hPP
  have hQeq := hdec (hon s pubkey) (hon s' pubkey') hQQ
  rw [← hPeq] at hQeq
  have hmod := (pointMul_eq_pointMul_iff pubkey.onCurve r.toNat).mp hQeq
  rw [Nat.ModEq, Nat.mod_eq_of_lt (by omega), Nat.mod_eq_of_lt (by omega)] at hmod
  rcases hne with h | h | h
  · omega
  · exact h hw
  · exact h hPeq

/-- An accepted signature binds its response, its message window and its key.
If {lit}`Verify` accepts `(r, s)` on one window under one key and `(r, s')` on
another window under another key, where the responses, the windows or the keys
differ, then the two strings it hashes differ while their SHA-256 digests are
equal: {lit}`BN_nnmod` returned `r` on both digests, so both are `r`.  So
changing only `s`, only bytes of the window, or only the key makes a
signature fail, unless SHA-256 collides. -/
theorem verify_binding {lib : OpenSSL} {message message' : Bytes} {offset size offset' size' : UInt32}
    {pubkey pubkey' : PubKey} {r s s' : Int}
    (hne : s ≠ s' ∨ window message offset.toNat size.toNat ≠ window message' offset'.toNat size'.toNat ∨
      pubkey.P ≠ pubkey'.P) :
    verify lib message offset size ⟨r, s⟩ pubkey ≠ .returned true ∨
      verify lib message' offset' size' ⟨r, s'⟩ pubkey' ≠ .returned true ∨
      (point2oct .compressed (pointMul s.toNat pubkey.P r.toNat) ++ point2oct .compressed pubkey.P ++
          window message offset.toNat size.toNat ≠
        point2oct .compressed (pointMul s'.toNat pubkey'.P r.toNat) ++
          point2oct .compressed pubkey'.P ++ window message' offset'.toNat size'.toNat ∧
      sha256 (point2oct .compressed (pointMul s.toNat pubkey.P r.toNat) ++
          point2oct .compressed pubkey.P ++ window message offset.toNat size.toNat) =
        sha256 (point2oct .compressed (pointMul s'.toNat pubkey'.P r.toNat) ++
          point2oct .compressed pubkey'.P ++ window message' offset'.toNat size'.toNat)) := by
  by_cases h : verify lib message offset size ⟨r, s⟩ pubkey = .returned true
  · by_cases h' : verify lib message' offset' size' ⟨r, s'⟩ pubkey' = .returned true
    · obtain ⟨⟨-, hs₁, hQ₁, hP₁⟩, -, hred⟩ :=
        (verify_eq_returned_true_iff (inputChecks_of_verify h) _ _).mp h
      obtain ⟨⟨-, hs₂, hQ₂, hP₂⟩, -, hred'⟩ :=
        (verify_eq_returned_true_iff (inputChecks_of_verify h') _ _).mp h'
      have hdig := (nnmod_eq_some_iff.mp hred).2.2.symm.trans (nnmod_eq_some_iff.mp hred').2.2
      exact .inr (.inr ⟨hashed_strings_ne hs₁ hs₂ hQ₁ hP₁ hQ₂ hP₂ hne,
        eq_of_bin2bn_eq (by rw [length_sha256, length_sha256]) hdig⟩)
    · exact .inr (.inl h')
  · exact .inl h

set_option maxRecDepth 100000 in
/-- The signature `(1, 1)` under `G` on the bytes `0x00` and `0x01`. -/
theorem verify_binding_flipped_byte :
    verify .v1_0_2 [0] 0 1 ⟨1, 1⟩ ⟨G, G_onCurve⟩ ≠ .returned true ∨
      verify .v1_0_2 [1] 0 1 ⟨1, 1⟩ ⟨G, G_onCurve⟩ ≠ .returned true ∨
      (point2oct .compressed (pointMul (1 : Int).toNat G (1 : Int).toNat) ++ point2oct .compressed G ++
          window [0] (0 : UInt32).toNat (1 : UInt32).toNat ≠
        point2oct .compressed (pointMul (1 : Int).toNat G (1 : Int).toNat) ++ point2oct .compressed G ++
          window [1] (0 : UInt32).toNat (1 : UInt32).toNat ∧
      sha256 (point2oct .compressed (pointMul (1 : Int).toNat G (1 : Int).toNat) ++
          point2oct .compressed G ++ window [0] (0 : UInt32).toNat (1 : UInt32).toNat) =
        sha256 (point2oct .compressed (pointMul (1 : Int).toNat G (1 : Int).toNat) ++
          point2oct .compressed G ++ window [1] (0 : UInt32).toNat (1 : UInt32).toNat)) :=
  @verify_binding .v1_0_2 [0] [1] 0 1 0 1 ⟨G, G_onCurve⟩ ⟨G, G_onCurve⟩ 1 1 1
    (.inr (.inl (by decide)))

end LibSchnorr
