import SchnorrLean.Schnorr.Sign
import SchnorrLean.Schnorr.Verify

/-!
# Signatures from {lit}`Sign` verify, and what {lit}`Verify` does

A successful run of {lit}`Schnorr::Sign` ends an iteration whose nonce `k`
committed to `Q = k·G ≠ O`, on a window inside the message, with `r` the
digest of `Q` that {lit}`BN_nnmod` returned and `s = (k − r·d) mod n` both
nonzero ({lit}`SignPost`).  For the key `P = d·G`, {lit}`Verify` rebuilds
`s·G + r·P = (s + r·d)·G = k·G = Q`, hashes the same octets, and
{lit}`BN_nnmod` returns the same `r` on the same digest, on the same release.

{lit}`BN_nnmod(…, NULL)` returns only on OpenSSL 1.0.2, and only on a
digest below `n`: on every other input, and on every input on 3.0, a valid
signature makes {lit}`Verify` crash, and {lit}`Sign` never returns
{lit}`true` on 3.0.

Main results:

- {lit}`sign_verify`: on every release, for every key pair, message, window
  and sequence of nonce draws, a signature {lit}`Sign` returns is in range
  and verifies;
- {lit}`verify_valid_crashes`: a valid signature on which {lit}`Verify`
  crashes on OpenSSL 3.0;
- {lit}`verify_outcome`: on every window that passes the initial checks,
  when {lit}`Verify` accepts, when it crashes, and when it reads past the
  message;
- {lit}`sign_verify_v3_0`: on OpenSSL 3.0 neither {lit}`Sign` nor
  {lit}`Verify` ever returns {lit}`true`;
- {lit}`sign_other_key_rejected`: a signature made under a public key of
  another private key is rejected, unless the hash collides modulo `n`;
- {lit}`signMessage_verifyMessage`: through the whole-message overloads a
  signature of `m` verifies for every message that agrees with `m` on its
  first `|m| mod 2 ^ 32` bytes.
-/

namespace LibSchnorr

open Secp256k1

/-- Completeness of {lit}`Schnorr::Sign` against {lit}`Schnorr::Verify`: on every
release and whatever nonces the runs draw, a signature returned for the key
pair `(d, d·G)` has `r` and `s` in `[1, n − 1]` and is accepted for the same
message window. -/
theorem sign_verify {lib : OpenSSL} {inp : SignInput} (hP : inp.pubkey.P = G.mul inp.privkey.d.toNat)
    (draws : List NonceDraw) (result : Signature)
    (h : (sign lib inp draws result).pc = .returned true) :
    (1 ≤ (sign lib inp draws result).result.r ∧
        (sign lib inp draws result).result.r ≤ groupOrder - 1) ∧
      (1 ≤ (sign lib inp draws result).result.s ∧
        (sign lib inp draws result).result.s ≤ groupOrder - 1) ∧
      verify lib inp.message inp.offset inp.size (sign lib inp draws result).result inp.pubkey =
        .returned true := by
  have hpost := signPost_of_sign h
  have hr := hpost.r_range
  have hs := hpost.s_range
  refine ⟨⟨by omega, by omega⟩, ⟨by omega, by omega⟩, ?_⟩
  exact verify_eq_true_of_G_mul (inputChecks_of_sign (by rw [h]; exact nofun))
    (by linarith [inp.privkey.range.1]) hpost.k_pos.le hP hpost.pubkey_ne hpost.commit_ne hr hs
    hpost.response_modEq hpost.fits hpost.reduces

set_option maxRecDepth 100000 in
/-- Signing the byte `0x00` with the key `1`, whose public key is `G`, and the
nonce `1` on OpenSSL 1.0.2 returns a signature in range that verifies. -/
theorem sign_verify_key_one :
    (⟨G, G_onCurve⟩ : PubKey).P = G.mul (1 : Int).toNat ∧
      (sign .v1_0_2 ⟨[0], 0, 1, ⟨1, by decide⟩, ⟨G, G_onCurve⟩⟩
        [some ⟨1, by decide⟩, none, none, none, none] ⟨0, 0⟩).pc = .returned true ∧
      verify .v1_0_2 [0] 0 1 (sign .v1_0_2 ⟨[0], 0, 1, ⟨1, by decide⟩, ⟨G, G_onCurve⟩⟩
        [some ⟨1, by decide⟩, none, none, none, none] ⟨0, 0⟩).result ⟨G, G_onCurve⟩ =
        .returned true :=
  ⟨by decide, by decide,
    (@sign_verify .v1_0_2 ⟨[0], 0, 1, ⟨1, by decide⟩, ⟨G, G_onCurve⟩⟩ (by decide) _ _
      (by decide)).2.2⟩

/-! ## What {lit}`Verify` does -/

set_option maxRecDepth 100000 in
/-- A valid signature of the byte `0x00` under the key `G`, the one
{lit}`Sign` returns for the key `1` and the nonce `1`: `r` and `s` are in
`[1, n − 1]`, `s·G + r·G = G` is not infinity, and `r` is the challenge of
`G`, `G` and the byte.  On OpenSSL 3.0 {lit}`Verify` crashes on it in
{lit}`BN_nnmod`. -/
theorem verify_valid_crashes :
    (1 ≤ (46381042658283069635514506644814270937630946372922871300197614930619448913015 : Int) ∧
        (46381042658283069635514506644814270937630946372922871300197614930619448913015 : Int) ≤
          groupOrder - 1) ∧
      (1 ≤ (69411046579033125788056478363873636915206617906152033082407548210898712581323 : Int) ∧
        (69411046579033125788056478363873636915206617906152033082407548210898712581323 : Int) ≤
          groupOrder - 1) ∧
      G ≠ .infinity ∧
      pointMul 69411046579033125788056478363873636915206617906152033082407548210898712581323 G
        46381042658283069635514506644814270937630946372922871300197614930619448913015 ≠
          .infinity ∧
      (46381042658283069635514506644814270937630946372922871300197614930619448913015 : Int) =
        challenge (pointMul 69411046579033125788056478363873636915206617906152033082407548210898712581323
          G 46381042658283069635514506644814270937630946372922871300197614930619448913015) G [0] 0 1 ∧
      verify .v3_0 [0] 0 1
        ⟨46381042658283069635514506644814270937630946372922871300197614930619448913015,
          69411046579033125788056478363873636915206617906152033082407548210898712581323⟩
        ⟨G, G_onCurve⟩ = .crashed := by
  have hQ : pointMul 69411046579033125788056478363873636915206617906152033082407548210898712581323 G
      46381042658283069635514506644814270937630946372922871300197614930619448913015 = G := by
    rw [show G = G.mul 1 by decide, pointMul_G_mul, G_mul_eq_G_mul_iff]
    decide
  have hG : G ≠ .infinity := by decide
  refine ⟨by decide, by decide, hG, by rw [hQ]; exact hG, by rw [hQ]; decide, ?_⟩
  refine (verify_eq_crashed_iff (by decide) _ _).mpr ⟨⟨by decide, by decide, ?_, hG⟩, by decide, rfl⟩
  show pointMul 69411046579033125788056478363873636915206617906152033082407548210898712581323 G
    46381042658283069635514506644814270937630946372922871300197614930619448913015 ≠ .infinity
  rw [hQ]
  exact hG

/-- What {lit}`Verify` does on a window that passes the initial checks, once
the tests before the hash pass ({lit}`VerifyPasses`: `r` and `s` in
`[1, n − 1]`, the key and `Q = s·G + r·P` other than infinity).  It accepts
exactly when, moreover, `r` is the challenge of `Q`, the key and the window,
the window lies inside the message, and the release is 1.0.2 with the digest
below `n`.  It crashes exactly when the window lies inside the message and
the release is 3.0 or the digest is at least `n`; it reads past the message
exactly when the window leaves it.  Failing the tests before the hash, it
returns {lit}`false`. -/
theorem verify_outcome {lib : OpenSSL} {message : Bytes} {offset size : UInt32}
    (hchk : inputChecks message offset size = true) (sig : Signature) (pubkey : PubKey) :
    (verify lib message offset size sig pubkey = .returned true ↔
      VerifyPasses sig pubkey ∧
        sig.r = challenge (pointMul sig.s.toNat pubkey.P sig.r.toNat) pubkey.P message offset size ∧
        offset.toNat + size.toNat ≤ message.length ∧ lib = .v1_0_2 ∧
        challengeDigest (pointMul sig.s.toNat pubkey.P sig.r.toNat) pubkey.P message offset size <
          groupOrder) ∧
    (verify lib message offset size sig pubkey = .crashed ↔
      VerifyPasses sig pubkey ∧ offset.toNat + size.toNat ≤ message.length ∧
        (lib = .v3_0 ∨ groupOrder ≤
          challengeDigest (pointMul sig.s.toNat pubkey.P sig.r.toNat) pubkey.P message offset size)) ∧
    (verify lib message offset size sig pubkey = .readOutOfBounds ↔
      VerifyPasses sig pubkey ∧ message.length < offset.toNat + size.toNat) ∧
    (¬VerifyPasses sig pubkey → verify lib message offset size sig pubkey = .returned false) := by
  refine ⟨?_, ?_, verify_eq_readOutOfBounds_iff hchk sig pubkey, fun h => by
    rw [verify_eq hchk, if_neg h]⟩
  · rw [verify_eq_returned_true_iff hchk, nnmod_eq_some_iff]
    exact and_congr_right fun hpass =>
      ⟨fun ⟨hfit, hlib, hlt, hD⟩ => ⟨(toNat_eq_iff_eq_challenge hpass.1.1.le hlt).mp hD,
          hfit, hlib, hlt⟩,
        fun ⟨hch, hfit, hlib, hlt⟩ => ⟨hfit, hlib, hlt,
          (toNat_eq_iff_eq_challenge hpass.1.1.le hlt).mpr hch⟩⟩
  · rw [verify_eq_crashed_iff hchk, nnmod_eq_none_iff]

/-- The signature `(1, 1)` under `G` on the byte `0x00`, on OpenSSL 1.0.2. -/
theorem verify_outcome_one_byte :
    inputChecks [0] 0 1 = true ∧
      (verify .v1_0_2 [0] 0 1 ⟨1, 1⟩ ⟨G, G_onCurve⟩ = .returned true ↔
        VerifyPasses ⟨1, 1⟩ ⟨G, G_onCurve⟩ ∧
          (1 : Int) = challenge (pointMul (1 : Int).toNat G (1 : Int).toNat) G [0] 0 1 ∧
          (0 : UInt32).toNat + (1 : UInt32).toNat ≤ ([0] : Bytes).length ∧
          OpenSSL.v1_0_2 = .v1_0_2 ∧
          challengeDigest (pointMul (1 : Int).toNat G (1 : Int).toNat) G [0] 0 1 < groupOrder) ∧
      (verify .v1_0_2 [0] 0 1 ⟨1, 1⟩ ⟨G, G_onCurve⟩ = .crashed ↔
        VerifyPasses ⟨1, 1⟩ ⟨G, G_onCurve⟩ ∧
          (0 : UInt32).toNat + (1 : UInt32).toNat ≤ ([0] : Bytes).length ∧
          (OpenSSL.v1_0_2 = .v3_0 ∨
            groupOrder ≤ challengeDigest (pointMul (1 : Int).toNat G (1 : Int).toNat) G [0] 0 1)) ∧
      (verify .v1_0_2 [0] 0 1 ⟨1, 1⟩ ⟨G, G_onCurve⟩ = .readOutOfBounds ↔
        VerifyPasses ⟨1, 1⟩ ⟨G, G_onCurve⟩ ∧
          ([0] : Bytes).length < (0 : UInt32).toNat + (1 : UInt32).toNat) ∧
      (¬VerifyPasses ⟨1, 1⟩ ⟨G, G_onCurve⟩ →
        verify .v1_0_2 [0] 0 1 ⟨1, 1⟩ ⟨G, G_onCurve⟩ = .returned false) :=
  have hchk : inputChecks [0] 0 1 = true := by decide
  ⟨hchk, verify_outcome hchk ⟨1, 1⟩ ⟨G, G_onCurve⟩⟩

/-- On a window that leaves the message, {lit}`Sign` never returns
{lit}`true`; once it passes the checks, under a key other than infinity, a
nonzero first draw makes it read past the message at {lit}`sha2.Update`
after four steps, on every release. -/
theorem sign_reads_out_of_bounds {lib : OpenSSL} {inp : SignInput}
    (hout : inp.message.length < inp.offset.toNat + inp.size.toNat) :
    (∀ draws result, (sign lib inp draws result).pc ≠ .returned true) ∧
      (inputChecks inp.message inp.offset inp.size = true → inp.pubkey.P ≠ .infinity →
        ∀ (k : Fin groupOrder), (k : Int) ≠ 0 → ∀ d₂ d₃ d₄ rest result,
          (sign lib inp (some k :: d₂ :: d₃ :: d₄ :: rest) result).pc = .readOutOfBounds) := by
  refine ⟨fun draws result h => absurd (signPost_of_sign h).fits (by omega),
    fun hchk hP k hk d₂ d₃ d₄ rest result => ?_⟩
  rw [sign, signRun_cons, signRun_cons, signRun_cons, signRun_cons, signStep_three hchk hP hk,
    signRun_halted rest] <;> simp only [signStep, SHA2.updateWindow_of_lt _ hout]
  rfl

set_option maxRecDepth 100000 in
/-- The wrapped window of the one-byte message `0x00` at offset `2 ^ 32 − 1`,
which passes the checks, is read past the message. -/
theorem sign_reads_out_of_bounds_wrapped :
    ([0] : Bytes).length < (0xFFFFFFFF : UInt32).toNat + (1 : UInt32).toNat ∧
      (sign .v1_0_2 ⟨[0], 0xFFFFFFFF, 1, ⟨1, by decide⟩, ⟨G, G_onCurve⟩⟩
        [some ⟨1, by decide⟩, none, none, none] ⟨0, 0⟩).pc = .readOutOfBounds :=
  have hout : ([0] : Bytes).length < (0xFFFFFFFF : UInt32).toNat + (1 : UInt32).toNat := by decide
  ⟨hout, (@sign_reads_out_of_bounds .v1_0_2 ⟨[0], 0xFFFFFFFF, 1, ⟨1, by decide⟩, ⟨G, G_onCurve⟩⟩
    hout).2 (by decide) (by decide) ⟨1, by decide⟩ (by decide) none none none [] ⟨0, 0⟩⟩

/-! ## A public key of another private key -/

/-- {lit}`Sign` never checks that the public key belongs to the private key:
under a key `d'·G` with `d' ≢ d (mod n)` it returns signatures all the same
({lit}`sign_returns_first_iteration`), and {lit}`Verify` rejects each of them
unless the challenge hash agrees modulo `n` on two different commitments, the
rebuilt `s·G + r·(d'·G)` and the nonce's `k·G`. -/
theorem sign_other_key_rejected {lib : OpenSSL} {inp : SignInput} {d' : Nat}
    (hP : inp.pubkey.P = G.mul d') (hd : ¬d' ≡ inp.privkey.d.toNat [MOD groupOrder])
    {draws : List NonceDraw} {result : Signature}
    (h : (sign lib inp draws result).pc = .returned true) :
    verify lib inp.message inp.offset inp.size (sign lib inp draws result).result inp.pubkey ≠
        .returned true ∨
      (pointMul (sign lib inp draws result).result.s.toNat inp.pubkey.P
          (sign lib inp draws result).result.r.toNat ≠ G.mul (sign lib inp draws result).k.toNat ∧
        challenge (pointMul (sign lib inp draws result).result.s.toNat inp.pubkey.P
            (sign lib inp draws result).result.r.toNat) inp.pubkey.P inp.message inp.offset
            inp.size =
          challenge (G.mul (sign lib inp draws result).k.toNat) inp.pubkey.P inp.message inp.offset
            inp.size) := by
  by_cases hv : verify lib inp.message inp.offset inp.size (sign lib inp draws result).result
      inp.pubkey = .returned true
  · have hpost := signPost_of_sign h
    have hr := hpost.r_range
    have hs := hpost.s_range
    have hd0 : 0 ≤ inp.privkey.d := by linarith [inp.privkey.range.1]
    have hred := ((verify_eq_returned_true_iff (inputChecks_of_verify hv) _ _).mp hv).2.2
    refine .inr ⟨fun hQ => hd ?_,
      (challenge_eq_of_nnmod hred).trans ((Int.toNat_of_nonneg hr.1.le).trans hpost.r_eq)⟩
    rw [hP, pointMul_G_mul, G_mul_eq_G_mul_iff, ← Int.natCast_modEq_iff] at hQ
    push_cast at hQ
    rw [Int.toNat_of_nonneg hs.1.le, Int.toNat_of_nonneg hr.1.le,
      Int.toNat_of_nonneg hpost.k_pos.le] at hQ
    have hmod := modEq_of_mul_modEq hr ((hQ.trans hpost.response_modEq.symm).add_left_cancel' _)
    rwa [← Int.natCast_modEq_iff, Int.toNat_of_nonneg hd0]
  · exact .inl hv

set_option maxRecDepth 100000 in
/-- The key `1` signs the byte `0x00` under the public key `2·G`. -/
theorem sign_other_key_rejected_two :
    (sign .v1_0_2 ⟨[0], 0, 1, ⟨1, by decide⟩, ⟨G.mul 2, G_mul_onCurve 2⟩⟩
        [some ⟨1, by decide⟩, none, none, none, none] ⟨0, 0⟩).pc = .returned true ∧
      (verify .v1_0_2 [0] 0 1 (sign .v1_0_2 ⟨[0], 0, 1, ⟨1, by decide⟩, ⟨G.mul 2, G_mul_onCurve 2⟩⟩
          [some ⟨1, by decide⟩, none, none, none, none] ⟨0, 0⟩).result ⟨G.mul 2, G_mul_onCurve 2⟩ ≠
          .returned true ∨
        (pointMul (sign .v1_0_2 ⟨[0], 0, 1, ⟨1, by decide⟩, ⟨G.mul 2, G_mul_onCurve 2⟩⟩
              [some ⟨1, by decide⟩, none, none, none, none] ⟨0, 0⟩).result.s.toNat (G.mul 2)
              (sign .v1_0_2 ⟨[0], 0, 1, ⟨1, by decide⟩, ⟨G.mul 2, G_mul_onCurve 2⟩⟩
                [some ⟨1, by decide⟩, none, none, none, none] ⟨0, 0⟩).result.r.toNat ≠
            G.mul (sign .v1_0_2 ⟨[0], 0, 1, ⟨1, by decide⟩, ⟨G.mul 2, G_mul_onCurve 2⟩⟩
              [some ⟨1, by decide⟩, none, none, none, none] ⟨0, 0⟩).k.toNat ∧
          challenge (pointMul (sign .v1_0_2 ⟨[0], 0, 1, ⟨1, by decide⟩, ⟨G.mul 2, G_mul_onCurve 2⟩⟩
              [some ⟨1, by decide⟩, none, none, none, none] ⟨0, 0⟩).result.s.toNat (G.mul 2)
              (sign .v1_0_2 ⟨[0], 0, 1, ⟨1, by decide⟩, ⟨G.mul 2, G_mul_onCurve 2⟩⟩
                [some ⟨1, by decide⟩, none, none, none, none] ⟨0, 0⟩).result.r.toNat) (G.mul 2)
              [0] 0 1 =
            challenge (G.mul (sign .v1_0_2 ⟨[0], 0, 1, ⟨1, by decide⟩, ⟨G.mul 2, G_mul_onCurve 2⟩⟩
              [some ⟨1, by decide⟩, none, none, none, none] ⟨0, 0⟩).k.toNat) (G.mul 2) [0] 0 1)) :=
  have h : (sign .v1_0_2 ⟨[0], 0, 1, ⟨1, by decide⟩, ⟨G.mul 2, G_mul_onCurve 2⟩⟩
      [some ⟨1, by decide⟩, none, none, none, none] ⟨0, 0⟩).pc = .returned true := by decide
  ⟨h, @sign_other_key_rejected .v1_0_2 ⟨[0], 0, 1, ⟨1, by decide⟩, ⟨G.mul 2, G_mul_onCurve 2⟩⟩ 2
    rfl (by decide) [some ⟨1, by decide⟩, none, none, none, none] ⟨0, 0⟩ h⟩

/-! ## The whole-message overloads -/

/-- The whole-message overloads sign and verify only the first `|m| mod 2 ^ 32`
bytes of a message, since {lit}`message.size()` is cut to an
{lit}`unsigned int`: a signature the whole-message {lit}`Sign` returns for `m`
under the key pair `(d, d·G)` verifies, with the whole-message {lit}`Verify`
on the same release, for every nonempty message that agrees with `m` on
those bytes.  Among them are `m ++ t` for every `t` of `2 ^ 32·j` bytes when
`m` is shorter than `2 ^ 32` bytes, and every message of `2 ^ 32·j` bytes
when `m` is one. -/
theorem signMessage_verifyMessage {lib : OpenSSL} {message message' : Bytes} {privkey : PrivKey}
    {pubkey : PubKey} (hP : pubkey.P = G.mul privkey.d.toNat) (hm' : message' ≠ [])
    (h : message.take (message.length % 2 ^ 32) = message'.take (message'.length % 2 ^ 32))
    (draws : List NonceDraw) (result : Signature)
    (hret : (signMessage lib message privkey pubkey draws result).pc = .returned true) :
    verifyMessage lib message' (signMessage lib message privkey pubkey draws result).result pubkey =
      .returned true := by
  have hpost := signPost_of_sign hret
  exact verify_eq_true_of_G_mul (inputChecks_whole hm') (by linarith [privkey.range.1])
    hpost.k_pos.le hP hpost.pubkey_ne hpost.commit_ne hpost.r_range hpost.s_range
    hpost.response_modEq (fits_whole message') (challengeDigest_whole_congr h _ _ ▸ hpost.reduces)

set_option maxRecDepth 100000 in
/-- The signature of the byte `0x00` under the key `1` verifies for the byte
`0x00` followed by `2 ^ 32` bytes `0x05`. -/
theorem signMessage_verifyMessage_appended :
    (⟨G, G_onCurve⟩ : PubKey).P = G.mul (1 : Int).toNat ∧
      (signMessage .v1_0_2 [0] ⟨1, by decide⟩ ⟨G, G_onCurve⟩
        [some ⟨1, by decide⟩, none, none, none, none] ⟨0, 0⟩).pc = .returned true ∧
      verifyMessage .v1_0_2 (0 :: List.replicate (2 ^ 32) 5)
        (signMessage .v1_0_2 [0] ⟨1, by decide⟩ ⟨G, G_onCurve⟩
          [some ⟨1, by decide⟩, none, none, none, none] ⟨0, 0⟩).result ⟨G, G_onCurve⟩ =
        .returned true :=
  have hlen : (0 :: List.replicate (2 ^ 32) (5 : UInt8)).length % 2 ^ 32 = 1 := by
    rw [List.length_cons, List.length_replicate]
    norm_num
  have hpre : ([0] : Bytes).take (([0] : Bytes).length % 2 ^ 32) =
      (0 :: List.replicate (2 ^ 32) 5 : Bytes).take
        ((0 :: List.replicate (2 ^ 32) 5 : Bytes).length % 2 ^ 32) := by
    rw [hlen, List.take_succ_cons, List.take_zero]
    rfl
  have hP : (⟨G, G_onCurve⟩ : PubKey).P = G.mul (1 : Int).toNat := by decide
  have h : (signMessage .v1_0_2 [0] ⟨1, by decide⟩ ⟨G, G_onCurve⟩
      [some ⟨1, by decide⟩, none, none, none, none] ⟨0, 0⟩).pc = .returned true := by decide
  ⟨hP, h, @signMessage_verifyMessage .v1_0_2 [0] (0 :: List.replicate (2 ^ 32) 5) ⟨1, by decide⟩
    ⟨G, G_onCurve⟩ hP (List.cons_ne_nil _ _) hpre [some ⟨1, by decide⟩, none, none, none, none]
    ⟨0, 0⟩ h⟩

end LibSchnorr
