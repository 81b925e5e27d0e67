import SchnorrLean.Schnorr.Verify

/-!
# The multi-signature protocol

The sources of the multi-signature classes ({lit}`MultiSig.cpp`,
{lit}`MultiSig_CommitSecret.cpp`, {lit}`MultiSig_Response.cpp`, ...) are not
in the repository; this module follows the protocol as the specification
describes it.  Each signer holds a private key `dᵢ` and a commit secret
`kᵢ ∈ [1, n − 1]`; the aggregator sums the commit points `Qᵢ = kᵢ·G` and the
public keys `Pᵢ = dᵢ·G`, aborts if `Q_agg = O` or `P_agg = O` (an identity
point aborts the round), hashes the challenge `r = H(Q_agg ‖ P_agg ‖ m) mod n`
exactly as {lit}`Sign` does, aborts if `r = 0`, collects the responses
`sᵢ = (kᵢ − r·dᵢ) mod n`, restarts if one is `0`, and emits
`(r, Σ sᵢ mod n)`.  The commit-and-reveal round on the hashes of the `Qᵢ`
always passes for honest signers and is left out.

Since `Σ sᵢ + r·Σ dᵢ ≡ Σ kᵢ (mod n)`, {lit}`Verify` rebuilds `Q_agg` from the
signature under `P_agg` and hashes the string the aggregator hashed.  It
still rejects the aggregate response `0`, which the protocol does not check,
and it reduces the digest with {lit}`BN_nnmod(…, NULL)`, which crashes on
OpenSSL 3.0 and on a digest of at least `n`.

Main results:

- {lit}`MultiSig.multiSign_eq_some_iff`: when the protocol emits a signature;
- {lit}`MultiSig.multiSign_verifyPasses`: on an emitted signature under
  `P_agg`, {lit}`Verify` rebuilds `Q_agg` and passes its tests before the
  hash unless the response is `0`;
- {lit}`MultiSig.verify_multiSign_iff`: it accepts exactly when the response
  is not `0`, the window lies inside the message and {lit}`BN_nnmod` returns;
- {lit}`MultiSig.verify_multiSign_crashes`: an honest two-signer signature on
  which {lit}`Verify` crashes on OpenSSL 3.0.
-/

namespace LibSchnorr

open Secp256k1

namespace MultiSig

/-- {lit}`CommitSecret`: a scalar `k ∈ [1, n − 1]`. -/
structure CommitSecret where
  k : Int
  range : 1 ≤ k ∧ k < groupOrder

/-- A signer: its private key and its commit secret for this signing. -/
structure Signer where
  privkey : PrivKey
  secret : CommitSecret

/-- {lit}`PubKey(privkey)`: `P = d·G`. -/
def pubKeyOf (privkey : PrivKey) : PubKey := ⟨G.mul privkey.d.toNat, G_mul_onCurve _⟩

/-- {lit}`CommitPoint(secret)`: `Q = k·G`. -/
def commitPoint (secret : CommitSecret) : ECPoint := G.mul secret.k.toNat

/-- The sum of points with {lit}`EC_POINT_add`, from the point at infinity. -/
def aggregatePoints (points : List ECPoint) : ECPoint :=
  points.foldl ECPoint.add .infinity

theorem foldl_add_onCurve (points : List ECPoint) (h : ∀ P ∈ points, P.OnCurve) :
    ∀ {acc : ECPoint}, acc.OnCurve → (points.foldl ECPoint.add acc).OnCurve := by
  induction points with
  | nil => exact fun hacc => hacc
  | cons P points ih =>
    intro acc hacc
    rw [List.forall_mem_cons] at h
    exact ih h.2 (add_onCurve hacc h.1)

/-- `P_agg = Σ Pᵢ`, a public key again. -/
def aggregatePubKeys (pubkeys : List PubKey) : PubKey :=
  ⟨aggregatePoints (pubkeys.map PubKey.P),
    foldl_add_onCurve _ (by simp only [List.mem_map]; rintro _ ⟨p, -, rfl⟩; exact p.onCurve)
      ECPoint.onCurve_infinity⟩

/-- `Q_agg = Σ Qᵢ`. -/
def aggregateCommits (commits : List ECPoint) : ECPoint := aggregatePoints commits

/-- {lit}`Response`: `sᵢ = (kᵢ − r·dᵢ) mod n`. -/
def response (secret : CommitSecret) (r : Int) (privkey : PrivKey) : Int :=
  (secret.k - r * privkey.d) % groupOrder

/-- The aggregate response `s = Σ sᵢ mod n`. -/
def aggregateResponses (responses : List Int) : Int := responses.sum % groupOrder

/-- The aggregate public key of the signers. -/
def aggregateKey (signers : List Signer) : PubKey :=
  aggregatePubKeys (signers.map fun signer => pubKeyOf signer.privkey)

/-- The aggregate commitment of the signers. -/
def aggregateCommit (signers : List Signer) : ECPoint :=
  aggregateCommits (signers.map fun signer => commitPoint signer.secret)

/-- The responses of the signers to the challenge `r`. -/
def responses (signers : List Signer) (r : Int) : List Int :=
  signers.map fun signer => response signer.secret r signer.privkey

/-- {lit}`Challenge`: `r = H(Q_agg ‖ P_agg ‖ m[offset, offset + size)) mod n`. -/
def aggregateChallenge (signers : List Signer) (message : Bytes) (offset size : UInt32) : Int :=
  challenge (aggregateCommit signers) (aggregateKey signers).P message offset size

/-- One signing by honest signers on the window `[offset, offset + size)` of
`message`: the signature `(r, Σ sᵢ mod n)`, or {lit}`none` when the protocol
aborts (`Q_agg = O`, `P_agg = O` or `r = 0`) or restarts (some `sᵢ = 0`). -/
def multiSign (signers : List Signer) (message : Bytes) (offset size : UInt32) :
    Option Signature :=
  if aggregateCommit signers = .infinity then none
  else if (aggregateKey signers).P = .infinity then none
  else
    let r := aggregateChallenge signers message offset size
    if r = 0 then none
    else if 0 ∈ responses signers r then none
    else some ⟨r, aggregateResponses (responses signers r)⟩

/-! ## Sums of multiples of `G` -/

theorem foldl_add_G_mul (xs : List Int) (h : ∀ x ∈ xs, 0 ≤ x) :
    ∀ {a : Int}, 0 ≤ a →
      (xs.map fun x => G.mul x.toNat).foldl ECPoint.add (G.mul a.toNat) = G.mul (a + xs.sum).toNat := by
  induction xs with
  | nil => simp
  | cons x xs ih =>
    intro a ha
    rw [List.forall_mem_cons] at h
    rw [List.map_cons, List.foldl_cons, G_mul_add, ← Int.toNat_add ha h.1, ih h.2 (by omega),
      List.sum_cons, add_assoc]

/-- A sum of multiples `xᵢ·G` is `(Σ xᵢ)·G`. -/
theorem aggregatePoints_G_mul (xs : List Int) (h : ∀ x ∈ xs, 0 ≤ x) :
    aggregatePoints (xs.map fun x => G.mul x.toNat) = G.mul xs.sum.toNat := by
  have h0 : (ECPoint.infinity : ECPoint) = G.mul (0 : Int).toNat := rfl
  rw [aggregatePoints, h0, foldl_add_G_mul xs h le_rfl, zero_add]

/-- Over the signers, `Σ f(signer)·G = (Σ f(signer))·G` for nonnegative scalars. -/
theorem aggregatePoints_map_G_mul (signers : List Signer) {f : Signer → Int}
    (hf : ∀ signer, 0 ≤ f signer) :
    aggregatePoints (signers.map fun signer => G.mul (f signer).toNat) =
      G.mul (signers.map f).sum.toNat := by
  have h := aggregatePoints_G_mul (signers.map f) (List.forall_mem_map.mpr fun signer _ => hf signer)
  rwa [List.map_map] at h

/-- `P_agg = (Σ dᵢ)·G`. -/
theorem aggregateKey_eq (signers : List Signer) :
    (aggregateKey signers).P = G.mul (signers.map fun signer : Signer => signer.privkey.d).sum.toNat := by
  simp only [aggregateKey, aggregatePubKeys, pubKeyOf, List.map_map]
  exact aggregatePoints_map_G_mul signers fun signer => by linarith [signer.privkey.range.1]

/-- `Q_agg = (Σ kᵢ)·G`. -/
theorem aggregateCommit_eq (signers : List Signer) :
    aggregateCommit signers = G.mul (signers.map fun signer : Signer => signer.secret.k).sum.toNat :=
  aggregatePoints_map_G_mul signers fun signer => by linarith [signer.secret.range.1]

/-- `Σ sᵢ ≡ Σ kᵢ − r·Σ dᵢ (mod n)`. -/
theorem sum_responses_modEq (signers : List Signer) (r : Int) :
    (responses signers r).sum ≡ (signers.map fun signer => signer.secret.k).sum -
      r * (signers.map fun signer => signer.privkey.d).sum [ZMOD groupOrder] := by
  induction signers with
  | nil => simp [responses]
  | cons signer signers ih =>
    simp only [responses, response, List.map_cons, List.sum_cons] at ih ⊢
    calc (signer.secret.k - r * signer.privkey.d) % groupOrder +
          (signers.map fun s => (s.secret.k - r * s.privkey.d) % groupOrder).sum
        ≡ (signer.secret.k - r * signer.privkey.d) +
          ((signers.map fun s => s.secret.k).sum - r * (signers.map fun s => s.privkey.d).sum)
          [ZMOD groupOrder] := (Int.mod_modEq _ _).add ih
      _ = _ := by ring

/-- Under `P_agg`, {lit}`Verify` rebuilds `s·G + r·P_agg = Q_agg` from the
aggregate response `s`, since `s + r·Σ dᵢ ≡ Σ kᵢ (mod n)`. -/
theorem pointMul_aggregateKey (signers : List Signer) {r : Int} (hr : 0 ≤ r) :
    pointMul (aggregateResponses (responses signers r)).toNat (aggregateKey signers).P r.toNat =
      aggregateCommit signers := by
  have hmod := ((Int.mod_modEq _ _).trans (sum_responses_modEq signers r)).add_right
    (r * (signers.map fun signer => signer.privkey.d).sum)
  rw [sub_add_cancel] at hmod
  have hsum (f : Signer → Int) (hf : ∀ signer, 1 ≤ f signer) : 0 ≤ (signers.map f).sum :=
    List.sum_nonneg (List.forall_mem_map.mpr fun signer _ => by linarith [hf signer])
  rw [aggregateKey_eq, aggregateCommit_eq]
  exact pointMul_G_mul_eq hr (Int.emod_nonneg _ (by exact_mod_cast groupOrder_pos.ne'))
    (hsum _ fun signer => signer.privkey.range.1) (hsum _ fun signer => signer.secret.range.1) hmod

/-! ## The protocol's output -/

/-- When the protocol emits a signature: `Q_agg ≠ O`, the challenge `r ≠ 0`,
every response nonzero, and the signature is `(r, Σ sᵢ mod n)`. -/
theorem multiSign_eq_some_iff {signers : List Signer} {message : Bytes} {offset size : UInt32}
    {sig : Signature} :
    multiSign signers message offset size = some sig ↔
      aggregateCommit signers ≠ .infinity ∧ (aggregateKey signers).P ≠ .infinity ∧
        aggregateChallenge signers message offset size ≠ 0 ∧
        0 ∉ responses signers (aggregateChallenge signers message offset size) ∧
        sig = ⟨aggregateChallenge signers message offset size,
          aggregateResponses (responses signers (aggregateChallenge signers message offset size))⟩ := by
  dsimp only [multiSign]
  split_ifs with hQ hP hr hz
  · simp [hQ]
  · simp [hP]
  · simp [hr]
  · simp [hz]
  · constructor
    · rintro ⟨⟩
      exact ⟨hQ, hP, hr, hz, rfl⟩
    · rintro ⟨-, -, -, -, rfl⟩
      rfl

section Verify

variable {lib : OpenSSL} {signers : List Signer} {message : Bytes} {offset size : UInt32}
  {sig : Signature}

/-- On a signature the protocol emits, {lit}`Verify` rebuilds `Q_agg` under
`P_agg`, and its tests before the hash fail exactly on the response `0`. -/
theorem multiSign_verifyPasses (h : multiSign signers message offset size = some sig) :
    pointMul sig.s.toNat (aggregateKey signers).P sig.r.toNat = aggregateCommit signers ∧
      (VerifyPasses sig (aggregateKey signers) ↔ sig.s ≠ 0) := by
  obtain ⟨hQ, hP, hr, -, rfl⟩ := multiSign_eq_some_iff.mp h
  have hn : (0 : Int) < groupOrder := by exact_mod_cast groupOrder_pos
  have hr0 : 0 ≤ aggregateChallenge signers message offset size :=
    challenge_nonneg (aggregateCommit signers) (aggregateKey signers).P message offset size
  have hrn : aggregateChallenge signers message offset size < groupOrder :=
    challenge_lt (aggregateCommit signers) (aggregateKey signers).P message offset size
  refine ⟨pointMul_aggregateKey signers hr0, ?_⟩
  simp only [VerifyPasses, pointMul_aggregateKey signers hr0]
  exact ⟨fun h => h.2.1.1.ne', fun hs => ⟨⟨lt_of_le_of_ne hr0 (Ne.symm hr), hrn⟩,
    ⟨lt_of_le_of_ne (Int.emod_nonneg _ hn.ne') (Ne.symm hs), Int.emod_lt_of_pos _ hn⟩, hQ, hP⟩⟩

/-- A signature the protocol emits verifies under `P_agg` exactly when its
response is not `0`, the window lies inside the message, and the release is
OpenSSL 1.0.2 with the digest below `n`. -/
theorem verify_multiSign_iff (hchk : inputChecks message offset size = true)
    (h : multiSign signers message offset size = some sig) :
    verify lib message offset size sig (aggregateKey signers) = .returned true ↔
      sig.s ≠ 0 ∧ offset.toNat + size.toNat ≤ message.length ∧ lib = .v1_0_2 ∧
        challengeDigest (aggregateCommit signers) (aggregateKey signers).P message offset size <
          groupOrder := by
  obtain ⟨-, -, -, -, rfl⟩ := multiSign_eq_some_iff.mp h
  obtain ⟨hQ, hpass⟩ := multiSign_verifyPasses h
  rw [verify_eq_returned_true_iff hchk, hpass, hQ, nnmod_eq_some_iff]
  exact and_congr_right fun _ => and_congr_right fun _ =>
    ⟨fun ⟨hlib, hlt, _⟩ => ⟨hlib, hlt⟩, fun ⟨hlib, hlt⟩ => ⟨hlib, hlt,
      (toNat_eq_iff_eq_challenge (challenge_nonneg _ _ _ _ _) hlt).mpr rfl⟩⟩

end Verify

set_option maxRecDepth 100000 in
/-- A single signer with the key `1` and the commit secret `1` on the byte
`0x00`, on OpenSSL 1.0.2: the protocol emits `(r, 1 − r mod n)` for the
challenge `r` of `G` and `G`, and {lit}`Verify` accepts it. -/
theorem verify_multiSign_one_signer :
    inputChecks [0] 0 1 = true ∧
      multiSign [⟨⟨1, by decide⟩, ⟨1, by decide⟩⟩] [0] 0 1 =
        some ⟨46381042658283069635514506644814270937630946372922871300197614930619448913015,
          69411046579033125788056478363873636915206617906152033082407548210898712581323⟩ ∧
      (verify .v1_0_2 [0] 0 1
          ⟨46381042658283069635514506644814270937630946372922871300197614930619448913015,
            69411046579033125788056478363873636915206617906152033082407548210898712581323⟩
          (aggregateKey [⟨⟨1, by decide⟩, ⟨1, by decide⟩⟩]) = .returned true ↔
        (⟨46381042658283069635514506644814270937630946372922871300197614930619448913015,
            69411046579033125788056478363873636915206617906152033082407548210898712581323⟩ :
              Signature).s ≠ 0 ∧
          (0 : UInt32).toNat + (1 : UInt32).toNat ≤ ([0] : Bytes).length ∧
          OpenSSL.v1_0_2 = .v1_0_2 ∧
          challengeDigest (aggregateCommit [⟨⟨1, by decide⟩, ⟨1, by decide⟩⟩])
            (aggregateKey [⟨⟨1, by decide⟩, ⟨1, by decide⟩⟩]).P [0] 0 1 < groupOrder) :=
  have hchk : inputChecks [0] 0 1 = true := by decide
  have h : multiSign [⟨⟨1, by decide⟩, ⟨1, by decide⟩⟩] [0] 0 1 =
      some ⟨46381042658283069635514506644814270937630946372922871300197614930619448913015,
        69411046579033125788056478363873636915206617906152033082407548210898712581323⟩ := by
    decide
  ⟨hchk, h, verify_multiSign_iff hchk h⟩

set_option maxRecDepth 100000 in
/-- Two honest signers with the keys `1` and `2` and the commit secrets `1`
and `1` on the byte `0x00`: the protocol does not abort, since `Q_agg = 2·G`,
`P_agg = 3·G`, the challenge and both responses are nonzero, and it emits a
signature whose response is not `0`; on OpenSSL 3.0 {lit}`Verify` crashes on
it in {lit}`BN_nnmod`. -/
theorem verify_multiSign_crashes :
    inputChecks [0] 0 1 = true ∧
      multiSign [⟨⟨1, by decide⟩, ⟨1, by decide⟩⟩, ⟨⟨2, by decide⟩, ⟨1, by decide⟩⟩] [0] 0 1 =
        some ⟨15940782152462158955967909652437638403803527565639513241096710302695195101568,
          67969742779929718555667256051374992641426981582156364659315032233432576189635⟩ ∧
      verify .v3_0 [0] 0 1
        ⟨15940782152462158955967909652437638403803527565639513241096710302695195101568,
          67969742779929718555667256051374992641426981582156364659315032233432576189635⟩
        (aggregateKey [⟨⟨1, by decide⟩, ⟨1, by decide⟩⟩, ⟨⟨2, by decide⟩, ⟨1, by decide⟩⟩]) =
        .crashed := by
  have hchk : inputChecks [0] 0 1 = true := by decide
  have h : multiSign [⟨⟨1, by decide⟩, ⟨1, by decide⟩⟩, ⟨⟨2, by decide⟩, ⟨1, by decide⟩⟩] [0] 0 1 =
      some ⟨15940782152462158955967909652437638403803527565639513241096710302695195101568,
        67969742779929718555667256051374992641426981582156364659315032233432576189635⟩ := by
    decide
  obtain ⟨hQ, hpass⟩ := multiSign_verifyPasses h
  refine ⟨hchk, h, (verify_eq_crashed_iff hchk _ _).mpr
    ⟨hpass.mpr (by decide), by decide, by rw [hQ]; rfl⟩⟩

end MultiSig

end LibSchnorr
