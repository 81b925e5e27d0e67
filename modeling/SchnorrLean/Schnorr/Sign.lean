import SchnorrLean.Schnorr.Types

/-!
# {lit}`Schnorr::Sign` as a state machine

{lit}`Schnorr::Sign` checks its window, then loops: an inner loop draws
nonces with {lit}`BN_generate_dsa_nonce` until one is nonzero; the body
computes the commitment `Q = k·G`, hashes the compressed encodings of `Q` and
of the public key and the message window, reduces the digest to
`r = H mod n` with {lit}`BN_nnmod(r, r, order, NULL)`, computes
`s = (k − r·d) mod n`, resets the hash object, and repeats while `r = 0` or
`s = 0`.  Every failure of OpenSSL returns {lit}`false` at once.  Two steps
can end the call without a return: hashing a window that leaves the message
reads out of range, and {lit}`BN_nnmod` without a context crashes unless it
runs on OpenSSL 1.0.2 and the digest is already below `n`.

The model is a step function over the program points of that loop, for one
OpenSSL release.  The nonce is the only input the code does not determine:
{lit}`BN_generate_dsa_nonce` mixes fresh random bytes into every call, so
each step is given the value that call returns, and reads it only at the
nonce draw.  A run is a list of such draws, so a statement over all lists
covers every nonce sequence.  The scratch buffer {lit}`buf` is not
modelled: each use overwrites all 33 bytes before they are hashed.

Main results:

- {lit}`sign_reachable_inv`: along every run the hash object holds exactly
  the octets fed to it since the last reset, and a successful return carries
  a signature `(r, s)` with `r` the digest of `k·G` that {lit}`BN_nnmod`
  returned and `s = (k − r·d) mod n` for the last nonce `k`
  ({lit}`SignPost`);
- {lit}`sign_returns_first_iteration`: a first draw whose `r` and `s` are
  nonzero returns {lit}`true` after five steps;
- {lit}`sign_append_of_isLoopHead`: after a rejected iteration, {lit}`Sign`
  goes on as a fresh call would on the draws that remain;
- {lit}`sign_returned_false`: under a key other than infinity, a failure comes
  from a failed nonce draw;
- {lit}`sign_result_of_not_returned_true`: until {lit}`Sign` returns
  {lit}`true`, its result object holds the caller's value or a rejected pair.
-/

namespace LibSchnorr

open Secp256k1

/-- The arguments of {lit}`Schnorr::Sign`. -/
structure SignInput where
  message : Bytes
  offset : UInt32
  size : UInt32
  privkey : PrivKey
  pubkey : PubKey

/-- The program points of {lit}`Schnorr::Sign`. -/
inductive SignPc where
  /-- The inner loop around {lit}`BN_generate_dsa_nonce`. -/
  | drawNonce
  /-- `Q = k·G`, its octets, and their hashing. -/
  | commit
  /-- The octets of the public key, and their hashing. -/
  | hashPubKey
  /-- The hashing of the message window. -/
  | hashMessage
  /-- The digest, `r`, `s`, the rejection test and the reset of the hash. -/
  | challenge
  /-- The function has returned `ok`. -/
  | returned (ok : Bool)
  /-- {lit}`BN_nnmod` has crashed the process. -/
  | crashed
  /-- {lit}`sha2.Update(message, offset, size)` has read past the message. -/
  | readOutOfBounds
deriving DecidableEq, Repr

/-- The local state of {lit}`Schnorr::Sign`. -/
structure SignState where
  pc : SignPc
  k : Int
  Q : ECPoint
  sha2 : SHA2
  result : Signature
deriving DecidableEq, Repr

/-- The state after the initial checks; {lit}`result` is the caller's object. -/
def signInit (inp : SignInput) (result : Signature) : SignState where
  pc := if inputChecks inp.message inp.offset inp.size then .drawNonce else .returned false
  k := 0
  Q := .infinity
  sha2 := SHA2.init
  result := result

/-- One step of {lit}`Schnorr::Sign` on the release `lib`; `draw` is what
{lit}`BN_generate_dsa_nonce` returns if the step calls it.  A crash leaves the
state as the step found it: the process is gone. -/
def signStep (lib : OpenSSL) (inp : SignInput) (draw : NonceDraw) (st : SignState) : SignState :=
  match st.pc with
  | .drawNonce =>
    match draw with
    | none => { st with pc := .returned false }
    | some k => if (k : Int) = 0 then { st with k := 0 } else { st with pc := .commit, k := k }
  | .commit =>
    let Q := G.mul st.k.toNat
    let buf := point2oct .compressed Q
    if buf.length ≠ 33 then { st with pc := .returned false, Q := Q }
    else { st with pc := .hashPubKey, Q := Q, sha2 := st.sha2.update buf }
  | .hashPubKey =>
    let buf := point2oct .compressed inp.pubkey.P
    if buf.length ≠ 33 then { st with pc := .returned false }
    else { st with pc := .hashMessage, sha2 := st.sha2.update buf }
  | .hashMessage =>
    match st.sha2.updateWindow inp.message inp.offset.toNat inp.size.toNat with
    | none => { st with pc := .readOutOfBounds }
    | some sha2 => { st with pc := .challenge, sha2 := sha2 }
  | .challenge =>
    match nnmod lib (bin2bn st.sha2.finalize) groupOrder with
    | none => { st with pc := .crashed }
    | some r =>
      let s : Int := (st.k - (r : Int) * inp.privkey.d % groupOrder) % groupOrder
      { st with pc := if (r : Int) = 0 ∨ s = 0 then .drawNonce else .returned true,
                sha2 := st.sha2.reset,
                result := ⟨r, s⟩ }
  | .returned _ | .crashed | .readOutOfBounds => st

/-- A run of {lit}`Schnorr::Sign`: one step per draw. -/
def signRun (lib : OpenSSL) (inp : SignInput) (draws : List NonceDraw) (st : SignState) :
    SignState :=
  draws.foldl (fun st draw => signStep lib inp draw st) st

/-- {lit}`Schnorr::Sign(message, offset, size, privkey, pubkey, result)` on the
release `lib` with the nonce draws `draws`: the state reached, whose program
point tells whether and what it returned, and whose {lit}`result` is the
caller's signature object. -/
def sign (lib : OpenSSL) (inp : SignInput) (draws : List NonceDraw) (result : Signature) :
    SignState :=
  signRun lib inp draws (signInit inp result)

/-- {lit}`Schnorr::Sign(message, privkey, pubkey, result)`: the whole message,
with {lit}`message.size()` passed as the {lit}`unsigned int` size. -/
def signMessage (lib : OpenSSL) (message : Bytes) (privkey : PrivKey) (pubkey : PubKey)
    (draws : List NonceDraw) (result : Signature) : SignState :=
  sign lib ⟨message, 0, UInt32.ofNat message.length, privkey, pubkey⟩ draws result

section Run

variable {lib : OpenSSL} {inp : SignInput}

@[simp] theorem signRun_nil (st : SignState) : signRun lib inp [] st = st := rfl

@[simp] theorem signRun_cons (draw : NonceDraw) (draws : List NonceDraw) (st : SignState) :
    signRun lib inp (draw :: draws) st = signRun lib inp draws (signStep lib inp draw st) :=
  rfl

theorem signRun_append (a b : List NonceDraw) (st : SignState) :
    signRun lib inp (a ++ b) st = signRun lib inp b (signRun lib inp a st) := by
  simp [signRun, List.foldl_append]

/-- Whether the program point ends the call: a return, a crash or an
out-of-range read. -/
def SignPc.halted : SignPc → Bool
  | .returned _ | .crashed | .readOutOfBounds => true
  | _ => false

/-- A final program point is never left. -/
theorem signRun_halted (draws : List NonceDraw) {st : SignState} (h : st.pc.halted = true) :
    signRun lib inp draws st = st := by
  have hstep : ∀ draw, signStep lib inp draw st = st := by
    intro draw
    obtain ⟨pc, k, Q, sha2, result⟩ := st
    cases pc <;> first | rfl | cases h
  induction draws with
  | nil => rfl
  | cons draw draws ih => rw [signRun_cons, hstep, ih]

theorem signRun_returned (draws : List NonceDraw) {st : SignState} {ok : Bool}
    (h : st.pc = .returned ok) : signRun lib inp draws st = st :=
  signRun_halted draws (by rw [h]; rfl)

end Run

/-! ## The invariant -/

/-- What a successful {lit}`Sign` on the release `lib` guarantees about its
result `sig` and its last nonce `k`: the window lay inside the message, and
{lit}`BN_nnmod` returned `r` on the digest of `k·G`. -/
structure SignPost (lib : OpenSSL) (inp : SignInput) (k : Int) (sig : Signature) : Prop where
  k_pos : 0 < k
  k_lt : k < groupOrder
  commit_ne : G.mul k.toNat ≠ .infinity
  pubkey_ne : inp.pubkey.P ≠ .infinity
  fits : inp.offset.toNat + inp.size.toNat ≤ inp.message.length
  reduces : nnmod lib (challengeDigest (G.mul k.toNat) inp.pubkey.P inp.message inp.offset inp.size)
    groupOrder = some sig.r.toNat
  r_eq : sig.r = challenge (G.mul k.toNat) inp.pubkey.P inp.message inp.offset inp.size
  s_eq : sig.s = (k - sig.r * inp.privkey.d % groupOrder) % groupOrder
  r_ne : sig.r ≠ 0
  s_ne : sig.s ≠ 0

section Post

variable {lib : OpenSSL} {inp : SignInput} {k : Int} {sig : Signature}

/-- The response satisfies `s + r·d ≡ k (mod n)`. -/
theorem SignPost.response_modEq (h : SignPost lib inp k sig) :
    sig.s + sig.r * inp.privkey.d ≡ k [ZMOD groupOrder] := by
  rw [h.s_eq]
  calc (k - sig.r * inp.privkey.d % groupOrder) % groupOrder + sig.r * inp.privkey.d
      ≡ k - sig.r * inp.privkey.d % groupOrder + sig.r * inp.privkey.d [ZMOD groupOrder] :=
        (Int.mod_modEq _ _).add_right _
    _ ≡ k - sig.r * inp.privkey.d + sig.r * inp.privkey.d [ZMOD groupOrder] :=
        ((Int.ModEq.refl k).sub (Int.mod_modEq _ _)).add_right _
    _ = k := by ring

/-- The challenge lies in `[1, n − 1]`. -/
theorem SignPost.r_range (h : SignPost lib inp k sig) : 0 < sig.r ∧ sig.r < groupOrder :=
  ⟨lt_of_le_of_ne (h.r_eq ▸ challenge_nonneg _ _ _ _ _) (Ne.symm h.r_ne),
    h.r_eq ▸ challenge_lt _ _ _ _ _⟩

/-- The response lies in `[1, n − 1]`. -/
theorem SignPost.s_range (h : SignPost lib inp k sig) : 0 < sig.s ∧ sig.s < groupOrder := by
  have hn : (0 : Int) < groupOrder := by exact_mod_cast groupOrder_pos
  have hne := h.s_ne
  rw [h.s_eq] at hne ⊢
  exact ⟨lt_of_le_of_ne (Int.emod_nonneg _ hn.ne') (Ne.symm hne), Int.emod_lt_of_pos _ hn⟩

end Post

/-- A drawn nonce is in `(0, n)` and `Q` is its nonzero commitment. -/
def Committed (st : SignState) : Prop :=
  0 < st.k ∧ st.k < groupOrder ∧ st.Q = G.mul st.k.toNat ∧ st.Q ≠ .infinity

/-- The invariant of {lit}`Schnorr::Sign` on the release `lib`, by program point. -/
def SignInv (lib : OpenSSL) (inp : SignInput) (st : SignState) : Prop :=
  match st.pc with
  | .drawNonce => st.sha2 = SHA2.init
  | .commit => st.sha2 = SHA2.init ∧ 0 < st.k ∧ st.k < groupOrder
  | .hashPubKey => Committed st ∧ st.sha2.absorbed = point2oct .compressed st.Q
  | .hashMessage => Committed st ∧ inp.pubkey.P ≠ .infinity ∧
      st.sha2.absorbed = point2oct .compressed st.Q ++ point2oct .compressed inp.pubkey.P
  | .challenge => Committed st ∧ inp.pubkey.P ≠ .infinity ∧
      inp.offset.toNat + inp.size.toNat ≤ inp.message.length ∧
      st.sha2.absorbed = point2oct .compressed st.Q ++ point2oct .compressed inp.pubkey.P ++
        window inp.message inp.offset.toNat inp.size.toNat
  | .returned true => SignPost lib inp st.k st.result
  | _ => True

/-- The point at infinity encodes to one byte in every form. -/
theorem length_point2oct_infinity (form : ConversionForm) :
    (point2oct form .infinity).length = 1 := rfl

/-- A point whose encoding passed the 33-byte test is not the point at infinity. -/
theorem ne_infinity_of_length {P : ECPoint} {form : ConversionForm}
    (h : ¬(point2oct form P).length ≠ 33) : P ≠ .infinity := by
  rintro rfl
  exact h (by rw [length_point2oct_infinity]; decide)

section Inv

variable {lib : OpenSSL} {inp : SignInput}

theorem signInit_inv (result : Signature) : SignInv lib inp (signInit inp result) := by
  by_cases h : inputChecks inp.message inp.offset inp.size = true <;> simp [SignInv, signInit, h]

/-- The challenge step on the invariant: {lit}`BN_nnmod` crashes, or returns the
digest `r` of the hashed string, and the step rejects `(r, s)` or returns it
with {lit}`SignPost`. -/
theorem signStep_challenge_inv {k : Int} {Q : ECPoint} {sha2 : SHA2} {result : Signature}
    (draw : NonceDraw) (h : SignInv lib inp ⟨.challenge, k, Q, sha2, result⟩) :
    SignInv lib inp (signStep lib inp draw ⟨.challenge, k, Q, sha2, result⟩) := by
  dsimp only [SignInv, Committed] at h
  obtain ⟨⟨hk0, hkn, rfl, hQ⟩, hP, hfit, habs⟩ := h
  have hdig : bin2bn sha2.finalize =
      challengeDigest (G.mul k.toNat) inp.pubkey.P inp.message inp.offset inp.size := by
    rw [SHA2.finalize, habs]
    rfl
  simp only [signStep, hdig]
  split
  · trivial
  · rename_i r hr
    split_ifs with hrej
    · rfl
    · push_neg at hrej
      exact ⟨hk0, hkn, hQ, hP, hfit, by rw [Int.toNat_natCast]; exact hr,
        (challenge_eq_of_nnmod hr).symm, rfl, hrej.1, hrej.2⟩

/-- One step keeps the invariant, whatever the nonce draw. -/
theorem signStep_inv {st : SignState} (draw : NonceDraw) (h : SignInv lib inp st) :
    SignInv lib inp (signStep lib inp draw st) := by
  obtain ⟨pc, k, Q, sha2, result⟩ := st
  cases pc <;> dsimp only [SignInv, Committed] at h
  case drawNonce =>
    cases draw with
    | none => trivial
    | some k' =>
      by_cases hk : (k' : Int) = 0
      · simp [signStep, SignInv, hk, h]
      · simp only [signStep, SignInv, hk, if_false, h, true_and]
        exact ⟨by omega, by exact_mod_cast k'.isLt⟩
  case commit =>
    obtain ⟨rfl, hk0, hkn⟩ := h
    simp only [signStep]
    split_ifs with hlen
    · trivial
    · exact ⟨⟨hk0, hkn, rfl, ne_infinity_of_length hlen⟩, by simp⟩
  case hashPubKey =>
    obtain ⟨hc, habs⟩ := h
    simp only [signStep]
    split_ifs with hlen
    · trivial
    · exact ⟨hc, ne_infinity_of_length hlen, by simp [habs]⟩
  case hashMessage =>
    obtain ⟨hc, hP, habs⟩ := h
    simp only [signStep]
    split
    · trivial
    · rename_i sha2' hupd
      obtain ⟨hfit, habs'⟩ := SHA2.updateWindow_eq_some_iff.mp hupd
      exact ⟨hc, hP, hfit, by rw [habs', habs]⟩
  case challenge => exact signStep_challenge_inv draw h
  case returned ok => exact h
  case crashed => trivial
  case readOutOfBounds => trivial

/-- Every run keeps the invariant. -/
theorem signRun_inv (draws : List NonceDraw) {st : SignState} (h : SignInv lib inp st) :
    SignInv lib inp (signRun lib inp draws st) := by
  induction draws generalizing st with
  | nil => exact h
  | cons draw draws ih => exact ih (signStep_inv draw h)

end Inv

/-- Every state {lit}`Sign` reaches, whatever its nonce draws, satisfies the
invariant of its program point: at the top of the loop the hash object is
fresh; after the commitment it has absorbed exactly the encoding of
`Q = k·G ≠ O` for a nonce `0 < k < n`, then that of the key, then the message
window, which lies inside the message; and a return of {lit}`true` carries
{lit}`SignPost`. -/
theorem sign_reachable_inv (lib : OpenSSL) (inp : SignInput) (draws : List NonceDraw)
    (result : Signature) : SignInv lib inp (sign lib inp draws result) :=
  signRun_inv draws (signInit_inv result)

section Sign

variable {lib : OpenSSL} {inp : SignInput} {draws : List NonceDraw} {result : Signature}

/-- A successful run of {lit}`Sign`, whatever its nonces, returns a signature
with the guarantees of {lit}`SignPost` for its last nonce. -/
theorem signPost_of_sign (h : (sign lib inp draws result).pc = .returned true) :
    SignPost lib inp (sign lib inp draws result).k (sign lib inp draws result).result := by
  have hinv : SignInv lib inp (sign lib inp draws result) :=
    signRun_inv draws (signInit_inv result)
  unfold SignInv at hinv
  rwa [h] at hinv

/-- A run that failed the initial checks returns {lit}`false` at once, and stays
there. -/
theorem inputChecks_of_sign (h : (sign lib inp draws result).pc ≠ .returned false) :
    inputChecks inp.message inp.offset inp.size = true := by
  by_contra hchk
  have hinit : (signInit inp result).pc = .returned false := by simp [signInit, hchk]
  rw [sign, signRun_returned draws hinit, hinit] at h
  exact h rfl

end Sign

/-! ## Agreement of runs -/

/-- Whether the code still reads the nonce {lit}`k` from this program point on,
before drawing a new one. -/
def SignPc.readsNonce : SignPc → Prop
  | .commit | .hashPubKey | .hashMessage | .challenge => True
  | _ => False

/-- Two states agree on everything the rest of {lit}`Sign` reads, and on what a
return of {lit}`true` hands back. -/
def SignState.Agree (a b : SignState) : Prop :=
  a.pc = b.pc ∧ a.sha2 = b.sha2 ∧ (a.pc.readsNonce → a.k = b.k) ∧
    (a.pc = .returned true → a.k = b.k ∧ a.result = b.result)

section Agree

variable {lib : OpenSSL} {inp : SignInput}

/-- Agreeing states step to agreeing states. -/
theorem signStep_agree {a b : SignState} (draw : NonceDraw) (h : a.Agree b) :
    (signStep lib inp draw a).Agree (signStep lib inp draw b) := by
  obtain ⟨pc, k, Q, sha2, result⟩ := a
  obtain ⟨pc', k', Q', sha2', result'⟩ := b
  obtain ⟨hpc, hsha, hk, hres⟩ := h
  dsimp only at hpc hsha hk hres
  subst hpc hsha
  cases pc
  case drawNonce =>
    cases draw with
    | none => exact ⟨rfl, rfl, nofun, nofun⟩
    | some j =>
      by_cases hj : (j : Int) = 0 <;>
        simp [signStep, SignState.Agree, hj, SignPc.readsNonce]
  case returned ok => exact ⟨rfl, rfl, nofun, hres⟩
  case crashed => exact ⟨rfl, rfl, nofun, nofun⟩
  case readOutOfBounds => exact ⟨rfl, rfl, nofun, nofun⟩
  -- the other points read the nonce, so both states hold the same one
  all_goals
    obtain rfl := hk trivial
    simp only [signStep]
    repeat' split
    all_goals simp [SignState.Agree, SignPc.readsNonce]

theorem signRun_agree (draws : List NonceDraw) {a b : SignState} (h : a.Agree b) :
    (signRun lib inp draws a).Agree (signRun lib inp draws b) := by
  induction draws generalizing a b with
  | nil => exact h
  | cons draw draws ih => exact ih (signStep_agree draw h)

end Agree

/-! ## The top of the loop -/

/-- The top of the loop: about to draw a nonce, with a fresh hash object. -/
def IsLoopHead (st : SignState) : Prop :=
  st.pc = .drawNonce ∧ st.sha2 = SHA2.init

instance : DecidablePred IsLoopHead := fun st =>
  inferInstanceAs (Decidable (st.pc = .drawNonce ∧ st.sha2 = SHA2.init))

/-- All states at the top of the loop agree. -/
theorem agree_of_isLoopHead {a b : SignState} (ha : IsLoopHead a) (hb : IsLoopHead b) :
    a.Agree b :=
  ⟨ha.1.trans hb.1.symm, ha.2.trans hb.2.symm, fun h => by rw [ha.1] at h; exact h.elim,
    fun h => by rw [ha.1] at h; cases h⟩

/-- Every reachable state at the nonce draw is at the top of the loop. -/
theorem isLoopHead_of_inv {lib : OpenSSL} {inp : SignInput} {st : SignState}
    (hinv : SignInv lib inp st) (hpc : st.pc = .drawNonce) : IsLoopHead st := by
  unfold SignInv at hinv
  rw [hpc] at hinv
  exact ⟨hpc, hinv⟩

/-- After a rejected iteration, or a redrawn zero nonce, {lit}`Sign` goes on
exactly as a fresh call would on the draws that remain: the hash object is
reset at the end of every iteration and everything else is written before it
is read.  Both calls end at the same program point, and when they return
{lit}`true` they return the same signature, with the same nonce. -/
theorem sign_append_of_isLoopHead {lib : OpenSSL} {inp : SignInput} {pre : List NonceDraw}
    {result : Signature} (h : IsLoopHead (sign lib inp pre result)) (draws : List NonceDraw)
    (result' : Signature) :
    (sign lib inp (pre ++ draws) result).pc = (sign lib inp draws result').pc ∧
      ((sign lib inp draws result').pc = .returned true →
        (sign lib inp (pre ++ draws) result).k = (sign lib inp draws result').k ∧
          (sign lib inp (pre ++ draws) result).result = (sign lib inp draws result').result) := by
  have hchk : inputChecks inp.message inp.offset inp.size = true :=
    inputChecks_of_sign (by rw [h.1]; exact nofun)
  have hinit : IsLoopHead (signInit inp result') := ⟨by simp [signInit, hchk], rfl⟩
  obtain ⟨hpc, -, -, hres⟩ := @signRun_agree lib inp draws _ _ (agree_of_isLoopHead h hinit)
  rw [sign, signRun_append]
  exact ⟨hpc, fun hret => hres (hpc.trans hret)⟩

/-- A zero nonce is redrawn: after it, the run is that of a fresh call. -/
theorem sign_append_of_isLoopHead_zero :
    IsLoopHead (sign .v1_0_2 ⟨[0], 0, 1, ⟨1, by decide⟩, ⟨G, G_onCurve⟩⟩ [some ⟨0, by decide⟩]
        ⟨0, 0⟩) ∧
      ((sign .v1_0_2 ⟨[0], 0, 1, ⟨1, by decide⟩, ⟨G, G_onCurve⟩⟩
          ([some ⟨0, by decide⟩] ++ [none]) ⟨0, 0⟩).pc =
        (sign .v1_0_2 ⟨[0], 0, 1, ⟨1, by decide⟩, ⟨G, G_onCurve⟩⟩ [none] ⟨1, 1⟩).pc ∧
      ((sign .v1_0_2 ⟨[0], 0, 1, ⟨1, by decide⟩, ⟨G, G_onCurve⟩⟩ [none] ⟨1, 1⟩).pc =
          .returned true →
        (sign .v1_0_2 ⟨[0], 0, 1, ⟨1, by decide⟩, ⟨G, G_onCurve⟩⟩
            ([some ⟨0, by decide⟩] ++ [none]) ⟨0, 0⟩).k =
          (sign .v1_0_2 ⟨[0], 0, 1, ⟨1, by decide⟩, ⟨G, G_onCurve⟩⟩ [none] ⟨1, 1⟩).k ∧
        (sign .v1_0_2 ⟨[0], 0, 1, ⟨1, by decide⟩, ⟨G, G_onCurve⟩⟩
            ([some ⟨0, by decide⟩] ++ [none]) ⟨0, 0⟩).result =
          (sign .v1_0_2 ⟨[0], 0, 1, ⟨1, by decide⟩, ⟨G, G_onCurve⟩⟩ [none] ⟨1, 1⟩).result)) :=
  have h : IsLoopHead (sign .v1_0_2 ⟨[0], 0, 1, ⟨1, by decide⟩, ⟨G, G_onCurve⟩⟩
      [some ⟨0, by decide⟩] ⟨0, 0⟩) := by decide
  ⟨h, sign_append_of_isLoopHead h [none] ⟨1, 1⟩⟩

/-! ## Progress and the result object -/

/-- The first three steps after the initial checks: a nonzero draw `k` is
committed to, the encodings of `k·G` and of a key other than infinity are
hashed, and the run stands at the hashing of the message window. -/
theorem signStep_three {lib : OpenSSL} {inp : SignInput}
    (hchk : inputChecks inp.message inp.offset inp.size = true) (hP : inp.pubkey.P ≠ .infinity)
    {k : Fin groupOrder} (hk : (k : Int) ≠ 0) (d₂ d₃ : NonceDraw) (result : Signature) :
    signStep lib inp d₃ (signStep lib inp d₂ (signStep lib inp (some k) (signInit inp result))) =
      { pc := .hashMessage, k := k, Q := G.mul k,
        sha2 := (SHA2.init.update (point2oct .compressed (G.mul k))).update
          (point2oct .compressed inp.pubkey.P),
        result := result } := by
  have hQ : G.mul k ≠ .infinity := by
    rw [Ne, G_mul_eq_infinity_iff, Nat.mod_eq_of_lt k.isLt]
    exact_mod_cast hk
  simp only [signInit, hchk, if_true, signStep, hk, if_false, Int.toNat_natCast,
    length_point2oct_of_ne_infinity hQ, length_point2oct_of_ne_infinity hP, ne_eq,
    not_true_eq_false]

/-- A first draw `k ≠ 0` on a window inside the message, for which
{lit}`BN_nnmod` returns a nonzero challenge `r` and the response `s` is
nonzero, makes {lit}`Sign` return {lit}`true` after the five steps of the
first iteration, with `(r, s)` in {lit}`result`, whatever it would draw
next. -/
theorem sign_returns_first_iteration {lib : OpenSSL} {inp : SignInput} (hm : inp.message ≠ [])
    (hfit : inp.offset.toNat + inp.size.toNat ≤ inp.message.length)
    (hP : inp.pubkey.P ≠ .infinity) {k : Fin groupOrder} (hk : (k : Int) ≠ 0) {r : Nat}
    (hred : nnmod lib (challengeDigest (G.mul k) inp.pubkey.P inp.message inp.offset inp.size)
      groupOrder = some r)
    (hr : (r : Int) ≠ 0) (hs : ((k : Int) - r * inp.privkey.d % groupOrder) % groupOrder ≠ 0)
    (d₂ d₃ d₄ d₅ : NonceDraw) (rest : List NonceDraw) (result : Signature) :
    (sign lib inp (some k :: d₂ :: d₃ :: d₄ :: d₅ :: rest) result).pc = .returned true ∧
      (sign lib inp (some k :: d₂ :: d₃ :: d₄ :: d₅ :: rest) result).result =
        ⟨r, ((k : Int) - r * inp.privkey.d % groupOrder) % groupOrder⟩ := by
  have hwin := updateWindow_challengeDigest (G.mul k) inp.pubkey.P hfit
  -- the message window is hashed, `BN_nnmod` returns `r`, and `(r, s)` is accepted
  have hfin : signStep lib inp d₅ (signStep lib inp d₄ (signStep lib inp d₃ (signStep lib inp d₂
      (signStep lib inp (some k) (signInit inp result))))) =
      { pc := .returned true, k := k, Q := G.mul k, sha2 := SHA2.init,
        result := ⟨r, ((k : Int) - r * inp.privkey.d % groupOrder) % groupOrder⟩ } := by
    rw [signStep_three (inputChecks_of_le hm hfit) hP hk]
    simp only [signStep, hwin.1, hwin.2, hred, hr, hs, or_self, if_false, SHA2.reset_eq]
  simp only [sign, signRun_cons, hfin]
  rw [signRun_returned rest rfl]
  exact ⟨rfl, rfl⟩

set_option maxRecDepth 100000 in
/-- The key `1`, its public key `G` and the nonce `1` on the byte `0x00`, on
OpenSSL 1.0.2, where the digest is already below `n`. -/
theorem sign_returns_first_iteration_key_one :
    (sign .v1_0_2 ⟨[0], 0, 1, ⟨1, by decide⟩, ⟨G, G_onCurve⟩⟩
        [some ⟨1, by decide⟩, none, none, none, none] ⟨0, 0⟩).pc = .returned true ∧
      (sign .v1_0_2 ⟨[0], 0, 1, ⟨1, by decide⟩, ⟨G, G_onCurve⟩⟩
        [some ⟨1, by decide⟩, none, none, none, none] ⟨0, 0⟩).result =
        ⟨(46381042658283069635514506644814270937630946372922871300197614930619448913015 : Nat),
          ((1 : Nat) - (46381042658283069635514506644814270937630946372922871300197614930619448913015 :
            Nat) * (1 : Int) % groupOrder) % groupOrder⟩ :=
  @sign_returns_first_iteration .v1_0_2 ⟨[0], 0, 1, ⟨1, by decide⟩, ⟨G, G_onCurve⟩⟩ (by decide)
    (by decide) (by decide) ⟨1, by decide⟩ (by decide)
    46381042658283069635514506644814270937630946372922871300197614930619448913015 (by decide)
    (by decide) (by decide) none none none none [] ⟨0, 0⟩

/-- What {lit}`result` holds until {lit}`Sign` returns {lit}`true`: the caller's
object, or the last pair the loop rejected, since {lit}`Sign` computes `r` and
`s` in place. -/
def ResultHeld (result : Signature) (st : SignState) : Prop :=
  st.pc = .returned true ∨ st.result = result ∨ st.result.r = 0 ∨ st.result.s = 0

theorem signStep_resultHeld (lib : OpenSSL) (inp : SignInput) (draw : NonceDraw)
    {result : Signature} {st : SignState} (h : ResultHeld result st) :
    ResultHeld result (signStep lib inp draw st) := by
  obtain ⟨pc, k, Q, sha2, res⟩ := st
  cases pc
  case challenge =>
    simp only [signStep, ResultHeld]
    split
    · exact .inr (h.resolve_left nofun)
    · split_ifs with hrej
      · exact .inr (.inr hrej)
      · exact .inl rfl
  case returned => exact h
  case crashed => exact h
  case readOutOfBounds => exact h
  all_goals
    have hres := h.resolve_left nofun
    cases draw <;> simp only [signStep] <;> (repeat' split) <;> exact .inr hres

/-- A {lit}`Sign` that has not returned {lit}`true` leaves in {lit}`result`
the caller's object or a pair with `r = 0` or `s = 0`. -/
theorem sign_result_of_not_returned_true {lib : OpenSSL} {inp : SignInput}
    {draws : List NonceDraw} {result : Signature} (h : (sign lib inp draws result).pc ≠ .returned true) :
    (sign lib inp draws result).result = result ∨ (sign lib inp draws result).result.r = 0 ∨
      (sign lib inp draws result).result.s = 0 := by
  have hrun : ∀ (draws : List NonceDraw) {st : SignState}, ResultHeld result st →
      ResultHeld result (signRun lib inp draws st) := by
    intro draws
    induction draws with
    | nil => exact id
    | cons draw draws ih => exact fun hst => ih (signStep_resultHeld lib inp draw hst)
  exact (hrun draws (.inr (.inl rfl))).resolve_left h

set_option maxRecDepth 100000 in
/-- With the nonce `1`, the key `G` and the private scalar `r⁻¹ mod n` for the
challenge `r` of `G`, `G` and the byte `0x00`, the first iteration is rejected
for `s = 0` on OpenSSL 1.0.2, and a failed second draw returns {lit}`false`
with `(r, 0)` in {lit}`result`. -/
theorem sign_result_rejected_pair :
    (sign .v1_0_2 ⟨[0], 0, 1, ⟨33033622420975905207684485806306460389101775340584640988176641783436598234918,
        by decide⟩, ⟨G, G_onCurve⟩⟩ [some ⟨1, by decide⟩, none, none, none, none, none] ⟨0, 0⟩).pc =
        .returned false ∧
      ((sign .v1_0_2 ⟨[0], 0, 1, ⟨33033622420975905207684485806306460389101775340584640988176641783436598234918,
          by decide⟩, ⟨G, G_onCurve⟩⟩ [some ⟨1, by decide⟩, none, none, none, none, none]
          ⟨0, 0⟩).result = ⟨0, 0⟩ ∨
        (sign .v1_0_2 ⟨[0], 0, 1, ⟨33033622420975905207684485806306460389101775340584640988176641783436598234918,
          by decide⟩, ⟨G, G_onCurve⟩⟩ [some ⟨1, by decide⟩, none, none, none, none, none]
          ⟨0, 0⟩).result.r = 0 ∨
        (sign .v1_0_2 ⟨[0], 0, 1, ⟨33033622420975905207684485806306460389101775340584640988176641783436598234918,
          by decide⟩, ⟨G, G_onCurve⟩⟩ [some ⟨1, by decide⟩, none, none, none, none, none]
          ⟨0, 0⟩).result.s = 0) :=
  have h : (sign .v1_0_2 ⟨[0], 0, 1,
      ⟨33033622420975905207684485806306460389101775340584640988176641783436598234918, by decide⟩,
      ⟨G, G_onCurve⟩⟩ [some ⟨1, by decide⟩, none, none, none, none, none] ⟨0, 0⟩).pc =
      .returned false := by decide
  ⟨h, sign_result_of_not_returned_true (by rw [h]; decide)⟩

/-! ## How {lit}`Sign` can fail -/

/-- From a state of the invariant that has not failed, a step under a key other
than the point at infinity fails only at the nonce draw, on a failed draw: the
commitment of a nonce in `(0, n)` and the key both encode to 33 bytes, so the
two length tests never fire. -/
theorem signStep_returned_false {lib : OpenSSL} {inp : SignInput} (hP : inp.pubkey.P ≠ .infinity)
    {st : SignState} (hinv : SignInv lib inp st) (hst : st.pc ≠ .returned false) {draw : NonceDraw}
    (h : (signStep lib inp draw st).pc = .returned false) : st.pc = .drawNonce ∧ draw = none := by
  obtain ⟨pc, k, Q, sha2, result⟩ := st
  cases pc <;> dsimp only [SignInv] at hinv
  case drawNonce =>
    cases draw with
    | none => exact ⟨rfl, rfl⟩
    | some j => by_cases hj : (j : Int) = 0 <;> simp [signStep, hj] at h
  case commit =>
    obtain ⟨-, hk0, hkn⟩ := hinv
    have hQ : G.mul k.toNat ≠ .infinity := by
      rw [Ne, G_mul_eq_infinity_iff, Nat.mod_eq_of_lt (by omega)]
      omega
    simp [signStep, length_point2oct_of_ne_infinity hQ] at h
  case hashPubKey => simp [signStep, length_point2oct_of_ne_infinity hP] at h
  case returned ok => exact absurd h hst
  all_goals
    simp only [signStep] at h
    repeat' split at h
    all_goals cases h

/-- Along a run that fails, the failing step is a nonce draw that read `none`. -/
theorem signRun_returned_false {lib : OpenSSL} {inp : SignInput} (hP : inp.pubkey.P ≠ .infinity) :
    ∀ (draws : List NonceDraw) {st : SignState}, SignInv lib inp st → st.pc ≠ .returned false →
      (signRun lib inp draws st).pc = .returned false →
      ∃ pre rest, draws = pre ++ none :: rest ∧ (signRun lib inp pre st).pc = .drawNonce
  | [], _, _, hst, h => absurd h hst
  | draw :: draws, st, hinv, hst, h => by
    by_cases hstep : (signStep lib inp draw st).pc = .returned false
    · obtain ⟨hpc, rfl⟩ := signStep_returned_false hP hinv hst hstep
      exact ⟨[], draws, rfl, hpc⟩
    · obtain ⟨pre, rest, rfl, hpre⟩ :=
        signRun_returned_false hP draws (signStep_inv draw hinv) hstep h
      exact ⟨draw :: pre, rest, rfl, hpre⟩

/-- Under a key other than the point at infinity, a {lit}`Sign` that passed its
initial checks returns {lit}`false` only at a call of
{lit}`BN_generate_dsa_nonce` that failed: the draws split into the draws
{lit}`Sign` consumed before it reached that call, a failed draw, and the
draws it never read.  Its tests on the lengths of the two encodings never
fire, and the model has no failing allocation or {lit}`BIGNUM` operation. -/
theorem sign_returned_false {lib : OpenSSL} {inp : SignInput}
    (hchk : inputChecks inp.message inp.offset inp.size = true) (hP : inp.pubkey.P ≠ .infinity)
    {draws : List NonceDraw} {result : Signature}
    (h : (sign lib inp draws result).pc = .returned false) :
    ∃ pre rest, draws = pre ++ none :: rest ∧ (sign lib inp pre result).pc = .drawNonce :=
  signRun_returned_false hP draws (signInit_inv result) (by simp [signInit, hchk]) h

set_option maxRecDepth 100000 in
/-- The zero nonce is redrawn, and the second draw fails. -/
theorem sign_returned_false_redraw :
    inputChecks [0] 0 1 = true ∧ G ≠ .infinity ∧
      (sign .v1_0_2 ⟨[0], 0, 1, ⟨1, by decide⟩, ⟨G, G_onCurve⟩⟩ [some ⟨0, by decide⟩, none]
        ⟨0, 0⟩).pc = .returned false ∧
      ∃ pre rest, ([some ⟨0, by decide⟩, none] : List NonceDraw) = pre ++ none :: rest ∧
        (sign .v1_0_2 ⟨[0], 0, 1, ⟨1, by decide⟩, ⟨G, G_onCurve⟩⟩ pre ⟨0, 0⟩).pc = .drawNonce :=
  have h : (sign .v1_0_2 ⟨[0], 0, 1, ⟨1, by decide⟩, ⟨G, G_onCurve⟩⟩ [some ⟨0, by decide⟩, none]
      ⟨0, 0⟩).pc = .returned false := by decide
  ⟨by decide, by decide, h,
    @sign_returned_false .v1_0_2 ⟨[0], 0, 1, ⟨1, by decide⟩, ⟨G, G_onCurve⟩⟩ (by decide)
      (by decide) [some ⟨0, by decide⟩, none] ⟨0, 0⟩ h⟩

/-! ## The caller's result object -/

/-- Two states equal up to {lit}`result`, before any return of {lit}`true`. -/
def SignState.EqUpToResult (a b : SignState) : Prop :=
  a = b ∨ (a.pc ≠ .returned true ∧ ∃ r, a = { b with result := r })

/-- A step keeps two states equal up to {lit}`result`: only the challenge step
writes {lit}`result`, and it overwrites both `r` and `s`. -/
theorem signStep_eqUpToResult (lib : OpenSSL) (inp : SignInput) (draw : NonceDraw)
    {a b : SignState} (h : a.EqUpToResult b) :
    (signStep lib inp draw a).EqUpToResult (signStep lib inp draw b) := by
  obtain rfl | ⟨hpc, r, rfl⟩ := h
  · exact .inl rfl
  obtain ⟨pc, k, Q, sha2, result⟩ := b
  cases pc
  case challenge =>
    simp only [signStep]
    split
    · exact .inr ⟨nofun, r, rfl⟩
    · exact .inl rfl
  case returned ok => exact .inr ⟨hpc, r, rfl⟩
  case crashed => exact .inr ⟨hpc, r, rfl⟩
  case readOutOfBounds => exact .inr ⟨hpc, r, rfl⟩
  -- the other points neither write `result` nor return `true`
  all_goals
    refine .inr ⟨?_, r, ?_⟩ <;> cases draw <;> simp only [signStep] <;> (repeat' split) <;>
      simp

theorem signRun_eqUpToResult (lib : OpenSSL) (inp : SignInput) (draws : List NonceDraw)
    {a b : SignState} (h : a.EqUpToResult b) :
    (signRun lib inp draws a).EqUpToResult (signRun lib inp draws b) := by
  induction draws generalizing a b with
  | nil => exact h
  | cons draw draws ih => exact ih (signStep_eqUpToResult lib inp draw h)

/-- {lit}`Sign` writes `r` and `s` into the caller's {lit}`result` in place, but
what it does never depends on what the object held: from any two objects the
same draws end at the same point, with the same signature on success.  The
model keeps {lit}`m_r` and {lit}`m_s` apart from each other and from the
arguments: an object whose {lit}`BIGNUM`s alias one another, or the key's,
would be overwritten in the middle of the computation. -/
theorem sign_result_irrel (lib : OpenSSL) (inp : SignInput) (draws : List NonceDraw)
    (result result' : Signature) :
    (sign lib inp draws result).pc = (sign lib inp draws result').pc ∧
      ((sign lib inp draws result).pc = .returned true →
        (sign lib inp draws result).result = (sign lib inp draws result').result) := by
  have hinit : (signInit inp result).EqUpToResult (signInit inp result') :=
    .inr ⟨by simp only [signInit]; split_ifs <;> simp, result, rfl⟩
  obtain h | ⟨hpc, r, h⟩ := signRun_eqUpToResult lib inp draws hinit
  · exact ⟨congrArg SignState.pc h, fun _ => congrArg SignState.result h⟩
  · exact ⟨by rw [sign, sign, h], fun h' => absurd h' hpc⟩

end LibSchnorr
