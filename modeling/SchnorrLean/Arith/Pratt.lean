import Mathlib.Data.List.Prime
import Mathlib.NumberTheory.LucasPrimality
import SchnorrLean.Arith.PowMod

/-!
# Lucas primality certificates

The secp256k1 parameters are prime: the base field needs it to be a field, and
the group order needs it for scalars to form one.  Neither number is within
reach of trial division, so primality is established by Lucas's test, with the
factors of `p - 1` certified recursively.  The checker is a Boolean function
that the kernel evaluates with {lit}`powMod`.

Main results:

- Theorem {lit}`prime_of_lucasCheck`: a passing check together with primality
  of the listed factors proves primality.
-/

namespace LibSchnorr

/-- Lucas's test for `p` with witness `a`: the factors multiply to `p - 1`,
`a ^ (p - 1) = 1` and no `a ^ ((p - 1) / q)` for a listed factor `q` is `1`,
all modulo `p`. -/
def lucasCheck (p a : Nat) (factors : List Nat) : Bool :=
  factors.prod == p - 1 && powMod a (p - 1) p == 1 &&
    factors.all fun q => powMod a ((p - 1) / q) p != 1

/-- A prime dividing a product of primes is one of them. -/
theorem mem_of_prime_dvd_prod {q : Nat} {factors : List Nat} (hq : q.Prime)
    (hfactors : factors.Forall Nat.Prime) (hdvd : q ∣ factors.prod) : q ∈ factors := by
  obtain ⟨a, ha, hqa⟩ := (Prime.dvd_prod_iff hq.prime).mp hdvd
  rw [List.forall_iff_forall_mem] at hfactors
  rwa [(Nat.prime_dvd_prime_iff_eq hq (hfactors a ha)).mp hqa]

/-- Soundness of {lit}`lucasCheck`. -/
theorem prime_of_lucasCheck {p : Nat} (a : Nat) (factors : List Nat)
    (hcheck : lucasCheck p a factors = true) (hfactors : factors.Forall Nat.Prime) :
    p.Prime := by
  simp only [lucasCheck, Bool.and_eq_true, beq_iff_eq, List.all_eq_true, bne_iff_ne,
    ne_eq] at hcheck
  obtain ⟨⟨hprod, hfermat⟩, horders⟩ := hcheck
  have hp : 1 < p := by
    rcases Nat.lt_or_ge 1 p with h | h
    · exact h
    · interval_cases p
      · rw [List.forall_iff_forall_mem] at hfactors
        exact absurd (hfactors 0 (List.prod_eq_zero_iff.mp hprod)) Nat.not_prime_zero
      · simp [powMod, powModAux] at hfermat
  apply lucas_primality p (a : ZMod p)
  · rw [← powMod_cast, hfermat, Nat.cast_one]
  · intro q hq hdvd
    rw [← hprod] at hdvd
    have hne := horders q (mem_of_prime_dvd_prod hq hfactors hdvd)
    rw [← powMod_cast]
    intro h
    have hval := congrArg ZMod.val h
    rw [ZMod.val_natCast_of_lt (powMod_lt _ _ (by omega)), ZMod.val_one_eq_one_mod,
      Nat.one_mod_eq_one.mpr (by omega)] at hval
    exact hne hval

end LibSchnorr
