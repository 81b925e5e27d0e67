import Mathlib.Data.ZMod.Basic

/-!
# Modular exponentiation by repeated squaring

OpenSSL reaches modular powers of big integers through `BN_mod_exp`: inside
`BN_mod_sqrt` when a compressed point is decompressed, and in every field
inversion.  This module fixes one square-and-multiply evaluator whose recursion
is structural, so that concrete powers reduce in the kernel, and relates it to
powers in `ZMod m`.

Main results:

- Theorem {lit}`powMod_cast`: {lit}`powMod b e m` is `b ^ e` in `ZMod m`.
- Theorem {lit}`powMod_lt`: results are reduced below a positive modulus.
-/

namespace LibSchnorr

/-- Right-to-left square and multiply.  The fuel bounds the number of halvings
of the exponent. -/
def powModAux (m : Nat) : Nat → Nat → Nat → Nat → Nat
  | 0, _, _, acc => acc
  | fuel + 1, b, e, acc =>
      if e = 0 then acc
      else powModAux m fuel (b * b % m) (e / 2) (if e % 2 = 1 then acc * b % m else acc)

/-- `b ^ e mod m`.  The exponent itself is enough fuel, since it at least halves
at every step and the recursion stops at zero. -/
def powMod (b e m : Nat) : Nat :=
  powModAux m e (b % m) e (1 % m)

/-- One square-and-multiply step splits the exponent into its halves and its
low bit. -/
theorem pow_eq_sq_pow_half {R : Type*} [Monoid R] (b : R) (e : Nat) :
    b ^ e = (b * b) ^ (e / 2) * b ^ (e % 2) := by
  rw [← sq, ← pow_mul, ← pow_add, Nat.div_add_mod]

theorem powModAux_cast (m : Nat) :
    ∀ fuel b e acc, e ≤ fuel →
      (powModAux m fuel b e acc : ZMod m) = acc * (b : ZMod m) ^ e
  | 0, b, e, acc, h => by
      obtain rfl : e = 0 := by omega
      simp [powModAux]
  | fuel + 1, b, e, acc, h => by
      rw [powModAux]
      split_ifs with he hodd
      · simp [he]
      · rw [powModAux_cast m fuel _ _ _ (by omega), pow_eq_sq_pow_half (b : ZMod m) e, hodd]
        push_cast [ZMod.natCast_mod]
        ring
      · rw [powModAux_cast m fuel _ _ _ (by omega), pow_eq_sq_pow_half (b : ZMod m) e,
          show e % 2 = 0 by omega]
        push_cast [ZMod.natCast_mod]
        ring

/-- Soundness of the evaluator: {lit}`powMod b e m` is `b ^ e` in `ZMod m`. -/
@[simp]
theorem powMod_cast (b e m : Nat) : (powMod b e m : ZMod m) = (b : ZMod m) ^ e := by
  rw [powMod, powModAux_cast m e _ e _ le_rfl]
  simp [ZMod.natCast_mod]

theorem powModAux_lt {m : Nat} :
    ∀ fuel b e acc, acc < m → powModAux m fuel b e acc < m
  | 0, _, _, _, h => h
  | fuel + 1, b, e, acc, h => by
      rw [powModAux]
      split_ifs
      · exact h
      · have hm : 0 < m := by omega
        exact powModAux_lt fuel _ _ _ (Nat.mod_lt _ hm)
      · exact powModAux_lt fuel _ _ _ h

/-- Modular powers are reduced below a positive modulus. -/
theorem powMod_lt {m : Nat} (b e : Nat) (hm : 0 < m) : powMod b e m < m :=
  powModAux_lt e _ _ _ (Nat.mod_lt 1 hm)

end LibSchnorr
