import Mathlib.FieldTheory.Finite.Basic
import SchnorrLean.Curve.Params

/-!
# Arithmetic in the base field

OpenSSL keeps curve coordinates as big integers reduced modulo `p` and combines
them with `BN_mod_add`, `BN_mod_sub`, `BN_mod_mul` and a modular inverse.  This
module gives those operations on natural numbers, each with a `@[simp]` lemma
that casts it into the field `ZMod p`, where the group law is proved.

Main results:

- Theorems {lit}`cast_fadd`, {lit}`cast_fsub`, {lit}`cast_fmul`,
  {lit}`cast_finv`: the residue operations are the field operations.
- Theorem {lit}`natCast_eq_zero_iff`: a reduced residue is zero in the field
  exactly when it is the number zero.
-/

namespace LibSchnorr
namespace Secp256k1

instance fieldPrime_fact : Fact (Nat.Prime fieldPrime) := ⟨fieldPrime_prime⟩

instance groupOrder_fact : Fact (Nat.Prime groupOrder) := ⟨groupOrder_prime⟩

/-- The base field `𝔽_p`. -/
abbrev BaseField : Type := ZMod fieldPrime

/-- The field prime is positive. -/
theorem fieldPrime_pos : 0 < fieldPrime := fieldPrime_prime.pos

/-- The group order is positive. -/
theorem groupOrder_pos : 0 < groupOrder := groupOrder_prime.pos

/-- Sum of two residues, `BN_mod_add`. -/
def fadd (a b : Nat) : Nat := (a + b) % fieldPrime

/-- Difference of two residues, `BN_mod_sub`. -/
def fsub (a b : Nat) : Nat := (a + (fieldPrime - b % fieldPrime)) % fieldPrime

/-- Product of two residues, `BN_mod_mul`. -/
def fmul (a b : Nat) : Nat := a * b % fieldPrime

/-- Inverse of a residue by Fermat's little theorem, `a ^ (p - 2)`; zero is
sent to zero. -/
def finv (a : Nat) : Nat := powMod a (fieldPrime - 2) fieldPrime

variable (a b : Nat)

/-- {lit}`fadd` is addition in the field. -/
@[simp]
theorem cast_fadd : ((fadd a b : Nat) : BaseField) = a + b := by
  simp [fadd, ZMod.natCast_mod]

/-- {lit}`fsub` is subtraction in the field. -/
@[simp]
theorem cast_fsub : ((fsub a b : Nat) : BaseField) = a - b := by
  have hb : b % fieldPrime ≤ fieldPrime := (Nat.mod_lt _ fieldPrime_pos).le
  rw [fsub, ZMod.natCast_mod, Nat.cast_add, Nat.cast_sub hb, ZMod.natCast_self,
    ZMod.natCast_mod]
  ring

/-- {lit}`fmul` is multiplication in the field. -/
@[simp]
theorem cast_fmul : ((fmul a b : Nat) : BaseField) = a * b := by
  simp [fmul, ZMod.natCast_mod]

/-- In a field of size `p > 2`, `a ^ (p - 2)` is the inverse of `a`, zero included. -/
theorem pow_fieldPrime_sub_two (x : BaseField) : x ^ (fieldPrime - 2) = x⁻¹ := by
  rcases eq_or_ne x 0 with rfl | hx
  · rw [inv_zero, zero_pow (by decide)]
  · refine eq_inv_of_mul_eq_one_left ?_
    rw [← pow_succ, show fieldPrime - 2 + 1 = fieldPrime - 1 by decide,
      ZMod.pow_card_sub_one_eq_one hx]

/-- {lit}`finv` is inversion in the field. -/
@[simp]
theorem cast_finv : ((finv a : Nat) : BaseField) = (a : BaseField)⁻¹ := by
  rw [finv, powMod_cast, pow_fieldPrime_sub_two]

/-- The sum is a reduced residue. -/
theorem fadd_lt : fadd a b < fieldPrime := Nat.mod_lt _ fieldPrime_pos

/-- The difference is a reduced residue. -/
theorem fsub_lt : fsub a b < fieldPrime := Nat.mod_lt _ fieldPrime_pos

/-- The product is a reduced residue. -/
theorem fmul_lt : fmul a b < fieldPrime := Nat.mod_lt _ fieldPrime_pos

/-- A reduced residue is zero in the field exactly when it is zero. -/
theorem natCast_eq_zero_iff {a : Nat} (ha : a < fieldPrime) : (a : BaseField) = 0 ↔ a = 0 := by
  rw [ZMod.natCast_zmod_eq_zero_iff_dvd]
  exact ⟨fun h => Nat.eq_zero_of_dvd_of_lt h ha, fun h => h ▸ dvd_zero _⟩

/-- Reduced residues are equal in the field exactly when they are equal. -/
theorem natCast_inj {a b : Nat} (ha : a < fieldPrime) (hb : b < fieldPrime) :
    (a : BaseField) = b ↔ a = b := by
  rw [ZMod.natCast_eq_natCast_iff', Nat.mod_eq_of_lt ha, Nat.mod_eq_of_lt hb]

end Secp256k1
end LibSchnorr
