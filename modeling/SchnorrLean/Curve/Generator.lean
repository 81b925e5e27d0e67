import Mathlib.GroupTheory.OrderOfElement
import SchnorrLean.Curve.Group

/-!
# The base point and its scalar multiples

The base point `G` of secp256k1 generates a cyclic group of prime order `n`
(`groupOrder`).  Every scalar multiplication the library performs is of the
form `k·G` or `s·G + r·P`, so what its proofs need is the arithmetic of the
exponents modulo `n`.

Main results:

- {lit}`groupOrder_nsmul_basePoint`: `n·G = O`, checked by running the
  double-and-add loop;
- {lit}`addOrderOf_basePoint`: `G` has order exactly `n`;
- {lit}`G_mul_eq_G_mul_iff`: `a·G = b·G ↔ a ≡ b (mod n)`;
- {lit}`affRep_pointMul`: {lit}`EC_POINT_mul` computes `s·G + r·P` in the
  group of the curve;
- {lit}`pointMul_G_mul`: `s·G + r·(d·G) = (s + r·d)·G`.
-/

namespace LibSchnorr
namespace Secp256k1

open WeierstrassCurve

/-- The base point as an element of the curve group. -/
def basePoint : Point :=
  .some ((curve_nonsingular_iff _ _).mpr ((onCurve_affine_iff genX genY).mp G_onCurve).2.2)

/-- The coordinates of {lit}`G` stand for the base point of the group. -/
theorem affRep_G : AffRep G basePoint :=
  ⟨by decide, by decide, _, rfl⟩

/-- The base point is not the identity. -/
theorem basePoint_ne_zero : basePoint ≠ 0 := by
  rintro ⟨⟩

set_option maxRecDepth 100000 in
/-- The double-and-add loop sends `n·G` to the point at infinity. -/
theorem G_mul_groupOrder : G.mul groupOrder = .infinity := by
  decide

/-- The double-and-add loop on {lit}`G` computes `k` times the base point. -/
theorem affRep_G_mul (k : Nat) : AffRep (G.mul k) (k • basePoint) :=
  affRep_mul k affRep_G

/-- Stated for every `k`: instantiating {lit}`affRep_G_mul` at the literal `n`
would make the elaborator evaluate `n·G` while unfolding {lit}`AffRep`. -/
theorem nsmul_basePoint_eq_zero {k : Nat} (hk : G.mul k = .infinity) : k • basePoint = 0 := by
  have h := affRep_G_mul k
  rw [hk] at h
  exact h

/-- `n` times the base point is the identity. -/
theorem groupOrder_nsmul_basePoint : groupOrder • basePoint = 0 :=
  nsmul_basePoint_eq_zero G_mul_groupOrder

/-- The base point has order `n`, a prime. -/
theorem addOrderOf_basePoint : addOrderOf basePoint = groupOrder :=
  addOrderOf_eq_prime groupOrder_nsmul_basePoint basePoint_ne_zero

/-- Every multiple of {lit}`G` is on the curve. -/
theorem G_mul_onCurve (k : Nat) : (G.mul k).OnCurve :=
  (onCurve_iff_exists_affRep _).mpr ⟨_, affRep_G_mul k⟩

/-! ## Exponent arithmetic modulo `n` -/

/-- Two multiples of `G` agree exactly when the scalars agree modulo `n`. -/
theorem G_mul_eq_G_mul_iff {a b : Nat} : G.mul a = G.mul b ↔ a ≡ b [MOD groupOrder] := by
  rw [← addOrderOf_basePoint, ← nsmul_eq_nsmul_iff_modEq]
  exact ⟨fun h => affRep_functional (affRep_G_mul a) (h ▸ affRep_G_mul b),
    fun h => affRep_unique (affRep_G_mul a) (h ▸ affRep_G_mul b)⟩

/-- A multiple of {lit}`G` is the point at infinity exactly when `n` divides
the scalar. -/
theorem G_mul_eq_infinity_iff {k : Nat} : G.mul k = .infinity ↔ k % groupOrder = 0 := by
  have h0 : G.mul 0 = .infinity := rfl
  rw [← h0, G_mul_eq_G_mul_iff, Nat.ModEq, Nat.zero_mod]

/-- Multiples of {lit}`G` depend on the scalar modulo `n` only. -/
theorem G_mul_mod (k : Nat) : G.mul (k % groupOrder) = G.mul k :=
  G_mul_eq_G_mul_iff.mpr (Nat.mod_modEq k _)

/-- Adding multiples of {lit}`G` adds the scalars. -/
theorem G_mul_add (a b : Nat) : (G.mul a).add (G.mul b) = G.mul (a + b) := by
  refine affRep_unique (affRep_add (affRep_G_mul a) (affRep_G_mul b)) ?_
  rw [← add_nsmul]
  exact affRep_G_mul _

/-- Multiplying a multiple of {lit}`G` multiplies the scalars. -/
theorem G_mul_mul (a b : Nat) : (G.mul a).mul b = G.mul (b * a) := by
  refine affRep_unique (affRep_mul b (affRep_G_mul a)) ?_
  rw [← mul_nsmul']
  exact affRep_G_mul _

/-- For a curve point `P` and a fixed `r`, the double multiplication
`s·G + r·P` determines `s` modulo `n`. -/
theorem pointMul_eq_pointMul_iff {q : ECPoint} (hq : q.OnCurve) {s s' : Nat} (r : Nat) :
    pointMul s q r = pointMul s' q r ↔ s ≡ s' [MOD groupOrder] := by
  obtain ⟨P, hP⟩ := (onCurve_iff_exists_affRep q).mp hq
  rw [← G_mul_eq_G_mul_iff]
  refine ⟨fun h => ?_, fun h => by rw [pointMul, pointMul, h]⟩
  have hs' : AffRep (pointMul s q r) (s' • basePoint + r • P) :=
    h ▸ affRep_add (affRep_G_mul s') (affRep_mul r hP)
  have hsum := affRep_functional (affRep_add (affRep_G_mul s) (affRep_mul r hP)) hs'
  refine affRep_unique (affRep_G_mul s) ?_
  rw [add_right_cancel hsum]
  exact affRep_G_mul s'

/-- Refinement of {lit}`EC_POINT_mul(group, Q, s, q, r, ctx)`: on a point `q`
that stands for the curve point `P`, the Jacobian double-and-add model
computes `s·G + r·P` in the group of the curve. -/
theorem affRep_pointMul (s : Nat) {q : ECPoint} {P : Point} (hq : AffRep q P) (r : Nat) :
    AffRep (pointMul s q r) (s • basePoint + r • P) :=
  affRep_add (affRep_G_mul s) (affRep_mul r hq)

set_option maxRecDepth 10000 in
/-- `G + G`, computed from the coordinates of `G`. -/
theorem affRep_pointMul_G : AffRep (pointMul 1 G 1) ((1 : Nat) • basePoint + (1 : Nat) • basePoint) :=
  affRep_pointMul 1 affRep_G 1

/-- The double multiplication of {lit}`Schnorr::Verify` on a key `d·G`. -/
theorem pointMul_G_mul (s d r : Nat) : pointMul s (G.mul d) r = G.mul (s + r * d) := by
  rw [pointMul, G_mul_mul, G_mul_add]

end Secp256k1
end LibSchnorr
