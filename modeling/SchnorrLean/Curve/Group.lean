import Mathlib.AlgebraicGeometry.EllipticCurve.Group
import SchnorrLean.Curve.Point

/-!
# The group law behind the point arithmetic

Mathlib's {lit}`WeierstrassCurve.Affine.Point` carries the group law of an
elliptic curve over a field.  This module places secp256k1 there and proves
that the natural-number arithmetic of {lit}`SchnorrLean.Curve.Point` computes
it: an affine {lit}`ECPoint` and a {lit}`Jacobian` triple each represent a
group element, doubling, addition and scalar multiplication preserve the
representation, and conversion between the two forms keeps the element.

Main results:

- Theorem {lit}`jrep_dbl`, {lit}`jrep_add`: Jacobian doubling and addition
  compute the group law.
- Theorems {lit}`affRep_add`, {lit}`affRep_mul`: `EC_POINT_add` and scalar
  multiplication compute the group law on affine points.
- Theorem {lit}`affRep_unique`: an affine point is determined by the group
  element it represents.
-/

namespace LibSchnorr
namespace Secp256k1

open WeierstrassCurve

/-- secp256k1 as a Weierstrass curve over the base field: `y² = x³ + 7`. -/
def curve : WeierstrassCurve BaseField := ⟨0, 0, 0, 0, 7⟩

/-- The group of rational points of secp256k1. -/
abbrev Point : Type := curve.toAffine.Point

theorem curve_equation_iff (x y : BaseField) :
    curve.toAffine.Equation x y ↔ y ^ 2 = x ^ 3 + 7 := by
  simp [Affine.equation_iff, curve]

theorem curve_Δ_ne_zero : curve.Δ ≠ 0 := by
  simp only [WeierstrassCurve.Δ, WeierstrassCurve.b₂, WeierstrassCurve.b₄,
    WeierstrassCurve.b₆, WeierstrassCurve.b₈, curve]
  norm_num
  decide

/-- Every point of `y² = x³ + 7` is nonsingular. -/
theorem curve_nonsingular_iff (x y : BaseField) :
    curve.toAffine.Nonsingular x y ↔ y ^ 2 = x ^ 3 + 7 :=
  ⟨fun h => (curve_equation_iff x y).mp h.1,
    fun h => curve.toAffine.nonsingular_of_Δ_ne_zero ((curve_equation_iff x y).mpr h)
      curve_Δ_ne_zero⟩

@[simp] theorem curve_a₁ : curve.toAffine.a₁ = 0 := rfl

@[simp] theorem curve_a₂ : curve.toAffine.a₂ = 0 := rfl

@[simp] theorem curve_a₃ : curve.toAffine.a₃ = 0 := rfl

@[simp] theorem curve_a₄ : curve.toAffine.a₄ = 0 := rfl

@[simp]
theorem curve_negY (x y : BaseField) : curve.toAffine.negY x y = -y := by
  simp

theorem two_ne_zero' : (2 : BaseField) ≠ 0 := by decide

/-- The residue curve equation of {lit}`ECPoint.OnCurve` is the field equation. -/
theorem onCurve_affine_iff (x y : Nat) :
    (ECPoint.affine x y).OnCurve ↔
      x < fieldPrime ∧ y < fieldPrime ∧ (y : BaseField) ^ 2 = (x : BaseField) ^ 3 + 7 := by
  simp only [ECPoint.OnCurve]
  refine and_congr_right fun hx => and_congr_right fun hy => ?_
  rw [← natCast_inj (fmul_lt _ _) (fadd_lt _ _)]
  simp [curveB, pow_succ, sq]

/-! ## Representations -/

/-- The affine `EC_POINT` `A` is the group element `P`. -/
def AffRep : ECPoint → Point → Prop
  | .infinity, P => P = 0
  | .affine x y, P =>
      x < fieldPrime ∧ y < fieldPrime ∧
        ∃ h : curve.toAffine.Nonsingular (x : BaseField) y, P = .some h

/-- The Jacobian triple `J` is the group element `P`: `X = x Z²` and `Y = y Z³`
in the field for the affine coordinates `(x, y)` of `P`, and `Z = 0` exactly at
infinity. -/
def JRep (J : Jacobian) : Point → Prop
  | .zero => J.Z = 0
  | @Affine.Point.some _ _ _ x y _ =>
      J.Z ≠ 0 ∧ J.Z < fieldPrime ∧ (J.X : BaseField) = x * (J.Z : BaseField) ^ 2 ∧
        (J.Y : BaseField) = y * (J.Z : BaseField) ^ 3

/-- A point satisfies the curve equation exactly when it represents a group element. -/
theorem onCurve_iff_exists_affRep (A : ECPoint) : A.OnCurve ↔ ∃ P, AffRep A P := by
  cases A with
  | infinity => exact ⟨fun _ => ⟨0, rfl⟩, fun _ => trivial⟩
  | affine x y =>
      rw [onCurve_affine_iff]
      constructor
      · rintro ⟨hx, hy, h⟩
        exact ⟨_, hx, hy, (curve_nonsingular_iff _ _).mpr h, rfl⟩
      · rintro ⟨_, hx, hy, h, -⟩
        exact ⟨hx, hy, (curve_nonsingular_iff _ _).mp h⟩

/-- A group element has at most one affine representation. -/
theorem affRep_unique {A B : ECPoint} {P : Point} (hA : AffRep A P) (hB : AffRep B P) :
    A = B := by
  cases A with
  | infinity =>
      cases B with
      | infinity => rfl
      | affine x y => obtain ⟨-, -, h, rfl⟩ := hB; exact absurd hA (Affine.Point.some_ne_zero h)
  | affine x₁ y₁ =>
      obtain ⟨hx₁, hy₁, h₁, rfl⟩ := hA
      cases B with
      | infinity => exact absurd hB (Affine.Point.some_ne_zero h₁)
      | affine x₂ y₂ =>
          obtain ⟨hx₂, hy₂, h₂, heq⟩ := hB
          simp only [Affine.Point.some.injEq] at heq
          rw [(natCast_inj hx₁ hx₂).mp heq.1, (natCast_inj hy₁ hy₂).mp heq.2]

/-- An affine point represents at most one group element. -/
theorem affRep_functional {A : ECPoint} {P Q : Point} (hP : AffRep A P) (hQ : AffRep A Q) :
    P = Q := by
  cases A with
  | infinity => exact hP.trans hQ.symm
  | affine x y => obtain ⟨-, -, _, rfl⟩ := hP; obtain ⟨-, -, _, rfl⟩ := hQ; rfl

theorem natCast_ne_zero {a : Nat} (ha : a < fieldPrime) (h : a ≠ 0) : (a : BaseField) ≠ 0 :=
  (natCast_eq_zero_iff ha).not.mpr h

/-! ## Conversions -/

theorem jrep_toJacobian {A : ECPoint} {P : Point} (h : AffRep A P) : JRep A.toJacobian P := by
  cases A with
  | infinity => subst h; rfl
  | affine x y =>
      obtain ⟨-, -, h, rfl⟩ := h
      simp only [ECPoint.toJacobian]
      exact ⟨one_ne_zero, fieldPrime_prime.one_lt, by simp, by simp⟩

theorem affRep_toAffine {J : Jacobian} {P : Point} (h : JRep J P) : AffRep J.toAffine P := by
  cases P with
  | zero =>
      simp only [JRep] at h
      simp only [Jacobian.toAffine, h, if_true]
      rfl
  | @some x y hP =>
      obtain ⟨hZ, hZlt, hX, hY⟩ := h
      have hZ' := natCast_ne_zero hZlt hZ
      simp only [Jacobian.toAffine, hZ, if_false]
      refine ⟨fmul_lt _ _, fmul_lt _ _, ?_⟩
      have hx : x = ((fmul J.X (fmul (finv J.Z) (finv J.Z)) : Nat) : BaseField) := by
        rw [cast_fmul, cast_fmul, cast_finv, hX, mul_assoc, ← mul_inv, ← sq,
          mul_inv_cancel₀ (pow_ne_zero 2 hZ'), mul_one]
      have hy : y = ((fmul J.Y (fmul (fmul (finv J.Z) (finv J.Z)) (finv J.Z)) : Nat) :
          BaseField) := by
        rw [cast_fmul, cast_fmul, cast_fmul, cast_finv, hY, mul_assoc, ← mul_inv, ← mul_inv,
          ← pow_three', mul_inv_cancel₀ (pow_ne_zero 3 hZ'), mul_one]
      subst hx hy
      exact ⟨hP, rfl⟩

/-! ## Doubling and addition -/

theorem jrep_dbl {J : Jacobian} {P : Point} (h : JRep J P) : JRep J.dbl (P + P) := by
  cases P with
  | zero =>
      simp only [JRep] at h
      simp only [Jacobian.dbl, h, if_true]
      exact h
  | @some x y hP =>
      obtain ⟨hZ, hZlt, hX, hY⟩ := h
      have hZ' := natCast_ne_zero hZlt hZ
      by_cases hy : y = 0
      · rw [Affine.Point.add_self_of_Y_eq (by rw [curve_negY, hy, neg_zero])]
        show J.dbl.Z = 0
        simp only [Jacobian.dbl, hZ, if_false]
        rw [← natCast_eq_zero_iff (fmul_lt _ _)]
        simp [hY, hy]
      · have hyne : y ≠ curve.toAffine.negY x y := by
          rw [curve_negY]
          intro h
          exact hy (by simpa [two_ne_zero'] using (show 2 * y = 0 by linear_combination h))
        rw [Affine.Point.add_self_of_Y_ne hyne]
        have hL : curve.toAffine.slope x x y y * (2 * y) = 3 * x ^ 2 := by
          rw [Affine.slope_of_Y_ne rfl hyne, curve_negY, show y - -y = 2 * y by ring,
            div_mul_cancel₀ _ (mul_ne_zero two_ne_zero' hy)]
          simp
        simp only [Jacobian.dbl, hZ, if_false]
        refine ⟨?_, fmul_lt _ _, ?_, ?_⟩
        · intro h0
          have h0' := congrArg (fun a : Nat => (a : BaseField)) h0
          simp only [cast_fmul, Nat.cast_ofNat, Nat.cast_zero, hY] at h0'
          exact mul_ne_zero two_ne_zero' (mul_ne_zero (mul_ne_zero hy (pow_ne_zero 3 hZ')) hZ')
            h0'
        · simp only [cast_fsub, cast_fmul, Nat.cast_ofNat, hX, hY, Affine.addX, curve_a₁,
            curve_a₂]
          linear_combination (-((J.Z : BaseField) ^ 8) *
            (2 * curve.toAffine.slope x x y y * y + 3 * x ^ 2)) * hL
        · simp only [cast_fsub, cast_fmul, Nat.cast_ofNat, hX, hY, Affine.addY, Affine.negAddY,
            curve_negY, Affine.addX, curve_a₁, curve_a₂]
          linear_combination ((J.Z : BaseField) ^ 12 *
            ((curve.toAffine.slope x x y y * (2 * y)) ^ 2 +
              curve.toAffine.slope x x y y * (2 * y) * (3 * x ^ 2) + (3 * x ^ 2) ^ 2 -
              12 * x * y ^ 2)) * hL

/-- The comparisons `U₁ = U₂` and `S₁ = S₂` of {lit}`Jacobian.add` compare affine
coordinates. -/
theorem fmul_eq_fmul_iff {a b c d : Nat} {u v w : BaseField} (hw : w ≠ 0)
    (hac : (a : BaseField) * c = u * w) (hbd : (b : BaseField) * d = v * w) :
    fmul a c = fmul b d ↔ u = v := by
  rw [← natCast_inj (fmul_lt _ _) (fmul_lt _ _), cast_fmul, cast_fmul, hac, hbd]
  exact mul_left_inj' hw

section AddCases

variable {J K : Jacobian} {x₁ y₁ x₂ y₂ : BaseField} {h₁ : curve.toAffine.Nonsingular x₁ y₁}
  {h₂ : curve.toAffine.Nonsingular x₂ y₂}

/-- The comparison `U₁ = U₂` of {lit}`Jacobian.add` compares the `x` coordinates. -/
theorem jrep_u_eq_iff (hJ : JRep J (.some h₁)) (hK : JRep K (.some h₂)) :
    fmul J.X (fmul K.Z K.Z) = fmul K.X (fmul J.Z J.Z) ↔ x₁ = x₂ :=
  fmul_eq_fmul_iff (pow_ne_zero 2 (mul_ne_zero (natCast_ne_zero hJ.2.1 hJ.1)
    (natCast_ne_zero hK.2.1 hK.1))) (by rw [cast_fmul, hJ.2.2.1]; ring)
    (by rw [cast_fmul, hK.2.2.1]; ring)

/-- The comparison `S₁ = S₂` of {lit}`Jacobian.add` compares the `y` coordinates. -/
theorem jrep_s_eq_iff (hJ : JRep J (.some h₁)) (hK : JRep K (.some h₂)) :
    fmul J.Y (fmul K.Z (fmul K.Z K.Z)) = fmul K.Y (fmul J.Z (fmul J.Z J.Z)) ↔ y₁ = y₂ :=
  fmul_eq_fmul_iff (pow_ne_zero 3 (mul_ne_zero (natCast_ne_zero hJ.2.1 hJ.1)
    (natCast_ne_zero hK.2.1 hK.1))) (by rw [cast_fmul, cast_fmul, hJ.2.2.2]; ring)
    (by rw [cast_fmul, cast_fmul, hK.2.2.2]; ring)

/-- Addition of points with distinct `x`: the chord through them. -/
theorem jrep_add_of_X_ne (hJ : JRep J (.some h₁)) (hK : JRep K (.some h₂)) (hx : x₁ ≠ x₂) :
    JRep (J.add K) (.some h₁ + .some h₂) := by
  have hu := jrep_u_eq_iff hJ hK
  obtain ⟨hZ₁, hZ₁lt, hX₁, hY₁⟩ := hJ
  obtain ⟨hZ₂, hZ₂lt, hX₂, hY₂⟩ := hK
  have hZ₁' := natCast_ne_zero hZ₁lt hZ₁
  have hZ₂' := natCast_ne_zero hZ₂lt hZ₂
  rw [Affine.Point.add_of_X_ne hx]
  have hL : curve.toAffine.slope x₁ x₂ y₁ y₂ * (x₁ - x₂) = y₁ - y₂ := by
    rw [Affine.slope_of_X_ne hx, div_mul_cancel₀ _ (sub_ne_zero.mpr hx)]
  obtain ⟨L, hLdef⟩ : ∃ L, curve.toAffine.slope x₁ x₂ y₁ y₂ = L := ⟨_, rfl⟩
  have hy₂ : y₂ = y₁ - L * (x₁ - x₂) := by
    rw [← hLdef]
    linear_combination hL
  simp only [Jacobian.add, hZ₁, hZ₂, if_false, (not_congr hu).mpr hx]
  refine ⟨?_, fmul_lt _ _, ?_, ?_⟩
  · intro h0
    have h0' := congrArg (fun a : Nat => (a : BaseField)) h0
    simp only [cast_fmul, cast_fsub, Nat.cast_zero, hX₁, hX₂] at h0'
    refine mul_ne_zero (mul_ne_zero (sub_ne_zero.mpr (Ne.symm hx))
      (pow_ne_zero 2 (mul_ne_zero hZ₁' hZ₂'))) (mul_ne_zero hZ₁' hZ₂')
      (by linear_combination h0')
  · simp only [cast_fsub, cast_fmul, Nat.cast_ofNat, hX₁, hX₂, hY₁, hY₂, Affine.addX,
      curve_a₁, curve_a₂, hLdef]
    rw [hy₂]
    ring
  · simp only [cast_fsub, cast_fmul, Nat.cast_ofNat, hX₁, hX₂, hY₁, hY₂, Affine.addY,
      Affine.negAddY, curve_negY, Affine.addX, curve_a₁, curve_a₂, hLdef]
    rw [hy₂]
    ring

end AddCases

/-- Jacobian addition computes the group law: the identity cases, doubling
when the points agree, infinity when they are opposite, and the chord
otherwise. -/
theorem jrep_add {J K : Jacobian} {P Q : Point} (hJ : JRep J P) (hK : JRep K Q) :
    JRep (J.add K) (P + Q) := by
  cases P with
  | zero =>
      simp only [JRep] at hJ
      rw [Affine.Point.zero_def, zero_add]
      simpa only [Jacobian.add, hJ, if_true] using hK
  | @some x₁ y₁ h₁ =>
      cases Q with
      | zero =>
          simp only [JRep] at hK
          rw [Affine.Point.zero_def, add_zero]
          simpa only [Jacobian.add, hJ.1, hK, if_true, if_false] using hJ
      | @some x₂ y₂ h₂ =>
          by_cases hx : x₁ = x₂
          · subst hx
            have hu := (jrep_u_eq_iff hJ hK).mpr rfl
            by_cases hy : y₁ = y₂
            · subst hy
              simp only [Jacobian.add, hJ.1, hK.1, if_false, hu, (jrep_s_eq_iff hJ hK).mpr rfl,
                if_true]
              exact jrep_dbl hJ
            · have hneg : y₁ = curve.toAffine.negY x₁ y₂ := by
                by_contra hne
                exact hy (Affine.Y_eq_of_Y_ne h₁.1 h₂.1 rfl hne)
              rw [Affine.Point.add_of_Y_eq rfl hneg]
              simp only [Jacobian.add, hJ.1, hK.1, if_false, hu,
                (not_congr (jrep_s_eq_iff hJ hK)).mpr hy, if_true]
              rfl
          · exact jrep_add_of_X_ne hJ hK hx

/-! ## Scalar multiplication -/

theorem jrep_infinity : JRep Jacobian.infinity 0 := rfl

/-- The double-and-add loop adds `k · base` to its accumulator. -/
theorem jrep_mulAux : ∀ (fuel k : Nat) {base acc : Jacobian} {B A : Point}, k ≤ fuel →
    JRep base B → JRep acc A → JRep (Jacobian.mulAux fuel k base acc) (A + k • B)
  | 0, k, _, _, _, _, hk, _, hA => by
      obtain rfl : k = 0 := by omega
      rwa [zero_nsmul, add_zero]
  | fuel + 1, k, base, acc, B, A, hk, hB, hA => by
      rw [Jacobian.mulAux]
      split_ifs with hk0 hodd
      · rwa [hk0, zero_nsmul, add_zero]
      · have h := jrep_mulAux fuel (k / 2) (by omega) (jrep_dbl hB) (jrep_add hA hB)
        rwa [add_assoc, ← two_nsmul, ← mul_nsmul', ← succ_nsmul',
          show k / 2 * 2 + 1 = k by omega] at h
      · have h := jrep_mulAux fuel (k / 2) (by omega) (jrep_dbl hB) hA
        rwa [← two_nsmul, ← mul_nsmul', show k / 2 * 2 = k by omega] at h

/-- `EC_POINT_add` computes the group law. -/
theorem affRep_add {A B : ECPoint} {P Q : Point} (hA : AffRep A P) (hB : AffRep B Q) :
    AffRep (A.add B) (P + Q) :=
  affRep_toAffine (jrep_add (jrep_toJacobian hA) (jrep_toJacobian hB))

/-- Scalar multiplication computes `k • P`. -/
theorem affRep_mul (k : Nat) {A : ECPoint} {P : Point} (hA : AffRep A P) :
    AffRep (A.mul k) (k • P) := by
  have h := jrep_mulAux k k le_rfl (jrep_toJacobian hA) jrep_infinity
  rw [zero_add] at h
  exact affRep_toAffine h

theorem add_onCurve {A B : ECPoint} (hA : A.OnCurve) (hB : B.OnCurve) : (A.add B).OnCurve := by
  rw [onCurve_iff_exists_affRep] at hA hB ⊢
  obtain ⟨P, hP⟩ := hA
  obtain ⟨Q, hQ⟩ := hB
  exact ⟨_, affRep_add hP hQ⟩

theorem mul_onCurve (k : Nat) {A : ECPoint} (hA : A.OnCurve) : (A.mul k).OnCurve := by
  rw [onCurve_iff_exists_affRep] at hA ⊢
  obtain ⟨P, hP⟩ := hA
  exact ⟨_, affRep_mul k hP⟩

end Secp256k1
end LibSchnorr
