import SchnorrLean.Curve.Field

/-!
# Points of secp256k1

An `EC_POINT` of the secp256k1 group is the point at infinity or an affine pair
of reduced residues.  OpenSSL adds and doubles points in Jacobian coordinates
(`ec_GFp_simple_add`, `ec_GFp_simple_dbl`) and converts back to affine form
with one field inversion; scalar multiplication repeats these steps over the
bits of the scalar.  This module defines that arithmetic on natural numbers so
that concrete points evaluate in the kernel; the link with the group law is
made in {lit}`SchnorrLean.Curve.Group`.

Main definitions:

- {lit}`ECPoint`, {lit}`ECPoint.OnCurve`: points and the curve equation
  `y² = x³ + 7` as `EC_POINT_is_on_curve` checks it.
- {lit}`Jacobian.dbl`, {lit}`Jacobian.add`, {lit}`Jacobian.mul`: the Jacobian
  group operations.
- {lit}`ECPoint.add`, {lit}`ECPoint.mul`, {lit}`pointMul`: the affine
  operations `EC_POINT_add` and `EC_POINT_mul`.
-/

namespace LibSchnorr
namespace Secp256k1

/-- An `EC_POINT`: the point at infinity or an affine pair of residues. -/
inductive ECPoint where
  | infinity
  | affine (x y : Nat)
deriving DecidableEq, Repr

namespace ECPoint

/-- The curve equation `y² = x³ + 7` on reduced coordinates, as
`EC_POINT_is_on_curve` checks it; the point at infinity is on the curve. -/
def OnCurve : ECPoint → Prop
  | infinity => True
  | affine x y => x < fieldPrime ∧ y < fieldPrime ∧ fmul y y = fadd (fmul (fmul x x) x) curveB

instance : DecidablePred OnCurve := fun P =>
  match P with
  | infinity => isTrue trivial
  | affine _ _ => inferInstanceAs (Decidable (_ ∧ _ ∧ _))

@[simp]
theorem onCurve_infinity : infinity.OnCurve := trivial

end ECPoint

/-- The base point `G`. -/
def G : ECPoint := .affine genX genY

theorem G_onCurve : G.OnCurve := by decide

/-! ## Jacobian coordinates -/

/-- Jacobian coordinates `(X, Y, Z)` of the affine point `(X / Z², Y / Z³)`; a
zero `Z` is the point at infinity. -/
structure Jacobian where
  X : Nat
  Y : Nat
  Z : Nat
deriving DecidableEq, Repr

namespace Jacobian

/-- The representative `(1, 1, 0)` of the point at infinity. -/
def infinity : Jacobian := ⟨1, 1, 0⟩

/-- Doubling (`ec_GFp_simple_dbl` for `a = 0`): with `S = 4XY²` and `M = 3X²`,
`X' = M² - 2S`, `Y' = M(S - X') - 8Y⁴`, `Z' = 2YZ`. -/
def dbl (P : Jacobian) : Jacobian :=
  if P.Z = 0 then P
  else
    let yy := fmul P.Y P.Y
    let s := fmul 4 (fmul P.X yy)
    let m := fmul 3 (fmul P.X P.X)
    let x' := fsub (fmul m m) (fmul 2 s)
    ⟨x', fsub (fmul m (fsub s x')) (fmul 8 (fmul yy yy)), fmul 2 (fmul P.Y P.Z)⟩

/-- Addition (`ec_GFp_simple_add`): with `U₁ = X₁Z₂²`, `U₂ = X₂Z₁²`,
`S₁ = Y₁Z₂³`, `S₂ = Y₂Z₁³`, `H = U₂ - U₁` and `R = S₂ - S₁`, the sum is
`(R² - H³ - 2U₁H², R(U₁H² - X₃) - S₁H³, HZ₁Z₂)`.  Equal points are doubled and
opposite points give infinity. -/
def add (P Q : Jacobian) : Jacobian :=
  if P.Z = 0 then Q
  else if Q.Z = 0 then P
  else
    let z1z1 := fmul P.Z P.Z
    let z2z2 := fmul Q.Z Q.Z
    let u1 := fmul P.X z2z2
    let u2 := fmul Q.X z1z1
    let s1 := fmul P.Y (fmul Q.Z z2z2)
    let s2 := fmul Q.Y (fmul P.Z z1z1)
    if u1 = u2 then
      if s1 = s2 then P.dbl else infinity
    else
      let h := fsub u2 u1
      let r := fsub s2 s1
      let hh := fmul h h
      let hhh := fmul hh h
      let x3 := fsub (fsub (fmul r r) hhh) (fmul 2 (fmul u1 hh))
      ⟨x3, fsub (fmul r (fsub (fmul u1 hh) x3)) (fmul s1 hhh), fmul h (fmul P.Z Q.Z)⟩

/-- Right-to-left double and add: `acc + k · base`.  The fuel bounds the number
of halvings of `k`. -/
def mulAux : Nat → Nat → Jacobian → Jacobian → Jacobian
  | 0, _, _, acc => acc
  | fuel + 1, k, base, acc =>
      if k = 0 then acc
      else mulAux fuel (k / 2) base.dbl (if k % 2 = 1 then acc.add base else acc)

/-- Scalar multiplication `k · P`; `k` itself is enough fuel. -/
def mul (k : Nat) (P : Jacobian) : Jacobian :=
  mulAux k k P infinity

/-- Conversion to affine form with one inversion of `Z`. -/
def toAffine (P : Jacobian) : ECPoint :=
  if P.Z = 0 then .infinity
  else
    let zinv := finv P.Z
    let zinv2 := fmul zinv zinv
    .affine (fmul P.X zinv2) (fmul P.Y (fmul zinv2 zinv))

end Jacobian

namespace ECPoint

/-- Affine points have `Z = 1`. -/
def toJacobian : ECPoint → Jacobian
  | infinity => Jacobian.infinity
  | affine x y => ⟨x, y, 1⟩

/-- `EC_POINT_add`. -/
def add (P Q : ECPoint) : ECPoint :=
  (P.toJacobian.add Q.toJacobian).toAffine

/-- Scalar multiplication `k · P`. -/
def mul (k : Nat) (P : ECPoint) : ECPoint :=
  (P.toJacobian.mul k).toAffine

end ECPoint

/-- `EC_POINT_mul(group, r, n, q, m)`: the point `n · G + m · q`. -/
def pointMul (n : Nat) (q : ECPoint) (m : Nat) : ECPoint :=
  (G.mul n).add (q.mul m)

end Secp256k1
end LibSchnorr
