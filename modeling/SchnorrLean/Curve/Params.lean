import Mathlib.Tactic.NormNum.Prime
import SchnorrLean.Arith.Pratt

/-!
# The secp256k1 parameters

`Schnorr::Curve` loads the group with {lit}`EC_GROUP_new_by_curve_name(NID_secp256k1)`
and reads its order with {lit}`EC_GROUP_get_order`.  This module fixes those
constants: the prime of the base field, the coefficient of `y² = x³ + 7`, the
affine coordinates of the base point and its order, and certifies that both the
field size and the order are prime.

Main results:

- Theorem {lit}`fieldPrime_prime`: the base field has prime size.
- Theorem {lit}`groupOrder_prime`: the order of the base point is prime.
-/

namespace LibSchnorr
namespace Secp256k1

/-- The prime `p = 2²⁵⁶ - 2³² - 977` of the base field. -/
def fieldPrime : Nat :=
  0xFFFFFFFFFFFFFFFFFFFFFFFFFFFFFFFFFFFFFFFFFFFFFFFFFFFFFFFEFFFFFC2F

/-- The constant `b` of the curve `y² = x³ + b`; the coefficient `a` is zero. -/
def curveB : Nat := 7

/-- The affine `x`-coordinate of the base point `G`. -/
def genX : Nat :=
  0x79BE667EF9DCBBAC55A06295CE870B07029BFCDB2DCE28D959F2815B16F81798

/-- The affine `y`-coordinate of the base point `G`. -/
def genY : Nat :=
  0x483ADA7726A3C4655DA4FBFC0E1108A8FD17B448A68554199C47D08FFB10D4B8

/-- The order `n` of the base point, the value of `Schnorr::GetCurveOrder()`. -/
def groupOrder : Nat :=
  0xFFFFFFFFFFFFFFFFFFFFFFFFFFFFFFFEBAAEDCE6AF48A03BBFD25E8CD0364141

/-! ## Primality certificates -/

set_option maxRecDepth 100000

/-- A prime factor of `7240687 − 1` in the Pratt certificate of the field prime `p`,
with the witness `10`. -/
theorem prime_1206781 : Nat.Prime 1206781 :=
  prime_of_lucasCheck 10 [2, 2, 3, 5, 20113]
    (by decide) ⟨by norm_num, by norm_num, by norm_num, by norm_num, by norm_num⟩

/-- A prime factor of `297159362677 − 1` in the Pratt certificate of the order `n`, with
the witness `3`. -/
theorem prime_1627771 : Nat.Prime 1627771 :=
  prime_of_lucasCheck 3 [2, 3, 5, 29, 1871]
    (by decide) ⟨by norm_num, by norm_num, by norm_num, by norm_num, by norm_num⟩

/-- A prime factor of `107361793816595537 − 1` in the Pratt certificate of the order
`n`, with the witness `23`. -/
theorem prime_4681609 : Nat.Prime 4681609 :=
  prime_of_lucasCheck 23 [2, 2, 2, 3, 97, 2011]
    (by decide) ⟨by norm_num, by norm_num, by norm_num, by norm_num, by norm_num, by norm_num⟩

/-- A prime factor of `255515944373312847190720520512484175977 − 1` in the Pratt
certificate of the field prime `p`, with the witness `3`. -/
theorem prime_7240687 : Nat.Prime 7240687 :=
  prime_of_lucasCheck 3 [2, 3, 1206781]
    (by decide) ⟨by norm_num, by norm_num, prime_1206781⟩

/-- A prime factor of `173378833005251801 − 1` in the Pratt certificate of the field
prime `p`, with the witness `13`. -/
theorem prime_13331831 : Nat.Prime 13331831 :=
  prime_of_lucasCheck 13 [2, 5, 971, 1373]
    (by decide) ⟨by norm_num, by norm_num, by norm_num, by norm_num⟩

/-- A prime factor of `174723607534414371449 − 1` in the Pratt certificate of the order
`n`, with the witness `6`. -/
theorem prime_44706919 : Nat.Prime 44706919 :=
  prime_of_lucasCheck 6 [2, 3, 797, 9349]
    (by decide) ⟨by norm_num, by norm_num, by norm_num, by norm_num⟩

/-- A prime factor of `255515944373312847190720520512484175977 − 1` in the Pratt
certificate of the field prime `p`, with the witness `3`. -/
theorem prime_107590001 : Nat.Prime 107590001 :=
  prime_of_lucasCheck 3 [2, 2, 2, 2, 5, 5, 5, 5, 7, 29, 53]
    (by decide) ⟨by norm_num, by norm_num, by norm_num, by norm_num, by norm_num, by norm_num, by norm_num, by norm_num, by norm_num, by norm_num, by norm_num⟩

/-- A prime factor of `29047611873442575647497758179 − 1` in the Pratt certificate of
the order `n`, with the witness `5`. -/
theorem prime_545358713 : Nat.Prime 545358713 :=
  prime_of_lucasCheck 5 [2, 2, 2, 41, 59, 28181]
    (by decide) ⟨by norm_num, by norm_num, by norm_num, by norm_num, by norm_num, by norm_num⟩

/-- A prime factor of `29047611873442575647497758179 − 1` in the Pratt certificate of
the order `n`, with the witness `2`. -/
theorem prime_297159362677 : Nat.Prime 297159362677 :=
  prime_of_lucasCheck 2 [2, 2, 3, 3, 11, 461, 1627771]
    (by decide) ⟨by norm_num, by norm_num, by norm_num, by norm_num, by norm_num, by norm_num, prime_1627771⟩

/-- A prime factor of `n − 1` in the Pratt certificate of the order `n`, with the
witness `3`. -/
theorem prime_107361793816595537 : Nat.Prime 107361793816595537 :=
  prime_of_lucasCheck 3 [2, 2, 2, 2, 16699, 85831, 4681609]
    (by decide) ⟨by norm_num, by norm_num, by norm_num, by norm_num, by norm_num, by norm_num, prime_4681609⟩

/-- A prime factor of `22149492674086928081353 − 1` in the Pratt certificate of the
field prime `p`, with the witness `6`. -/
theorem prime_173378833005251801 : Nat.Prime 173378833005251801 :=
  prime_of_lucasCheck 6 [2, 2, 2, 5, 5, 2621, 24809, 13331831]
    (by decide) ⟨by norm_num, by norm_num, by norm_num, by norm_num, by norm_num, by norm_num, by norm_num, prime_13331831⟩

/-- A prime factor of `n − 1` in the Pratt certificate of the order `n`, with the
witness `3`. -/
theorem prime_174723607534414371449 : Nat.Prime 174723607534414371449 :=
  prime_of_lucasCheck 3 [2, 2, 2, 17, 59, 4051, 120233, 44706919]
    (by decide) ⟨by norm_num, by norm_num, by norm_num, by norm_num, by norm_num, by norm_num, by norm_num, prime_44706919⟩

/-- A prime factor of `132896956044521568488119 − 1` in the Pratt certificate of the
field prime `p`, with the witness `5`. -/
theorem prime_22149492674086928081353 : Nat.Prime 22149492674086928081353 :=
  prime_of_lucasCheck 5 [2, 2, 2, 3, 5323, 173378833005251801]
    (by decide) ⟨by norm_num, by norm_num, by norm_num, by norm_num, by norm_num, prime_173378833005251801⟩

/-- A prime factor of
`205115282021455665897114700593932402728804164701536103180137503955397371 − 1` in the
Pratt certificate of the field prime `p`, with the witness `6`. -/
theorem fieldPrime_pred_factor_pred_factor24_prime : Nat.Prime 132896956044521568488119 :=
  prime_of_lucasCheck 6 [2, 3, 22149492674086928081353]
    (by decide) ⟨by norm_num, by norm_num, prime_22149492674086928081353⟩

/-- A prime factor of `341948486974166000522343609283189 − 1` in the Pratt certificate
of the order `n`, with the witness `2`. -/
theorem prime_29047611873442575647497758179 : Nat.Prime 29047611873442575647497758179 :=
  prime_of_lucasCheck 2 [2, 293, 305873, 545358713, 297159362677]
    (by decide) ⟨by norm_num, by norm_num, by norm_num, prime_545358713, prime_297159362677⟩

/-- A prime factor of `n − 1` in the Pratt certificate of the order `n`, with the
witness `2`. -/
theorem prime_341948486974166000522343609283189 : Nat.Prime 341948486974166000522343609283189 :=
  prime_of_lucasCheck 2 [2, 2, 3, 3, 3, 109, 29047611873442575647497758179]
    (by decide) ⟨by norm_num, by norm_num, by norm_num, by norm_num, by norm_num, by norm_num, prime_29047611873442575647497758179⟩

/-- A prime factor of
`205115282021455665897114700593932402728804164701536103180137503955397371 − 1` in the
Pratt certificate of the field prime `p`, with the witness `3`. -/
theorem fieldPrime_pred_factor_pred_factor39_prime : Nat.Prime 255515944373312847190720520512484175977 :=
  prime_of_lucasCheck 3 [2, 2, 2, 7, 7, 11, 1627, 2657, 4423, 41201, 96557, 7240687, 107590001]
    (by decide) ⟨by norm_num, by norm_num, by norm_num, by norm_num, by norm_num, by norm_num, by norm_num, by norm_num, by norm_num, by norm_num, by norm_num, prime_7240687, prime_107590001⟩

/-- The 72-digit prime factor of `p - 1`. -/
theorem fieldPrime_pred_factor_prime : Nat.Prime 205115282021455665897114700593932402728804164701536103180137503955397371 :=
  prime_of_lucasCheck 10 [2, 3, 5, 29, 29, 31, 7723, 132896956044521568488119, 255515944373312847190720520512484175977]
    (by decide) ⟨by norm_num, by norm_num, by norm_num, by norm_num, by norm_num, by norm_num, by norm_num, fieldPrime_pred_factor_pred_factor24_prime, fieldPrime_pred_factor_pred_factor39_prime⟩

/-- The order of the base point is prime. -/
theorem groupOrder_prime : Nat.Prime groupOrder :=
  prime_of_lucasCheck 7 [2, 2, 2, 2, 2, 2, 3, 149, 631, 107361793816595537, 174723607534414371449, 341948486974166000522343609283189]
    (by decide) ⟨by norm_num, by norm_num, by norm_num, by norm_num, by norm_num, by norm_num, by norm_num, by norm_num, by norm_num, prime_107361793816595537, prime_174723607534414371449, prime_341948486974166000522343609283189⟩

/-- The base field has prime size. -/
theorem fieldPrime_prime : Nat.Prime fieldPrime :=
  prime_of_lucasCheck 3 [2, 3, 7, 13441, 205115282021455665897114700593932402728804164701536103180137503955397371]
    (by decide) ⟨by norm_num, by norm_num, by norm_num, by norm_num, fieldPrime_pred_factor_prime⟩

end Secp256k1
end LibSchnorr
