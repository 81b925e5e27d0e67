import SchnorrLean.Curve.Point
import SchnorrLean.Bytes.BigEndian

/-!
# {lit}`Schnorr::PrintPoint`

{lit}`Schnorr::PrintPoint` reads the affine coordinates of a point with
{lit}`EC_POINT_get_affine_coordinates_GFp`, which fails only at the point at
infinity, and prints them with {lit}`BN_bn2hex`: {lit}`0` for zero, else two
uppercase hexadecimal digits for each byte of the big-endian encoding, leading
zero bytes dropped.  The allocation failures of the code, which also print
{lit}`invalid point`, are not modelled.

Main results:

- {lit}`bn2hex_injective`: different numbers print differently;
- {lit}`printPoint_injective`: different points print differently, the point
  at infinity included.
-/

namespace LibSchnorr

open Secp256k1

/-- The table {lit}`Hex` of {lit}`BN_bn2hex`. -/
def hexDigits : List Char :=
  ['0', '1', '2', '3', '4', '5', '6', '7', '8', '9', 'A', 'B', 'C', 'D', 'E', 'F']

/-- {lit}`Hex[v]`. -/
def hexDigit (v : Nat) : Char := hexDigits.getD v '0'

/-- The two digits {lit}`BN_bn2hex` prints for the byte `v`: {lit}`Hex[v >> 4]`
and {lit}`Hex[v & 0x0f]`. -/
def hexByte (v : UInt8) : List Char := [hexDigit (v.toNat / 16), hexDigit (v.toNat % 16)]

/-- {lit}`BN_bn2hex` of a nonnegative number. -/
def bn2hex (n : Nat) : String :=
  if n = 0 then "0" else ⟨(toBytesBE (numBytes n) n).flatMap hexByte⟩

/-- {lit}`Schnorr::PrintPoint(point)`. -/
def printPoint : ECPoint → String
  | .infinity => "invalid point"
  | .affine x y => "x=" ++ bn2hex x ++ " y=" ++ bn2hex y

/-! ## Digits -/

theorem indexOf_hexDigit {v : Nat} (hv : v < 16) : hexDigits.indexOf (hexDigit v) = v := by
  interval_cases v <;> rfl

theorem hexDigit_ne_space {v : Nat} (hv : v < 16) : hexDigit v ≠ ' ' := by
  interval_cases v <;> decide

theorem hexByte_injective : Function.Injective hexByte := by
  intro a b h
  simp only [hexByte, List.cons.injEq, and_true] at h
  have ha := byte_toNat_lt a
  have hb := byte_toNat_lt b
  have hhi : a.toNat / 16 = b.toNat / 16 := by
    rw [← indexOf_hexDigit (by omega : a.toNat / 16 < 16), h.1, indexOf_hexDigit (by omega)]
  have hlo : a.toNat % 16 = b.toNat % 16 := by
    rw [← indexOf_hexDigit (by omega : a.toNat % 16 < 16), h.2, indexOf_hexDigit (by omega)]
  exact byte_ext (by omega)

theorem flatMap_hexByte_injective : Function.Injective fun bs : Bytes => bs.flatMap hexByte := by
  intro bs
  induction bs with
  | nil =>
    rintro (_ | ⟨b, bs'⟩) h
    · rfl
    · simp [hexByte] at h
  | cons b bs ih =>
    rintro (_ | ⟨b', bs'⟩) h
    · simp [hexByte] at h
    · obtain ⟨hb, hbs⟩ := List.append_inj h rfl
      rw [hexByte_injective hb, ih hbs]

theorem length_flatMap_hexByte (bs : Bytes) : (bs.flatMap hexByte).length = 2 * bs.length := by
  induction bs with
  | nil => rfl
  | cons b bs ih =>
    rw [List.flatMap_cons, List.length_append, ih, List.length_cons]
    simp only [hexByte, List.length_cons, List.length_nil]
    omega

/-! ## Numbers -/

theorem data_bn2hex_of_ne {n : Nat} (hn : n ≠ 0) :
    (bn2hex n).data = (toBytesBE (numBytes n) n).flatMap hexByte := by
  rw [bn2hex, if_neg hn]

theorem length_data_bn2hex_ne_one {n : Nat} (hn : n ≠ 0) : (bn2hex n).data.length ≠ 1 := by
  rw [data_bn2hex_of_ne hn, length_flatMap_hexByte]
  omega

/-- {lit}`BN_bn2hex` is injective: the digits give back the bytes, and the bytes
without leading zeros give back the number. -/
theorem bn2hex_injective : Function.Injective bn2hex := by
  intro m n h
  by_cases hm : m = 0 <;> by_cases hn : n = 0
  · rw [hm, hn]
  · subst hm
    exact absurd (by rw [← h]; rfl) (length_data_bn2hex_ne_one hn)
  · subst hn
    exact absurd (by rw [h]; rfl) (length_data_bn2hex_ne_one hm)
  · have hb := congrArg String.data h
    rw [data_bn2hex_of_ne hm, data_bn2hex_of_ne hn] at hb
    calc m = bin2bn (toBytesBE (numBytes m) m) := (bin2bn_toBytesBE_of_lt (lt_pow_numBytes m)).symm
      _ = bin2bn (toBytesBE (numBytes n) n) := by rw [flatMap_hexByte_injective hb]
      _ = n := bin2bn_toBytesBE_of_lt (lt_pow_numBytes n)

/-- Leading zero bytes are dropped, leading zero digits of a byte are not. -/
example : bn2hex 0 = "0" ∧ bn2hex 10 = "0A" ∧ bn2hex 0x1F00 = "1F00" := by decide

theorem ne_space_of_mem_bn2hex {n : Nat} {c : Char} (hc : c ∈ (bn2hex n).data) : c ≠ ' ' := by
  by_cases hn : n = 0
  · subst hn
    rw [List.mem_singleton.mp hc]
    decide
  · rw [data_bn2hex_of_ne hn, List.mem_flatMap] at hc
    obtain ⟨b, -, hb⟩ := hc
    have := byte_toNat_lt b
    simp only [hexByte, List.mem_cons, List.mem_singleton, List.not_mem_nil, or_false] at hb
    rcases hb with rfl | rfl <;> exact hexDigit_ne_space (by omega)

/-! ## Points -/

theorem data_printPoint_affine (x y : Nat) :
    (printPoint (.affine x y)).data =
      'x' :: '=' :: ((bn2hex x).data ++ ' ' :: 'y' :: '=' :: (bn2hex y).data) := by
  show ['x', '='] ++ (bn2hex x).data ++ [' ', 'y', '='] ++ (bn2hex y).data = _
  simp

/-- A string without spaces is the part before the first space. -/
theorem takeWhile_append_space {a : List Char} (ha : ∀ c ∈ a, c ≠ ' ') (r : List Char) :
    (a ++ ' ' :: r).takeWhile (· != ' ') = a := by
  rw [List.takeWhile_append_of_pos (by simpa using ha)]
  simp

theorem dropWhile_append_space {a : List Char} (ha : ∀ c ∈ a, c ≠ ' ') (r : List Char) :
    (a ++ ' ' :: r).dropWhile (· != ' ') = ' ' :: r := by
  rw [List.dropWhile_append_of_pos (by simpa using ha)]
  simp

/-- Two strings without spaces, each followed by a space, are equal when the
whole lists are. -/
theorem append_space_inj {a a' r r' : List Char} (ha : ∀ c ∈ a, c ≠ ' ') (ha' : ∀ c ∈ a', c ≠ ' ')
    (h : a ++ ' ' :: r = a' ++ ' ' :: r') : a = a' ∧ r = r' := by
  have hw := congrArg (List.takeWhile (· != ' ')) h
  have hd := congrArg (List.dropWhile (· != ' ')) h
  rw [takeWhile_append_space ha, takeWhile_append_space ha'] at hw
  rw [dropWhile_append_space ha, dropWhile_append_space ha', List.cons.injEq] at hd
  exact ⟨hw, hd.2⟩

theorem printPoint_affine_ne_infinity (x y : Nat) :
    printPoint (.affine x y) ≠ printPoint .infinity := by
  intro h
  have h' := congrArg (fun s : String => s.data.head?) h
  simp only [data_printPoint_affine, List.head?_cons] at h'
  exact absurd h' (by decide)

/-- {lit}`PrintPoint` prints different points differently: the coordinates are
read back from the digits before and after the space, and only the point at
infinity prints as {lit}`invalid point`. -/
theorem printPoint_injective : Function.Injective printPoint := by
  rintro (_ | ⟨x, y⟩) (_ | ⟨x', y'⟩) h
  · rfl
  · exact absurd h.symm (printPoint_affine_ne_infinity x' y')
  · exact absurd h (printPoint_affine_ne_infinity x y)
  · have h' := congrArg String.data h
    simp only [data_printPoint_affine, List.cons.injEq, true_and] at h'
    obtain ⟨hx, hy⟩ := append_space_inj (fun _ => ne_space_of_mem_bn2hex)
      (fun _ => ne_space_of_mem_bn2hex) h'
    simp only [List.cons.injEq, true_and] at hy
    rw [bn2hex_injective (String.ext hx), bn2hex_injective (String.ext hy)]

end LibSchnorr
