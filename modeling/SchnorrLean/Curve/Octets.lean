import SchnorrLean.Bytes.BigEndian
import SchnorrLean.Curve.Group

/-!
# Octet encodings of points

OpenSSL's {lit}`EC_POINT_point2oct` writes a point as SEC1 octets: the point
at infinity as the single byte `0x00`, any other point as a form byte
followed by its coordinates as 32-byte big-endian numbers (`x` alone in
compressed form, with the parity of `y` in the form byte).
{lit}`EC_POINT_oct2point` parses all three forms, recovering `y` from `x` by
a modular square root in compressed form.  {lit}`EC_POINT_point2bn` and
{lit}`EC_POINT_bn2point` pass through a {lit}`BIGNUM`, which drops leading
zero bytes and pads them back to the number's own length.  The number zero
has no bytes: {lit}`EC_POINT_bn2point` fails on it on OpenSSL 1.0.2 and
parses the single byte `0x00`, the point at infinity, on 3.0.

Main results:

- {lit}`setCompressedCoordinates_eq_some_iff`: decompression finds exactly the
  curve point with the given `x` and parity of `y`;
- {lit}`oct2point_eq_some_iff`: the parser accepts exactly the encodings of
  curve points, in any of the three forms, and returns the point encoded;
- {lit}`bn2point_eq_some_iff`: the same through a {lit}`BIGNUM`, except the
  point at infinity on 1.0.2.
-/

namespace LibSchnorr
namespace Secp256k1

open ECPoint

/-- {lit}`point_conversion_form_t`. -/
inductive ConversionForm where
  | compressed
  | uncompressed
  | hybrid
deriving DecidableEq, Repr

/-- {lit}`BN_num_bytes` of the field prime: the width of a coordinate. -/
def fieldLen : Nat := numBytes fieldPrime

theorem fieldLen_eq : fieldLen = 32 := by decide

theorem fieldPrime_lt_pow : fieldPrime < 256 ^ 32 := by decide

theorem fieldPrime_odd : fieldPrime % 2 = 1 := by decide

/-- {lit}`EC_POINT_point2oct` ({lit}`ec_GFp_simple_point2oct`). -/
def point2oct (form : ConversionForm) : ECPoint → Bytes
  | .infinity => [0]
  | .affine x y =>
    match form with
    | .compressed => UInt8.ofNat (2 + y % 2) :: toBytesBE fieldLen x
    | .uncompressed => 4 :: (toBytesBE fieldLen x ++ toBytesBE fieldLen y)
    | .hybrid => UInt8.ofNat (6 + y % 2) :: (toBytesBE fieldLen x ++ toBytesBE fieldLen y)

/-- {lit}`BN_mod_sqrt` for the field prime, which is `3 (mod 4)`: the candidate
`a ^ ((p + 1) / 4)`, returned only when its square is `a`. -/
def modSqrt (a : Nat) : Option Nat :=
  let y := powMod a ((fieldPrime + 1) / 4) fieldPrime
  if fmul y y = a % fieldPrime then some y else none

/-- {lit}`EC_POINT_set_affine_coordinates`, which rejects points off the curve. -/
def setAffineCoordinates (x y : Nat) : Option ECPoint :=
  if (ECPoint.affine x y).OnCurve then some (.affine x y) else none

/-- {lit}`ec_GFp_simple_set_compressed_coordinates`: the square root of
`x³ + 7`, negated when its parity is not `yBit`. -/
def setCompressedCoordinates (x yBit : Nat) : Option ECPoint :=
  match modSqrt (fadd (fmul (fmul x x) x) curveB) with
  | none => none
  | some y =>
    if yBit ≠ y % 2 ∧ y = 0 then none
    else
      let y := if yBit ≠ y % 2 then fieldPrime - y else y
      if yBit ≠ y % 2 then none else setAffineCoordinates x y

/-- The length {lit}`enc_len` that {lit}`ec_GFp_simple_oct2point` expects for a
coordinate form. -/
def encLen (form : Nat) : Nat := if form = 2 then 1 + fieldLen else 1 + 2 * fieldLen

/-- The second half of {lit}`ec_GFp_simple_oct2point`, once the form byte and
the length are checked: read `x` (and `y`), reject values not below `p`, and
set the coordinates. -/
def decodeCoordinates (form yBit : Nat) (rest : Bytes) : Option ECPoint :=
  let x := bin2bn (rest.take fieldLen)
  if fieldPrime ≤ x then none
  else if form = 2 then setCompressedCoordinates x yBit
  else
    let y := bin2bn ((rest.drop fieldLen).take fieldLen)
    if fieldPrime ≤ y then none
    else if form = 6 ∧ yBit ≠ y % 2 then none
    else setAffineCoordinates x y

/-- {lit}`EC_POINT_oct2point` ({lit}`ec_GFp_simple_oct2point`).  The form byte
is split into `form = b & ~1` and `yBit = b & 1`. -/
def oct2point : Bytes → Option ECPoint
  | [] => none
  | b0 :: rest =>
    let form := b0.toNat - b0.toNat % 2
    let yBit := b0.toNat % 2
    if form ≠ 0 ∧ form ≠ 2 ∧ form ≠ 4 ∧ form ≠ 6 then none
    else if (form = 0 ∨ form = 4) ∧ yBit ≠ 0 then none
    else if form = 0 then (if rest.length + 1 ≠ 1 then none else some .infinity)
    else if rest.length + 1 ≠ encLen form then none
    else decodeCoordinates form yBit rest

/-- {lit}`EC_POINT_point2bn`: the octets read as a big-endian number. -/
def point2bn (form : ConversionForm) (P : ECPoint) : Nat :=
  bin2bn (point2oct form P)

/-- {lit}`EC_POINT_bn2point`: the number written on {lit}`BN_num_bytes` bytes
and parsed.  When that length is zero, 1.0.2 returns {lit}`NULL` and 3.0
writes one byte. -/
def bn2point (lib : OpenSSL) (bn : Nat) : Option ECPoint :=
  if numBytes bn = 0 then
    match lib with
    | .v1_0_2 => none
    | .v3_0 => (bn2binpad bn 1).bind oct2point
  else (bn2binpad bn (numBytes bn)).bind oct2point

/-! ## Square roots -/

theorem modSqrt_eq_some {a y : Nat} (h : modSqrt a = some y) :
    y < fieldPrime ∧ fmul y y = a % fieldPrime := by
  simp only [modSqrt] at h
  split_ifs at h with hsq
  rw [← Option.some.inj h]
  exact ⟨powMod_lt _ _ fieldPrime_pos, hsq⟩

/-- Euler's criterion for `p ≡ 3 (mod 4)`: the candidate root of a square is a
root. -/
theorem modSqrt_isSome {a z : Nat} (hz : fmul z z = a % fieldPrime) : ∃ y, modSqrt a = some y := by
  refine ⟨powMod a ((fieldPrime + 1) / 4) fieldPrime, ?_⟩
  have ha : (a : BaseField) = (z : BaseField) ^ 2 := by
    have h := congrArg (Nat.cast : Nat → BaseField) hz
    rw [cast_fmul, ZMod.natCast_mod] at h
    rw [← h, sq]
  simp only [modSqrt]
  rw [if_pos]
  rw [← natCast_inj (fmul_lt _ _) (Nat.mod_lt _ fieldPrime_pos), cast_fmul, powMod_cast,
    ZMod.natCast_mod, ha, ← pow_mul, ← pow_add,
    show 2 * ((fieldPrime + 1) / 4) + 2 * ((fieldPrime + 1) / 4) = fieldPrime + 1 by decide,
    pow_succ, ZMod.pow_card, sq]

/-- Two reduced residues have one square exactly when they are equal or
opposite. -/
theorem fmul_self_eq_iff {y z : Nat} (hy : y < fieldPrime) (hz : z < fieldPrime) :
    fmul y y = fmul z z ↔ y = z ∨ y + z = fieldPrime := by
  rw [← natCast_inj (fmul_lt _ _) (fmul_lt _ _), cast_fmul, cast_fmul, ← sq, ← sq,
    sq_eq_sq_iff_eq_or_eq_neg, natCast_inj hy hz, eq_neg_iff_add_eq_zero, ← Nat.cast_add,
    ZMod.natCast_zmod_eq_zero_iff_dvd]
  constructor
  · rintro (h | ⟨c, hc⟩)
    · exact .inl h
    · have hc2 : c < 2 := by
        by_contra hc2
        have := Nat.mul_le_mul_left fieldPrime (not_lt.mp hc2)
        omega
      interval_cases c
      · left; omega
      · right; omega
  · rintro (h | h)
    · exact .inl h
    · exact .inr ⟨1, by omega⟩

/-! ## Setting coordinates -/

theorem setAffineCoordinates_eq_some_iff {x y : Nat} {Q : ECPoint} :
    setAffineCoordinates x y = some Q ↔ Q = .affine x y ∧ (ECPoint.affine x y).OnCurve := by
  unfold setAffineCoordinates
  split_ifs with h <;> simp [h, eq_comm]

/-- Decompression returns the curve point with abscissa `x` and the parity
`yBit`, and fails when there is none. -/
theorem setCompressedCoordinates_eq_some_iff {x yBit : Nat} {Q : ECPoint} (hx : x < fieldPrime) :
    setCompressedCoordinates x yBit = some Q ↔
      ∃ y, Q = .affine x y ∧ (ECPoint.affine x y).OnCurve ∧ y % 2 = yBit := by
  unfold setCompressedCoordinates
  constructor
  · intro h
    split at h
    · cases h
    · dsimp only at h
      split_ifs at h with h0 hflip hpar <;>
        obtain ⟨rfl, hon⟩ := setAffineCoordinates_eq_some_iff.mp h <;>
        exact ⟨_, rfl, hon, by omega⟩
  · rintro ⟨y, rfl, hon, rfl⟩
    obtain ⟨-, hy, hcurve⟩ := hon
    have ha : fmul y y = fadd (fmul (fmul x x) x) curveB % fieldPrime := by
      rw [Nat.mod_eq_of_lt (fadd_lt _ _), hcurve]
    obtain ⟨y0, hy0⟩ := modSqrt_isSome ha
    obtain ⟨hy0p, hsq⟩ := modSqrt_eq_some hy0
    rw [← ha] at hsq
    have hodd := fieldPrime_odd
    have hon : (ECPoint.affine x y).OnCurve := ⟨hx, hy, hcurve⟩
    rw [hy0]
    rcases (fmul_self_eq_iff hy0p hy).mp hsq with rfl | hneg
    · simp [setAffineCoordinates, hon]
    · rcases eq_or_ne y0 y with rfl | hne
      · simp [setAffineCoordinates, hon]
      · have hflip : (if y % 2 ≠ y0 % 2 then fieldPrime - y0 else y0) = y := by
          rw [if_pos (by omega)]
          omega
        dsimp only
        rw [if_neg (by omega), hflip, if_neg (by omega)]
        simp [setAffineCoordinates, hon]

/-! ## Encoding and parsing -/

theorem bin2bn_toBytesBE_fieldLen {x : Nat} (hx : x < fieldPrime) :
    bin2bn (toBytesBE fieldLen x) = x :=
  bin2bn_toBytesBE_of_lt (fieldLen_eq ▸ lt_trans hx fieldPrime_lt_pow)

/-- A form byte `c + yBit` naming a coordinate form passes the header checks. -/
theorem oct2point_cons {c yBit : Nat} (hc : c = 2 ∨ c = 4 ∧ yBit = 0 ∨ c = 6) (hbit : yBit < 2)
    (rest : Bytes) :
    oct2point (UInt8.ofNat (c + yBit) :: rest) =
      if rest.length + 1 ≠ encLen c then none else decodeCoordinates c yBit rest := by
  have hb : (UInt8.ofNat (c + yBit)).toNat = c + yBit := by rw [toNat_byteOfNat]; omega
  simp only [oct2point, hb, show (c + yBit) % 2 = yBit by omega, Nat.add_sub_cancel]
  rw [if_neg (by omega), if_neg (by omega), if_neg (by omega)]

theorem encLen_compressed : encLen 2 = 1 + fieldLen := rfl

theorem encLen_of_ne {c : Nat} (hc : c ≠ 2) : encLen c = 1 + 2 * fieldLen := if_neg hc

/-- Every encoding of a curve point parses back to it. -/
theorem oct2point_point2oct (form : ConversionForm) {Q : ECPoint} (hQ : Q.OnCurve) :
    oct2point (point2oct form Q) = some Q := by
  cases Q with
  | infinity => rfl
  | affine x y =>
    have ⟨hx, hy, _⟩ := hQ
    have hbit : y % 2 < 2 := Nat.mod_lt _ two_pos
    have haff : setAffineCoordinates x y = some (.affine x y) :=
      setAffineCoordinates_eq_some_iff.mpr ⟨rfl, hQ⟩
    have hxs : (toBytesBE fieldLen x ++ toBytesBE fieldLen y).take fieldLen = toBytesBE fieldLen x :=
      List.take_left' (length_toBytesBE _ _)
    have hys : ((toBytesBE fieldLen x ++ toBytesBE fieldLen y).drop fieldLen).take fieldLen =
        toBytesBE fieldLen y := by
      rw [List.drop_left' (length_toBytesBE _ _), List.take_of_length_le (by simp)]
    cases form with
    | compressed =>
      rw [point2oct, oct2point_cons (.inl rfl) hbit, encLen_compressed, length_toBytesBE,
        if_neg (by omega), decodeCoordinates, List.take_of_length_le (by simp),
        bin2bn_toBytesBE_fieldLen hx, if_neg (not_le.mpr hx), if_pos rfl]
      exact (setCompressedCoordinates_eq_some_iff hx).mpr ⟨y, rfl, hQ, rfl⟩
    | uncompressed =>
      rw [point2oct, show (4 : UInt8) = UInt8.ofNat (4 + 0) from rfl,
        oct2point_cons (.inr (.inl ⟨rfl, rfl⟩)) (by decide), encLen_of_ne (by decide),
        List.length_append, length_toBytesBE, length_toBytesBE, if_neg (by omega),
        decodeCoordinates]
      dsimp only
      rw [hxs, hys, bin2bn_toBytesBE_fieldLen hx, bin2bn_toBytesBE_fieldLen hy,
        if_neg (not_le.mpr hx), if_neg (by decide), if_neg (not_le.mpr hy), if_neg (by omega), haff]
    | hybrid =>
      rw [point2oct, oct2point_cons (.inr (.inr rfl)) hbit, encLen_of_ne (by decide),
        List.length_append, length_toBytesBE, length_toBytesBE, if_neg (by omega),
        decodeCoordinates]
      dsimp only
      rw [hxs, hys, bin2bn_toBytesBE_fieldLen hx, bin2bn_toBytesBE_fieldLen hy,
        if_neg (not_le.mpr hx), if_neg (by decide), if_neg (not_le.mpr hy), if_neg (by omega), haff]

/-- What {lit}`decodeCoordinates` accepts after a valid header is an encoding
of the point it returns. -/
theorem point2oct_of_decodeCoordinates {b0 : UInt8} {rest : Bytes} {Q : ECPoint}
    (hform : b0.toNat - b0.toNat % 2 = 2 ∨ b0.toNat = 4 ∨ b0.toNat - b0.toNat % 2 = 6)
    (hlen : rest.length + 1 = encLen (b0.toNat - b0.toNat % 2))
    (h : decodeCoordinates (b0.toNat - b0.toNat % 2) (b0.toNat % 2) rest = some Q) :
    Q.OnCurve ∧ ∃ form, point2oct form Q = b0 :: rest := by
  have hb := byte_toNat_lt b0
  simp only [decodeCoordinates] at h
  split_ifs at h with hx hc hy hpar
  · -- compressed form
    rw [hc, encLen_compressed] at hlen
    obtain ⟨y, rfl, hon, hypar⟩ := (setCompressedCoordinates_eq_some_iff (not_le.mp hx)).mp h
    refine ⟨hon, .compressed, ?_⟩
    rw [point2oct, List.take_of_length_le (by omega), toBytesBE_bin2bn_of_length (by omega)]
    exact congrArg (· :: rest) (byte_ext (by rw [toNat_byteOfNat]; omega))
  · -- uncompressed or hybrid form
    rw [encLen_of_ne hc] at hlen
    obtain ⟨rfl, hon⟩ := setAffineCoordinates_eq_some_iff.mp h
    have hys : ((rest.drop fieldLen).take fieldLen).length = fieldLen := by simp; omega
    have hdrop : (rest.drop fieldLen).take fieldLen = rest.drop fieldLen :=
      List.take_of_length_le (by simp; omega)
    have hrest : rest.take fieldLen ++ (rest.drop fieldLen).take fieldLen = rest := by
      rw [hdrop, List.take_append_drop]
    by_cases h4 : b0.toNat = 4
    · refine ⟨hon, .uncompressed, ?_⟩
      rw [point2oct, toBytesBE_bin2bn_of_length (by simp; omega), toBytesBE_bin2bn_of_length hys,
        hrest]
      exact congrArg (· :: rest) (byte_ext (by rw [h4]; rfl))
    · refine ⟨hon, .hybrid, ?_⟩
      rw [point2oct, toBytesBE_bin2bn_of_length (by simp; omega), toBytesBE_bin2bn_of_length hys,
        hrest]
      exact congrArg (· :: rest) (byte_ext (by rw [toNat_byteOfNat]; omega))

/-- What the parser accepts is an encoding of the point it returns. -/
theorem point2oct_of_oct2point {buf : Bytes} {Q : ECPoint} (h : oct2point buf = some Q) :
    Q.OnCurve ∧ ∃ form, point2oct form Q = buf := by
  obtain _ | ⟨b0, rest⟩ := buf
  · cases h
  have hb := byte_toNat_lt b0
  simp only [oct2point] at h
  split_ifs at h with h1 h2 h3 h4 h5
  · -- the point at infinity, from the single byte zero
    obtain rfl := Option.some.inj h
    refine ⟨trivial, .compressed, ?_⟩
    rw [List.length_eq_zero.mp (by omega : rest.length = 0)]
    exact congrArg (· :: []) (byte_ext (by rw [UInt8.toNat_zero]; omega))
  · exact point2oct_of_decodeCoordinates (by omega) (by omega) h

/-- The parser accepts exactly the encodings of curve points, and returns the
point encoded. -/
theorem oct2point_eq_some_iff {buf : Bytes} {Q : ECPoint} :
    oct2point buf = some Q ↔ Q.OnCurve ∧ ∃ form, point2oct form Q = buf :=
  ⟨point2oct_of_oct2point, fun ⟨hQ, form, h⟩ => h ▸ oct2point_point2oct form hQ⟩

/-- Each form of encoding is injective on curve points, so a hash of
encodings binds the points. -/
theorem point2oct_eq_point2oct_iff (form : ConversionForm) {P Q : ECPoint} (hP : P.OnCurve)
    (hQ : Q.OnCurve) : point2oct form P = point2oct form Q ↔ P = Q :=
  ⟨fun h => Option.some.inj ((oct2point_point2oct form hP).symm.trans
    (h ▸ oct2point_point2oct form hQ)), fun h => h ▸ rfl⟩

/-- The base point and its negative `(x, p − y)`, which share their abscissa
and differ in the parity of `y`: their compressed encodings differ only in the
form byte. -/
theorem point2oct_eq_point2oct_iff_G :
    G.OnCurve ∧ (ECPoint.affine genX (fieldPrime - genY)).OnCurve ∧
      (point2oct .compressed G = point2oct .compressed (.affine genX (fieldPrime - genY)) ↔
        G = .affine genX (fieldPrime - genY)) :=
  have hneg : (ECPoint.affine genX (fieldPrime - genY)).OnCurve := by decide
  ⟨G_onCurve, hneg, point2oct_eq_point2oct_iff .compressed G_onCurve hneg⟩

/-! ## Through a BIGNUM -/

/-- Every encoding of a point other than infinity starts with a nonzero byte. -/
theorem point2oct_affine_eq_cons (form : ConversionForm) (x y : Nat) :
    ∃ b rest, point2oct form (.affine x y) = b :: rest ∧ b ≠ 0 := by
  have hne (c : Nat) (hc : 0 < c ∧ c < 250) : UInt8.ofNat (c + y % 2) ≠ 0 := fun h => by
    have := congrArg UInt8.toNat h
    rw [toNat_byteOfNat, UInt8.toNat_zero] at this
    omega
  cases form with
  | compressed => exact ⟨_, _, rfl, hne 2 (by decide)⟩
  | uncompressed => exact ⟨_, _, rfl, by decide⟩
  | hybrid => exact ⟨_, _, rfl, hne 6 (by decide)⟩

theorem length_point2oct_compressed (x y : Nat) :
    (point2oct .compressed (.affine x y)).length = 33 := by
  simp [point2oct, fieldLen_eq]

theorem length_point2oct_of_ne {form : ConversionForm} (h : form ≠ .compressed) (x y : Nat) :
    (point2oct form (.affine x y)).length = 65 := by
  cases form <;> simp_all [point2oct, fieldLen_eq]

/-- A nonzero number is written on its own length on every release. -/
theorem bn2point_of_numBytes_ne (lib : OpenSSL) {bn : Nat} (h : numBytes bn ≠ 0) :
    bn2point lib bn = (bn2binpad bn (numBytes bn)).bind oct2point :=
  if_neg h

/-- A number whose shortest encoding starts with a nonzero byte is parsed from
that encoding. -/
theorem bn2point_bin2bn_cons (lib : OpenSSL) {b : UInt8} (hb : b ≠ 0) (rest : Bytes) :
    bn2point lib (bin2bn (b :: rest)) = oct2point (b :: rest) := by
  have hn := numBytes_bin2bn_cons hb rest
  rw [bn2point_of_numBytes_ne lib (by omega), bn2binpad, hn, if_pos le_rfl,
    Option.some_bind, ← List.length_cons, toBytesBE_bin2bn]

/-- Every encoding of a curve point is parsed back to it through a
{lit}`BIGNUM`, the point at infinity on 3.0 only. -/
theorem bn2point_point2bn {lib : OpenSSL} (form : ConversionForm) {Q : ECPoint} (hQ : Q.OnCurve)
    (h : lib = .v3_0 ∨ Q ≠ .infinity) : bn2point lib (point2bn form Q) = some Q := by
  cases Q with
  | infinity =>
    obtain rfl := h.resolve_right (not_not.mpr rfl)
    cases form <;> rfl
  | affine x y =>
    obtain ⟨b, rest, henc, hb⟩ := point2oct_affine_eq_cons form x y
    rw [point2bn, henc, bn2point_bin2bn_cons lib hb, ← henc, oct2point_point2oct form hQ]

/-- What {lit}`EC_POINT_bn2point` returns is a curve point whose encoding, in
some form, has the value it read; on 1.0.2 it is not the point at infinity. -/
theorem point2bn_of_bn2point {lib : OpenSSL} {bn : Nat} {Q : ECPoint}
    (h : bn2point lib bn = some Q) :
    Q.OnCurve ∧ (∃ form, point2bn form Q = bn) ∧ (lib = .v3_0 ∨ Q ≠ .infinity) := by
  have hpad : ∃ len, ((bn2binpad bn len).bind oct2point = some Q) ∧
      (lib = .v3_0 ∨ numBytes bn ≠ 0) := by
    unfold bn2point at h
    split_ifs at h with h0
    · cases lib with
      | v1_0_2 => cases h
      | v3_0 => exact ⟨1, h, .inl rfl⟩
    · exact ⟨_, h, .inr h0⟩
  obtain ⟨len, hlen, hlib⟩ := hpad
  simp only [Option.bind_eq_some] at hlen
  obtain ⟨buf, hpad, hoct⟩ := hlen
  obtain ⟨hlt, rfl⟩ := bn2binpad_eq_some_iff.mp hpad
  obtain ⟨hQ, form, henc⟩ := point2oct_of_oct2point hoct
  have hbn : point2bn form Q = bn := by rw [point2bn, henc, bin2bn_toBytesBE_of_lt hlt]
  refine ⟨hQ, ⟨form, hbn⟩, hlib.imp_right fun h0 hinf => h0 ?_⟩
  rw [← hbn, hinf, show point2bn form .infinity = 0 by cases form <;> rfl, numBytes_zero]

/-- {lit}`EC_POINT_bn2point` accepts exactly the numbers of encodings of curve
points, and returns the point encoded; on 1.0.2 it rejects zero, the number
of the point at infinity. -/
theorem bn2point_eq_some_iff {lib : OpenSSL} {bn : Nat} {Q : ECPoint} :
    bn2point lib bn = some Q ↔
      Q.OnCurve ∧ (∃ form, point2bn form Q = bn) ∧ (lib = .v3_0 ∨ Q ≠ .infinity) :=
  ⟨point2bn_of_bn2point, fun ⟨hQ, ⟨form, h⟩, hlib⟩ => h ▸ bn2point_point2bn form hQ hlib⟩

end Secp256k1
end LibSchnorr
