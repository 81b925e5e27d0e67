import SchnorrLean.Curve.Octets
import SchnorrLean.Serialize.BIGNUMSerialize

/-!
# Point serialisation

{lit}`ECPOINTSerialize::SetNumber` turns a point into the {lit}`BIGNUM` of its
compressed encoding ({lit}`EC_POINT_point2bn`) and writes it with
{lit}`BIGNUMSerialize::SetNumber`; {lit}`ECPOINTSerialize::GetNumber` reads a
{lit}`BIGNUM` with {lit}`BIGNUMSerialize::GetNumber` and converts it back
with {lit}`EC_POINT_bn2point`.  The detour through a number drops the
leading zero bytes of the window before the point parser sees it; what is
left of a window of zeros is the number zero, which {lit}`EC_POINT_bn2point`
rejects on OpenSSL 1.0.2 and reads as the point at infinity on 3.0.

Main results:

- {lit}`ECPOINTSerialize.getNumber_setNumber`: a point other than infinity
  written on 33 bytes is read back, its compressed encoding in the window
  and the rest of the buffer unchanged;
- {lit}`ECPOINTSerialize.getNumber_eq_some_iff`: on a 33-byte window and
  OpenSSL 3.0, the points read are exactly those whose compressed encoding
  the window is, and the point at infinity, read from 33 zero bytes;
- {lit}`ECPOINTSerialize.getNumber_eq_some_iff_compressed`: on 1.0.2, only
  the compressed encodings of points other than infinity are read;
- {lit}`ECPOINTSerialize.getNumber_eq_some_iff_window`: the same at every
  width, zero bytes in front of an encoding in any form allowed;
- {lit}`ECPOINTSerialize.getNumber_setNumber_iff`: the round trip at every
  width holds exactly from 33 bytes on, or for the point at infinity;
- {lit}`ECPOINTSerialize.getNumber_setNumber_of_disjoint`: a write leaves
  every window it does not overlap as it read before.
-/

namespace LibSchnorr

open Secp256k1

namespace ECPOINTSerialize

/-- {lit}`ECPOINTSerialize::GetNumber`: the number at `offset`, converted to a
point. -/
def getNumber (lib : OpenSSL) (src : Bytes) (offset size : UInt32) : Option ECPoint :=
  match BIGNUMSerialize.getNumber src offset size with
  | none => none
  | some bnvalue => bn2point lib bnvalue

/-- {lit}`ECPOINTSerialize::SetNumber`: the number of the point's compressed
encoding, written at `offset`. -/
def setNumber (dst : Bytes) (offset size : UInt32) (value : ECPoint) : Bytes :=
  BIGNUMSerialize.setNumber dst offset size (point2bn .compressed value)

/-- A window inside the buffer is read as a number and converted. -/
theorem getNumber_of_le (lib : OpenSSL) {src : Bytes} {offset size : UInt32}
    (h : offset.toNat + size.toNat ≤ src.length) :
    getNumber lib src offset size = bn2point lib (bin2bn (window src offset.toNat size.toNat)) := by
  rw [getNumber, BIGNUMSerialize.getNumber, if_pos h]

/-- The point at infinity reads as zero in every form. -/
theorem point2bn_infinity (form : ConversionForm) : point2bn form .infinity = 0 := by
  cases form <;> rfl

/-- The compressed encoding of a point other than infinity has 33 bytes, the
first of them nonzero. -/
theorem point2oct_compressed_eq_cons {P : ECPoint} (hne : P ≠ .infinity) :
    ∃ b rest, point2oct .compressed P = b :: rest ∧ b ≠ 0 ∧ rest.length = 32 := by
  obtain _ | ⟨x, y⟩ := P
  · exact absurd rfl hne
  · obtain ⟨b, rest, henc, hb⟩ := point2oct_affine_eq_cons .compressed x y
    refine ⟨b, rest, henc, hb, ?_⟩
    have := congrArg List.length henc
    simp only [point2oct, List.length_cons, length_toBytesBE, fieldLen_eq] at this
    omega

/-- The compressed encoding of a point other than infinity takes all 33 bytes. -/
theorem numBytes_point2bn {P : ECPoint} (hne : P ≠ .infinity) :
    numBytes (point2bn .compressed P) = 33 := by
  obtain ⟨b, rest, henc, hb, hlen⟩ := point2oct_compressed_eq_cons hne
  rw [point2bn, henc, numBytes_bin2bn_cons hb, hlen]

/-- So writing its number on 33 bytes gives the encoding back. -/
theorem toBytesBE_point2bn {P : ECPoint} (hne : P ≠ .infinity) :
    toBytesBE 33 (point2bn .compressed P) = point2oct .compressed P := by
  obtain ⟨b, rest, henc, hb, hlen⟩ := point2oct_compressed_eq_cons hne
  rw [point2bn, henc, toBytesBE_bin2bn_of_length (by simp [hlen])]

/-- Round trip of a point through a buffer: after {lit}`SetNumber` on 33 bytes
the buffer reaches past the window, the window holds the compressed encoding
of the point, the other bytes of the buffer are unchanged, and
{lit}`GetNumber` returns the point, on every release. -/
theorem getNumber_setNumber (lib : OpenSSL) {P : ECPoint} (hP : P.OnCurve) (hne : P ≠ .infinity)
    (dst : Bytes) (offset : UInt32) :
    offset.toNat + 33 ≤ (setNumber dst offset 33 P).length ∧
      window (setNumber dst offset 33 P) offset.toNat 33 = point2oct .compressed P ∧
      (∀ i < dst.length, i < offset.toNat ∨ offset.toNat + 33 ≤ i →
        (setNumber dst offset 33 P)[i]? = dst[i]?) ∧
      getNumber lib (setNumber dst offset 33 P) offset 33 = some P := by
  have hfit : numBytes (point2bn .compressed P) ≤ (33 : UInt32).toNat :=
    (numBytes_point2bn hne).le
  refine ⟨?_, ?_, fun i hi hout => BIGNUMSerialize.getElem?_setNumber hfit hi hout, ?_⟩
  · rw [setNumber, BIGNUMSerialize.length_setNumber hfit]
    exact le_max_right _ _
  · exact (BIGNUMSerialize.window_setNumber hfit).trans (toBytesBE_point2bn hne)
  · rw [getNumber, setNumber, BIGNUMSerialize.getNumber_setNumber_of_le hfit]
    exact bn2point_point2bn .compressed hP (.inr hne)

/-- The base point, written at the start of an empty buffer, is read back on
OpenSSL 1.0.2. -/
theorem getNumber_setNumber_G :
    G.OnCurve ∧ G ≠ .infinity ∧ getNumber .v1_0_2 (setNumber [] 0 33 G) 0 33 = some G :=
  ⟨G_onCurve, by decide, (getNumber_setNumber .v1_0_2 G_onCurve (by decide) [] 0).2.2.2⟩

/-- On a 33-byte window, {lit}`GetNumber` returns exactly the curve points
whose compressed encoding the window is, and, on OpenSSL 3.0, the point at
infinity when the window is all zeros. -/
theorem getNumber_thirtyThree_eq_some_iff (lib : OpenSSL) {src : Bytes} {offset : UInt32}
    (h : offset.toNat + 33 ≤ src.length) {Q : ECPoint} :
    getNumber lib src offset 33 = some Q ↔
      Q.OnCurve ∧ ((Q ≠ .infinity ∧ window src offset.toNat 33 = point2oct .compressed Q) ∨
        (Q = .infinity ∧ lib = .v3_0 ∧ window src offset.toNat 33 = List.replicate 33 0)) := by
  have hw : (window src offset.toNat 33).length = 33 := length_window_of_le h
  rw [getNumber_of_le lib h, show (33 : UInt32).toNat = 33 from rfl, bn2point_eq_some_iff]
  refine and_congr_right fun hQ => ⟨fun ⟨⟨form, hform⟩, hlib⟩ => ?_, fun hcases => ?_⟩
  · obtain _ | ⟨x, y⟩ := Q
    · refine .inr ⟨rfl, hlib.resolve_right (not_not.mpr rfl), eq_of_bin2bn_eq (by simp [hw]) ?_⟩
      rw [← hform, bin2bn_zeros, point2bn_infinity]
    · obtain ⟨b, rest, henc, hb⟩ := point2oct_affine_eq_cons form x y
      have hlt := bin2bn_lt (window src offset.toNat 33)
      have hge := pow_le_bin2bn_cons hb rest
      rw [point2bn, henc] at hform
      by_cases hc : form = .compressed
      · subst hc
        refine .inl ⟨nofun, ?_⟩
        rw [henc]
        exact eq_of_bin2bn_eq (by rw [hw, ← henc, length_point2oct_compressed]) hform.symm
      · have hlen := length_point2oct_of_ne hc x y
        rw [henc, List.length_cons] at hlen
        rw [show rest.length = 64 by omega] at hge
        rw [hw] at hlt
        have hpow : 256 ^ 33 ≤ 256 ^ 64 := Nat.pow_le_pow_right (by norm_num) (by norm_num)
        omega
  · rcases hcases with ⟨hne, henc⟩ | ⟨rfl, rfl, hzero⟩
    · exact ⟨⟨.compressed, by rw [point2bn, henc]⟩, .inr hne⟩
    · exact ⟨⟨.compressed, by rw [hzero, bin2bn_zeros, point2bn_infinity]⟩, .inl rfl⟩

/-- On OpenSSL 1.0.2, the release of the CI image, {lit}`GetNumber` on a
33-byte window returns exactly the curve points other than infinity whose
compressed encoding the window is: 33 zero bytes are the number zero, which
{lit}`EC_POINT_bn2point` rejects there. -/
theorem getNumber_eq_some_iff_compressed {src : Bytes} {offset : UInt32}
    (h : offset.toNat + 33 ≤ src.length) {Q : ECPoint} :
    getNumber .v1_0_2 src offset 33 = some Q ↔
      Q.OnCurve ∧ Q ≠ .infinity ∧ window src offset.toNat 33 = point2oct .compressed Q := by
  simpa only [reduceCtorEq, false_and, and_false, or_false] using
    getNumber_thirtyThree_eq_some_iff .v1_0_2 h

/-- The base point written on 33 bytes of an empty buffer, read on 1.0.2. -/
theorem getNumber_eq_some_iff_compressed_G :
    (0 : UInt32).toNat + 33 ≤ (setNumber [] 0 33 G).length ∧
      (getNumber .v1_0_2 (setNumber [] 0 33 G) 0 33 = some G ↔
        G.OnCurve ∧ G ≠ .infinity ∧
          window (setNumber [] 0 33 G) (0 : UInt32).toNat 33 = point2oct .compressed G) :=
  ⟨by decide, getNumber_eq_some_iff_compressed (by decide)⟩

/-! ## Windows of any width -/


/-- What {lit}`GetNumber` accepts on a window of any width on OpenSSL 3.0: a
window inside the buffer that holds, behind zero bytes, an encoding of a
curve point other than infinity in any of the three forms; or a window of
zeros, the empty one included, which reads as the point at infinity. -/
theorem getNumber_eq_some_iff_window {src : Bytes} {offset size : UInt32} {Q : ECPoint} :
    getNumber .v3_0 src offset size = some Q ↔
      offset.toNat + size.toNat ≤ src.length ∧ Q.OnCurve ∧
        ((Q ≠ .infinity ∧ ∃ form pad,
            window src offset.toNat size.toNat = List.replicate pad 0 ++ point2oct form Q) ∨
          (Q = .infinity ∧ window src offset.toNat size.toNat = List.replicate size.toNat 0)) := by
  by_cases hfit : offset.toNat + size.toNat ≤ src.length
  · rw [getNumber_of_le .v3_0 hfit, bn2point_eq_some_iff, and_iff_right hfit]
    refine and_congr_right fun _ => ?_
    obtain _ | ⟨x, y⟩ := Q
    · have hzero := @bin2bn_eq_zero_iff (window src offset.toNat size.toNat)
      rw [length_window_of_le hfit] at hzero
      simp only [point2bn_infinity, ne_eq, not_true_eq_false, false_and, true_and, false_or,
        true_or, and_true, ← hzero]
      exact ⟨fun ⟨_, h⟩ => h.symm, fun h => ⟨.compressed, h.symm⟩⟩
    · simp only [ne_eq, reduceCtorEq, not_false_eq_true, true_and, false_and, or_false, or_true,
        and_true]
      refine exists_congr fun form => ?_
      obtain ⟨b, rest, henc, hb⟩ := point2oct_affine_eq_cons form x y
      rw [point2bn, henc, eq_comm, bin2bn_eq_bin2bn_cons_iff hb]
  · rw [getNumber, BIGNUMSerialize.getNumber, if_neg hfit]
    simp [hfit]

/-- Every point's compressed encoding fits in 33 bytes. -/
theorem numBytes_point2bn_le (P : ECPoint) : numBytes (point2bn .compressed P) ≤ 33 := by
  obtain _ | ⟨x, y⟩ := P
  · rw [point2bn_infinity]
    exact Nat.zero_le _
  · have hne : ECPoint.affine x y ≠ .infinity := nofun
    exact (numBytes_point2bn hne).le

/-- Every encoding of a point other than infinity reads as at least `256 ^ 32`. -/
theorem pow_le_point2bn (form : ConversionForm) {P : ECPoint} (hne : P ≠ .infinity) :
    256 ^ 32 ≤ point2bn form P := by
  obtain _ | ⟨x, y⟩ := P
  · exact absurd rfl hne
  obtain ⟨b, rest, henc, hb⟩ := point2oct_affine_eq_cons form x y
  have hlen : 32 ≤ rest.length := by
    have h := congrArg List.length henc
    by_cases hc : form = .compressed
    · rw [hc, length_point2oct_compressed, List.length_cons] at h
      omega
    · rw [length_point2oct_of_ne hc, List.length_cons] at h
      omega
  rw [point2bn, henc]
  exact (Nat.pow_le_pow_right (by norm_num) hlen).trans (pow_le_bin2bn_cons hb rest)

/-- Round trip at every width: {lit}`GetNumber` reads back the curve point
{lit}`SetNumber` wrote exactly when the width holds the 33 bytes of its
compressed encoding, or the point is the point at infinity, written as zeros.
On fewer bytes the write leaves the buffer as it was, and no window that
short reads as a point other than infinity. -/
theorem getNumber_setNumber_iff {P : ECPoint} (hP : P.OnCurve) (dst : Bytes)
    (offset size : UInt32) :
    getNumber .v3_0 (setNumber dst offset size P) offset size = some P ↔
      P = .infinity ∨ 33 ≤ size.toNat := by
  refine ⟨fun h => ?_, fun h => ?_⟩
  · by_contra hcon
    push_neg at hcon
    rw [setNumber, BIGNUMSerialize.setNumber_of_lt (by rw [numBytes_point2bn hcon.1]; omega)] at h
    by_cases hfit : offset.toNat + size.toNat ≤ dst.length
    · rw [getNumber_of_le .v3_0 hfit] at h
      obtain ⟨-, ⟨form, hform⟩, -⟩ := bn2point_eq_some_iff.mp h
      have hlt := bin2bn_lt (window dst offset.toNat size.toNat)
      rw [length_window_of_le hfit] at hlt
      have hpow : 256 ^ size.toNat ≤ 256 ^ 32 := Nat.pow_le_pow_right (by norm_num) (by omega)
      have := pow_le_point2bn form hcon.1
      omega
    · simp [getNumber, BIGNUMSerialize.getNumber, hfit] at h
  · have hfit : numBytes (point2bn .compressed P) ≤ size.toNat := by
      rcases h with rfl | h
      · rw [point2bn_infinity]
        exact Nat.zero_le _
      · exact (numBytes_point2bn_le P).trans h
    rw [getNumber, setNumber, BIGNUMSerialize.getNumber_setNumber_of_le hfit]
    exact bn2point_point2bn .compressed hP (.inl rfl)

/-- Thirty-two bytes are too few for the base point. -/
theorem getNumber_setNumber_iff_short :
    getNumber .v3_0 (setNumber (List.replicate 32 0) 0 32 G) 0 32 = some G ↔
      G = .infinity ∨ 33 ≤ (32 : UInt32).toNat :=
  getNumber_setNumber_iff G_onCurve (List.replicate 32 0) 0 32

/-- {lit}`SetNumber` leaves every window it does not overlap as it was, so a
point written at one window does not change what {lit}`GetNumber` reads at
another, whatever the widths. -/
theorem getNumber_setNumber_of_disjoint (lib : OpenSSL) (dst : Bytes)
    {offset size offset' size' : UInt32} (P : ECPoint) (hle : offset'.toNat + size'.toNat ≤ dst.length)
    (hdisj : offset'.toNat + size'.toNat ≤ offset.toNat ∨ offset.toNat + size.toNat ≤ offset'.toNat) :
    getNumber lib (setNumber dst offset size P) offset' size' = getNumber lib dst offset' size' := by
  by_cases hfit : numBytes (point2bn .compressed P) ≤ size.toNat
  · rw [getNumber, getNumber, setNumber,
      BIGNUMSerialize.getNumber_setNumber_other hfit hle hdisj]
  · rw [setNumber, BIGNUMSerialize.setNumber_of_lt (not_le.mp hfit)]

/-- The base point written into the second half of 66 zero bytes. -/
theorem getNumber_setNumber_of_disjoint_halves :
    getNumber .v1_0_2 (setNumber (List.replicate 66 0) 33 33 G) 0 33 =
      getNumber .v1_0_2 (List.replicate 66 0) 0 33 :=
  getNumber_setNumber_of_disjoint .v1_0_2 (List.replicate 66 0) G (by decide) (by decide)

end ECPOINTSerialize
end LibSchnorr
