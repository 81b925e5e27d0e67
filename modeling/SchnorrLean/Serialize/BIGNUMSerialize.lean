import SchnorrLean.Bytes.BigEndian

/-!
# Fixed-width scalar serialisation

{lit}`BIGNUMSerialize::GetNumber` and {lit}`BIGNUMSerialize::SetNumber` move a
{lit}`BIGNUM` in and out of a byte buffer at an offset.  Their source file is
not part of the repository, so both are modelled from the specification
(section 4.2): a number is `size` big-endian bytes, left-padded with zeros;
reading fails when the bytes run past the buffer; writing grows the buffer
as needed and fails, leaving it unchanged, when the number needs more than
`size` bytes.  Offsets and sizes are the {lit}`unsigned int`s of the
interface; the bounds are compared without wrapping, as the specification
states them.

Main results:

- {lit}`length_setNumber`, {lit}`window_setNumber`,
  {lit}`getElem?_setNumber`: a write produces a buffer long enough for the
  window, holding the encoding there and the old bytes elsewhere;
- {lit}`getNumber_setNumber_of_le`: what was written is read back.
-/

namespace LibSchnorr
namespace BIGNUMSerialize

/-- {lit}`BIGNUMSerialize::GetNumber`, modelled from the specification: the
`size` bytes at `offset` as a big-endian number, or failure when they do not
lie in `src`. -/
def getNumber (src : Bytes) (offset size : UInt32) : Option Nat :=
  if offset.toNat + size.toNat ≤ src.length then
    some (bin2bn (window src offset.toNat size.toNat))
  else none

/-- {lit}`BIGNUMSerialize::SetNumber`, modelled from the specification: the
number as `size` big-endian bytes at `offset`, the buffer first grown with
zeros to reach `offset + size`; a number longer than `size` bytes leaves the
buffer unchanged. -/
def setNumber (dst : Bytes) (offset size : UInt32) (value : Nat) : Bytes :=
  if size.toNat < numBytes value then dst
  else
    let grown := dst ++ List.replicate (offset.toNat + size.toNat - dst.length) 0
    grown.take offset.toNat ++ toBytesBE size.toNat value ++ grown.drop (offset.toNat + size.toNat)

section Write

variable {dst : Bytes} {offset size : UInt32} {value : Nat}

theorem setNumber_of_lt (h : size.toNat < numBytes value) :
    setNumber dst offset size value = dst :=
  if_pos h

theorem setNumber_of_le (h : numBytes value ≤ size.toNat) :
    setNumber dst offset size value =
      (dst ++ List.replicate (offset.toNat + size.toNat - dst.length) 0).take offset.toNat ++
        toBytesBE size.toNat value ++
        (dst ++ List.replicate (offset.toNat + size.toNat - dst.length) 0).drop
          (offset.toNat + size.toNat) :=
  if_neg (not_lt.mpr h)

theorem length_setNumber (h : numBytes value ≤ size.toNat) :
    (setNumber dst offset size value).length = max dst.length (offset.toNat + size.toNat) := by
  rw [setNumber_of_le h]
  simp only [List.length_append, List.length_take, List.length_drop, List.length_replicate,
    length_toBytesBE]
  omega

/-- The window of a write holds the number's encoding. -/
theorem window_setNumber (h : numBytes value ≤ size.toNat) :
    window (setNumber dst offset size value) offset.toNat size.toNat =
      toBytesBE size.toNat value := by
  have htake : ((dst ++ List.replicate (offset.toNat + size.toNat - dst.length) 0).take
      offset.toNat).length = offset.toNat := by
    simp only [List.length_take, List.length_append, List.length_replicate]
    omega
  rw [setNumber_of_le h, window, List.append_assoc, List.drop_left' htake,
    List.take_left' (length_toBytesBE _ _)]

/-- A write leaves the bytes of `dst` outside the window as they were. -/
theorem getElem?_setNumber (h : numBytes value ≤ size.toNat) {i : Nat} (hi : i < dst.length)
    (hout : i < offset.toNat ∨ offset.toNat + size.toNat ≤ i) :
    (setNumber dst offset size value)[i]? = dst[i]? := by
  rw [setNumber_of_le h]
  rcases hout with hlt | hge
  · rw [List.append_assoc, List.getElem?_append_left (by simp; omega),
      List.getElem?_take_of_lt hlt, List.getElem?_append_left hi]
  · rw [List.getElem?_append_right (by simp; omega), List.getElem?_drop,
      List.getElem?_append_left (by simp; omega)]
    congr 1
    simp only [List.length_append, List.length_take, List.length_append, List.length_replicate,
      length_toBytesBE]
    omega

/-- A write leaves every window of `dst` that it does not overlap as it was. -/
theorem window_setNumber_of_disjoint (h : numBytes value ≤ size.toNat) {offset' size' : Nat}
    (hle : offset' + size' ≤ dst.length)
    (hdisj : offset' + size' ≤ offset.toNat ∨ offset.toNat + size.toNat ≤ offset') :
    window (setNumber dst offset size value) offset' size' = window dst offset' size' := by
  refine List.ext_getElem? fun i => ?_
  simp only [window, List.getElem?_take, List.getElem?_drop]
  split_ifs with hi
  · exact getElem?_setNumber h (by omega) (by omega)
  · rfl

/-- A write does not change what is read at a window it does not overlap. -/
theorem getNumber_setNumber_other (h : numBytes value ≤ size.toNat) {offset' size' : UInt32}
    (hle : offset'.toNat + size'.toNat ≤ dst.length)
    (hdisj : offset'.toNat + size'.toNat ≤ offset.toNat ∨ offset.toNat + size.toNat ≤ offset'.toNat) :
    getNumber (setNumber dst offset size value) offset' size' = getNumber dst offset' size' := by
  rw [getNumber, getNumber, if_pos hle, if_pos (by rw [length_setNumber h]; omega),
    window_setNumber_of_disjoint h hle hdisj]

/-- What {lit}`SetNumber` writes, {lit}`GetNumber` reads back. -/
theorem getNumber_setNumber_of_le (h : numBytes value ≤ size.toNat) :
    getNumber (setNumber dst offset size value) offset size = some value := by
  rw [getNumber, if_pos (by rw [length_setNumber h]; omega), window_setNumber h,
    bin2bn_toBytesBE_of_lt (numBytes_le_iff.mp h)]

end Write

end BIGNUMSerialize
end LibSchnorr
