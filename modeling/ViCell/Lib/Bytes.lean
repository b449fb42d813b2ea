import Mathlib

/-!
# Little-endian fields

Fixed-width unsigned fields as lists of bytes, least significant byte first.
A value too large for its field is truncated, as a cast to the field's type
would truncate it.
-/

namespace ViCell.Lib.Bytes

open List

def encodeLE : Nat → Nat → List (BitVec 8)
  | 0, _ => []
  | width + 1, value => BitVec.ofNat 8 value :: encodeLE width (value / 256)

def decodeLE : List (BitVec 8) → Nat
  | [] => 0
  | byte :: rest => byte.toNat + 256 * decodeLE rest

@[simp]
theorem length_encode (width value : Nat) : (encodeLE width value).length = width := by
  induction width generalizing value with
  | zero => rfl
  | succ width ih =>
    rw [encodeLE, length_cons, ih]

theorem decode_encode (width value : Nat) :
    decodeLE (encodeLE width value) = value % 256 ^ width := by
  induction width generalizing value with
  | zero => simp [encodeLE, decodeLE, Nat.mod_one]
  | succ width ih =>
    have split : 256 ^ (width + 1) = 256 * 256 ^ width := Nat.pow_succ'
    rw [encodeLE, decodeLE, ih, BitVec.toNat_ofNat, split, Nat.mod_mul]

theorem decode_field (width value : Nat) (rest : List (BitVec 8)) (fits : value < 256 ^ width) :
    decodeLE ((encodeLE width value ++ rest).take width) = value := by
  rw [take_left' (length_encode width value), decode_encode, Nat.mod_eq_of_lt fits]

theorem drop_field (width value offset : Nat) (rest : List (BitVec 8)) (past : width ≤ offset) :
    (encodeLE width value ++ rest).drop offset = rest.drop (offset - width) := by
  rw [drop_append, length_encode, drop_eq_nil_of_le (by simpa using past), nil_append]

end ViCell.Lib.Bytes
