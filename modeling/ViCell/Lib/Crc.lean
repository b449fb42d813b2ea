import Mathlib

/-!
# Reflected cyclic redundancy checks

The register machine behind a reflected CRC of any width and polynomial. With
the top bit of the polynomial set, feeding any fixed input is injective in the
register: two checksums over the same trailing input agree only if the
registers agreed before it.
-/

namespace ViCell.Lib.Crc

open BitVec

section Register

variable {width : Nat} (poly : BitVec width)

def shiftOut (register : BitVec width) : BitVec width :=
  if register.getLsbD 0 then (register >>> 1) ^^^ poly else register >>> 1

def feedByte (register : BitVec width) (byte : BitVec 8) : BitVec width :=
  (shiftOut poly)^[8] (register ^^^ byte.setWidth width)

def feed (register : BitVec width) (bytes : List (BitVec 8)) : BitVec width :=
  bytes.foldl (feedByte poly) register

theorem feed_append (register : BitVec width) (front back : List (BitVec 8)) :
    feed poly register (front ++ back) = feed poly (feed poly register front) back :=
  List.foldl_append

variable {poly}

theorem shift_out_rest (register : BitVec width) (index : Nat) :
    register.getLsbD (1 + index) =
      ((shiftOut poly register).getLsbD index ^^ (register.getLsbD 0 && poly.getLsbD index)) := by
  unfold shiftOut
  cases register.getLsbD 0 with
  | false => simp [getLsbD_ushiftRight]
  | true => simp [getLsbD_ushiftRight, getLsbD_xor]

section

variable (top : poly.getLsbD (width - 1) = true)
include top

theorem shift_out_top (pos : 0 < width) (register : BitVec width) :
    (shiftOut poly register).getLsbD (width - 1) = register.getLsbD 0 := by
  have above : register.getLsbD (1 + (width - 1)) = false := by
    apply getLsbD_of_ge
    omega
  unfold shiftOut
  cases out : register.getLsbD 0 with
  | false =>
    simp only [Bool.false_eq_true, if_false, getLsbD_ushiftRight]
    exact above
  | true =>
    simp only [if_true, getLsbD_xor, getLsbD_ushiftRight, above, top, Bool.false_xor]

theorem shift_out_injective (pos : 0 < width) : Function.Injective (shiftOut poly) := by
  intro left right same
  have low : left.getLsbD 0 = right.getLsbD 0 := by
    rw [← shift_out_top top pos left, ← shift_out_top top pos right, same]
  apply eq_of_getLsbD_eq
  intro index _
  cases index with
  | zero => exact low
  | succ index =>
    rw [Nat.add_comm index 1, shift_out_rest left, shift_out_rest right, same, low]

theorem feed_byte_injective (pos : 0 < width)
    (byte : BitVec 8) : Function.Injective (fun register => feedByte poly register byte) := by
  intro left right same
  have mixed := (shift_out_injective top pos).iterate 8 same
  have cancelled := congrArg (fun register => register ^^^ byte.setWidth width) mixed
  simpa only [BitVec.xor_assoc, BitVec.xor_self, BitVec.xor_zero] using cancelled

theorem feed_injective (pos : 0 < width)
    (bytes : List (BitVec 8)) : Function.Injective (fun register => feed poly register bytes) := by
  induction bytes with
  | nil =>
    intro left right same
    exact same
  | cons byte bytes ih =>
    intro left right same
    exact feed_byte_injective top pos byte (ih same)

end

end Register

/-- The reflected polynomial of CRC-32 (IEEE 802.3). -/
def poly32 : BitVec 32 := 0xEDB88320

def start32 : BitVec 32 := allOnes 32

/-- The checksum of the standard, which `crc32fast` documents as its own.  Two laws of it
are used: blocks are fed one after the other, and no block makes two registers equal. -/
def crc32 (bytes : List (BitVec 8)) : BitVec 32 := ~~~ feed poly32 start32 bytes

/-- A block put in front of the input leaves its checksum alone exactly when
the block's own checksum is zero, the checksum of no input. -/
theorem crc32_block_iff (front bytes : List (BitVec 8)) :
    crc32 (front ++ bytes) = crc32 bytes ↔ crc32 front = 0 := by
  have injective := feed_injective (by decide : poly32.getLsbD (32 - 1) = true)
    (by decide) bytes
  have zero : (0 : BitVec 32) = ~~~ start32 := by decide
  unfold crc32
  rw [feed_append, BitVec.not_inj, zero, BitVec.not_inj]
  constructor
  · intro same
    exact injective same
  · intro same
    rw [same]

end ViCell.Lib.Crc
