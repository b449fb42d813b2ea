import Mathlib.Logic.Function.Basic

/-!
# Memory primitives of the C library

Byte memory as a function of the address.  The two regions of a move may share bytes,
so an iteration may read what an earlier one wrote.
-/

namespace ViCell.Posix

open Function

def copyByte (dest src : Nat) (memory : Nat → BitVec 8) (i : Nat) : Nat → BitVec 8 :=
  update memory (dest + i) (memory (src + i))

/-- The loop that counts `i` down from `n` to zero. -/
def copyDown (dest src : Nat) : Nat → (Nat → BitVec 8) → Nat → BitVec 8
  | 0, memory => memory
  | i + 1, memory => copyDown dest src i (copyByte dest src memory i)

/-- The loop over `0..n`. -/
def copyUp (dest src n : Nat) (memory : Nat → BitVec 8) : Nat → BitVec 8 :=
  (List.range n).foldl (copyByte dest src) memory

/-- The returned pointer and the memory after the call. -/
def memmove (dest src n : Nat) (memory : Nat → BitVec 8) : Nat × (Nat → BitVec 8) :=
  (dest, if src < dest then copyDown dest src n memory else copyUp dest src n memory)

/-- Memory with the source's former bytes in the destination. -/
def moved (dest src n : Nat) (before : Nat → BitVec 8) (place : Nat) : BitVec 8 :=
  if dest ≤ place ∧ place < dest + n then before (src + (place - dest)) else before place

variable {dest src : Nat}

theorem copyDown_moved (below : src < dest) (n : Nat) (before : Nat → BitVec 8) :
    copyDown dest src n before = moved dest src n before := by
  induction n generalizing before with
  | zero =>
    funext place
    exact (if_neg (by omega)).symm
  | succ n ih =>
    rw [copyDown, ih]
    funext place
    unfold moved copyByte
    -- the byte written first lies above every byte that is still to be read
    by_cases low : dest ≤ place ∧ place < dest + n
    · rw [if_pos low, if_pos (by omega), update_of_ne (by omega)]
    · rw [if_neg low]
      by_cases last : place = dest + n
      · rw [last, update_self, if_pos (by omega), Nat.add_sub_cancel_left]
      · rw [update_of_ne last, if_neg (by omega)]

theorem copyUp_moved (above : dest ≤ src) (n : Nat) (before : Nat → BitVec 8) :
    copyUp dest src n before = moved dest src n before := by
  induction n with
  | zero =>
    funext place
    exact (if_neg (by omega)).symm
  | succ n ih =>
    have step : copyUp dest src (n + 1) before =
        copyByte dest src (copyUp dest src n before) n := by
      unfold copyUp
      rw [List.range_succ, List.foldl_append]
      rfl
    rw [step, ih]
    funext place
    unfold copyByte
    -- the byte read now lies at or above the first byte not yet written
    have unread : moved dest src n before (src + n) = before (src + n) := if_neg (by omega)
    rw [unread]
    by_cases last : place = dest + n
    · rw [last, update_self, moved, if_pos (by omega), Nat.add_sub_cancel_left]
    · rw [update_of_ne last, moved, moved]
      by_cases low : dest ≤ place ∧ place < dest + n
      · rw [if_pos low, if_pos (by omega)]
      · rw [if_neg low, if_neg (by omega)]

theorem memmove_exact (dest src n : Nat) (before : Nat → BitVec 8) :
    (∀ i < n, (memmove dest src n before).2 (dest + i) = before (src + i)) ∧
      ∀ place, place < dest ∨ dest + n ≤ place →
        (memmove dest src n before).2 place = before place := by
  have after : (memmove dest src n before).2 = moved dest src n before := by
    unfold memmove
    by_cases below : src < dest
    · rw [if_pos below, copyDown_moved below]
    · rw [if_neg below, copyUp_moved (by omega)]
  rw [after]
  constructor
  · intro i inside
    rw [moved, if_pos (by omega), Nat.add_sub_cancel_left]
  · intro place outside
    exact if_neg (by omega)

end ViCell.Posix
