import Mathlib

/-!
# Windows into a ring

A ring of `size` cells is read from a start that only grows: cell number `start`
of the stream lies at `start % size`. As long as a window is not longer than the
ring, writing just past its end leaves it alone. A counter of the stream may
itself wrap, at a multiple of the ring's size.
-/

namespace ViCell.Lib.RingWindow

open Function List

variable {Item : Type}

def window (buffer : Nat → Item) (size start count : Nat) : List Item :=
  (range count).map (fun index => buffer ((start + index) % size))

@[simp] theorem length_window (buffer : Nat → Item) (size start count : Nat) :
    (window buffer size start count).length = count := by
  simp [window]

theorem window_add (buffer : Nat → Item) (size start first rest : Nat) :
    window buffer size start (first + rest) =
      window buffer size start first ++ window buffer size (start + first) rest := by
  unfold window
  rw [range_add, map_append, map_map]
  congr 1
  apply map_congr_left
  intro index _
  simp only [comp_apply, Nat.add_assoc]

theorem window_succ (buffer : Nat → Item) (size start count : Nat) :
    window buffer size start (count + 1) =
      window buffer size start count ++ [buffer ((start + count) % size)] := by
  rw [window_add]
  rfl

theorem place_ne {size start early late : Nat} (order : early < late)
    (near : late < early + size) : (start + early) % size ≠ (start + late) % size := by
  intro same
  have divides : size ∣ (start + late) - (start + early) := (Nat.modEq_iff_dvd' (by omega)).mp same
  have pos : 0 < (start + late) - (start + early) := by omega
  have bounded := Nat.le_of_dvd pos divides
  omega

variable {buffer : Nat → Item} {size start count : Nat}

theorem window_write_after {past : Nat} (after : count ≤ past) (room : past < size) (item : Item) :
    window (update buffer ((start + past) % size) item) size start count =
      window buffer size start count := by
  apply map_congr_left
  intro index mem
  have inside := mem_range.mp mem
  exact update_of_ne (place_ne (by omega) (by omega)) _ _

theorem window_push (room : count < size) (item : Item) :
    window (update buffer ((start + count) % size) item) size start (count + 1) =
      window buffer size start count ++ [item] := by
  rw [window_succ, window_write_after (Nat.le_refl count) room, update_self]

theorem wrapped_difference {modulus : Nat} (start : Nat) (small : count < modulus) :
    ((start + count) % modulus + (modulus - start % modulus)) % modulus = count := by
  have below : start % modulus < modulus := Nat.mod_lt _ (by omega)
  have whole : start + count + (modulus - start % modulus) =
      count + modulus * (start / modulus + 1) := by
    have split := Nat.div_add_mod start modulus
    rw [Nat.mul_add, Nat.mul_one]
    omega
  rw [Nat.mod_add_mod, whole, Nat.add_mul_mod_self_left, Nat.mod_eq_of_lt small]

theorem window_wrapped {modulus : Nat} (turns : size ∣ modulus) (buffer : Nat → Item)
    (start count : Nat) :
    window buffer size (start % modulus) count = window buffer size start count := by
  apply map_congr_left
  intro index _
  rw [Nat.add_mod, Nat.mod_mod_of_dvd start turns, ← Nat.add_mod]

end ViCell.Lib.RingWindow
