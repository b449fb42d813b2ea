import ViCell.Lib.Bytes

/-!
# Byte memory behind a window

Memory whose addresses are valid in one window.  A read or a write that leaves the
window does nothing.  The lemmas say what a read sees after a write, at the written
place and away from it.
-/

namespace ViCell.Lib

open List Bytes

structure Memory where
  base : Nat
  size : Nat
  byte : Nat → BitVec 8

namespace Memory

def Inside (memory : Memory) (address length : Nat) : Prop :=
  memory.base ≤ address ∧ address + length ≤ memory.base + memory.size

instance (memory : Memory) (address length : Nat) : Decidable (memory.Inside address length) :=
  inferInstanceAs (Decidable (_ ∧ _))

def content (memory : Memory) (address length : Nat) : List (BitVec 8) :=
  (range length).map fun offset => memory.byte (address + offset)

def read (memory : Memory) (address length : Nat) : Option (List (BitVec 8)) :=
  if memory.Inside address length then some (memory.content address length) else none

def write (memory : Memory) (address : Nat) (data : List (BitVec 8)) : Memory :=
  if memory.Inside address data.length then
    { memory with
      byte := fun place =>
        if address ≤ place ∧ place < address + data.length then data.getD (place - address) 0
        else memory.byte place }
  else memory

def number (memory : Memory) (address width : Nat) : Nat :=
  decodeLE (memory.content address width)

def Apart (address length other otherLength : Nat) : Prop :=
  address + length ≤ other ∨ other + otherLength ≤ address

instance (address length other otherLength : Nat) :
    Decidable (Apart address length other otherLength) := inferInstanceAs (Decidable (_ ∨ _))

variable {memory : Memory} {address length : Nat} {data : List (BitVec 8)}

@[simp]
theorem length_content (memory : Memory) (address length : Nat) :
    (memory.content address length).length = length := by
  rw [content, length_map, length_range]

@[simp]
theorem base_write (memory : Memory) (address : Nat) (data : List (BitVec 8)) :
    (memory.write address data).base = memory.base := by
  unfold write
  split <;> rfl

@[simp]
theorem size_write (memory : Memory) (address : Nat) (data : List (BitVec 8)) :
    (memory.write address data).size = memory.size := by
  unfold write
  split <;> rfl

theorem read_of_inside (inside : memory.Inside address length) :
    memory.read address length = some (memory.content address length) := if_pos inside

/-- Two memories with the same window that agree on a stretch of addresses. -/
def SameOn (first second : Memory) (holds : Nat → Prop) : Prop :=
  first.base = second.base ∧ first.size = second.size ∧
    ∀ place, holds place → first.byte place = second.byte place

theorem SameOn.refl (memory : Memory) (holds : Nat → Prop) : SameOn memory memory holds :=
  ⟨rfl, rfl, fun _ _ => rfl⟩

variable {first second : Memory} {holds : Nat → Prop}

theorem SameOn.trans {third : Memory} (left : SameOn first second holds)
    (right : SameOn second third holds) : SameOn first third holds :=
  ⟨left.1.trans right.1, left.2.1.trans right.2.1,
    fun place mem => (left.2.2 place mem).trans (right.2.2 place mem)⟩

theorem SameOn.mono {fewer : Nat → Prop} (same : SameOn first second holds)
    (covers : ∀ place, fewer place → holds place) : SameOn first second fewer :=
  ⟨same.1, same.2.1, fun place mem => same.2.2 place (covers place mem)⟩

theorem SameOn.inside (same : SameOn first second holds) :
    first.Inside address length ↔ second.Inside address length := by
  unfold Inside
  rw [same.1, same.2.1]

theorem SameOn.content (same : SameOn first second holds)
    (covers : ∀ place, address ≤ place → place < address + length → holds place) :
    first.content address length = second.content address length := by
  apply map_congr_left
  intro offset mem
  have below := mem_range.mp mem
  exact same.2.2 _ (covers _ (Nat.le_add_right _ _) (Nat.add_lt_add_left below _))

theorem write_same_on
    (outside : ∀ place, holds place → address + data.length ≤ place ∨ place < address) :
    SameOn memory (memory.write address data) holds := by
  refine ⟨(base_write _ _ _).symm, (size_write _ _ _).symm, ?_⟩
  intro place mem
  unfold write
  split
  · have apart : ¬ (address ≤ place ∧ place < address + data.length) := by
      rcases outside place mem with after | was <;> omega
    dsimp only
    rw [if_neg apart]
  · rfl

theorem content_write_apart {other otherLength : Nat}
    (apart : Apart address data.length other otherLength) :
    (memory.write address data).content other otherLength = memory.content other otherLength := by
  have same : SameOn memory (memory.write address data)
      (fun place => other ≤ place ∧ place < other + otherLength) := by
    refine write_same_on ?_
    unfold Apart at apart
    omega
  exact (same.content (fun place low high => ⟨low, high⟩)).symm

theorem byte_write_inside (inside : memory.Inside address data.length) {offset : Nat}
    (below : offset < data.length) :
    (memory.write address data).byte (address + offset) = data[offset] := by
  unfold write
  rw [if_pos inside]
  dsimp only
  rw [if_pos ⟨Nat.le_add_right _ _, Nat.add_lt_add_left below _⟩, Nat.add_sub_cancel_left,
    getD_eq_getElem _ _ below]

variable {width : Nat}

theorem number_write_apart {other : Nat} (apart : Apart address data.length other width) :
    (memory.write address data).number other width = memory.number other width := by
  unfold number
  rw [content_write_apart apart]

theorem number_write_front {value : Nat} {rest : List (BitVec 8)}
    (inside : memory.Inside address (width + rest.length)) (small : value < 256 ^ width) :
    (memory.write address (encodeLE width value ++ rest)).number address width = value := by
  have length : (encodeLE width value ++ rest).length = width + rest.length := by
    rw [length_append, length_encode]
  have written : (memory.write address (encodeLE width value ++ rest)).content address width =
      encodeLE width value := by
    apply ext_getElem
    · rw [length_content, length_encode]
    · intro offset _ below
      have longer : offset < (encodeLE width value ++ rest).length := by
        rw [length_encode] at below
        omega
      simp only [content, getElem_map, getElem_range]
      rw [byte_write_inside (by rw [length]; exact inside) longer, getElem_append_left below]
  unfold number
  rw [written, decode_encode, Nat.mod_eq_of_lt small]

theorem number_write_same {value : Nat} (inside : memory.Inside address width)
    (small : value < 256 ^ width) :
    (memory.write address (encodeLE width value)).number address width = value := by
  have front := @number_write_front memory address width value [] inside small
  rwa [append_nil] at front

theorem SameOn.number (same : SameOn first second holds)
    (covers : ∀ place, address ≤ place → place < address + width → holds place) :
    first.number address width = second.number address width := by
  unfold Memory.number
  rw [same.content covers]

end Memory

end ViCell.Lib
