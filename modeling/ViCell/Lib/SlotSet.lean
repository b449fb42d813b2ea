import Mathlib

/-!
# A set of numbered slots

Values live in numbered slots. A new value goes into the first empty slot, and its
number stays valid until it is removed. Every operation is described by what each
slot holds afterwards.
-/

namespace ViCell.Lib

open List

abbrev SlotSet (Value : Type) := List (Option Value)

namespace SlotSet

variable {Value : Type} {slots after : SlotSet Value} {value : Value} {slot other : Nat}

def at? (slots : SlotSet Value) (slot : Nat) : Option Value := slots[slot]?.join

def empty (Value : Type) (count : Nat) : SlotSet Value := replicate count none

def put (slots : SlotSet Value) (slot : Nat) (value : Value) : SlotSet Value :=
  slots.set slot (some value)

def remove (slots : SlotSet Value) (slot : Nat) : SlotSet Value := slots.set slot none

def add (slots : SlotSet Value) (value : Value) : Option (SlotSet Value × Nat) :=
  (slots.findIdx? Option.isNone).map (fun slot => (slots.put slot value, slot))

def update (slots : SlotSet Value) (change : Nat → Value → Value) : SlotSet Value :=
  slots.mapIdx (fun slot held => held.map (change slot))

theorem at_empty (count : Nat) : (empty Value count).at? slot = none := by
  unfold at? empty
  rw [getElem?_replicate]
  split <;> rfl

theorem at_update (change : Nat → Value → Value) :
    (slots.update change).at? slot = (slots.at? slot).map (change slot) := by
  unfold at? update
  rw [getElem?_mapIdx]
  cases slots[slot]? with
  | none => rfl
  | some held => cases held <;> rfl

theorem at_remove :
    (slots.remove slot).at? other = if other = slot then none else slots.at? other := by
  unfold at? remove
  rw [getElem?_set]
  by_cases same : other = slot
  · subst same
    rw [if_pos rfl, if_pos rfl]
    split <;> rfl
  · rw [if_neg (Ne.symm same), if_neg same]

theorem lt_of_at (held : slots.at? slot = some value) : slot < slots.length := by
  by_contra outside
  unfold at? at held
  rw [getElem?_eq_none (Nat.le_of_not_lt outside)] at held
  cases held

theorem at_put_of_lt (bound : slot < slots.length) :
    (slots.put slot value).at? other = if other = slot then some value else slots.at? other := by
  unfold at? put
  rw [getElem?_set]
  by_cases same : other = slot
  · subst same
    rw [if_pos rfl, if_pos rfl, if_pos bound]
    rfl
  · rw [if_neg (Ne.symm same), if_neg same]

theorem at_put {was : Value} (held : slots.at? slot = some was) :
    (slots.put slot value).at? other = if other = slot then some value else slots.at? other :=
  at_put_of_lt (lt_of_at held)

theorem at_add (added : slots.add value = some (after, slot)) : slots.at? slot = none ∧
      ∀ other, after.at? other = if other = slot then some value else slots.at? other := by
  obtain ⟨_, index, same⟩ := Option.map_eq_some_iff.mp added
  cases same
  obtain ⟨bound, isNone, _⟩ := findIdx?_eq_some_iff_getElem.mp index
  constructor
  · unfold at?
    rw [getElem?_eq_getElem bound]
    exact Option.isNone_iff_eq_none.mp isNone
  · exact fun other => at_put_of_lt bound

end SlotSet

end ViCell.Lib
