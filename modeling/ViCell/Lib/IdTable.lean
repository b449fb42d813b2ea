import Mathlib

/-!
# Tables keyed by a fresh-id counter

An `IdTable` is a finite map whose keys are handed out by an increasing counter
and never reused: every key at or above the counter is absent.  The bound is a
field of the structure, so every table enumerates its keys by walking the
counter, in ascending order.
-/

namespace ViCell.Lib

structure IdTable (Value : Type) where
  next : Nat
  get : Nat → Option Value
  fresh : ∀ id, next ≤ id → get id = none

namespace IdTable

variable {Value : Type}

def empty (first : Nat) : IdTable Value where
  next := first
  get := fun _ => none
  fresh := fun _ _ => rfl

def live (table : IdTable Value) (id : Nat) : Prop :=
  (table.get id).isSome

instance (table : IdTable Value) (id : Nat) : Decidable (table.live id) :=
  inferInstanceAs (Decidable ((table.get id).isSome = true))

def alloc (table : IdTable Value) (value : Value) : IdTable Value where
  next := table.next + 1
  get := fun id => if id = table.next then some value else table.get id
  fresh := by
    intro id bound
    have distinct : id ≠ table.next := by omega
    simp only [distinct, if_false]
    exact table.fresh id (by omega)

def modify (table : IdTable Value) (target : Nat) (change : Value → Value) :
    IdTable Value where
  next := table.next
  get := fun id => if id = target then (table.get id).map change else table.get id
  fresh := by
    intro id bound
    simp [table.fresh id bound]

def erase (table : IdTable Value) (target : Nat) : IdTable Value where
  next := table.next
  get := fun id => if id = target then none else table.get id
  fresh := by
    intro id bound
    simp [table.fresh id bound]

def mapEach (table : IdTable Value) (change : Nat → Value → Value) : IdTable Value where
  next := table.next
  get := fun id => (table.get id).map (change id)
  fresh := by
    intro id bound
    simp [table.fresh id bound]

/-- Keys in ascending order, the order in which a B-tree map iterates. -/
def ids (table : IdTable Value) : List Nat :=
  (List.range table.next).filter (fun id => (table.get id).isSome)

section

variable (table : IdTable Value)
include table

@[simp] theorem get_alloc (value : Value) (id : Nat) :
    (table.alloc value).get id = if id = table.next then some value else table.get id := rfl

@[simp] theorem get_modify (target id : Nat) (change : Value → Value) :
    (table.modify target change).get id =
      if id = target then (table.get id).map change else table.get id := rfl

@[simp] theorem get_erase (target id : Nat) :
    (table.erase target).get id = if id = target then none else table.get id := rfl

@[simp] theorem get_map_each (change : Nat → Value → Value) (id : Nat) :
    (table.mapEach change).get id = (table.get id).map (change id) := rfl

theorem modify_modify (target : Nat) (first second : Value → Value) :
    (table.modify target first).modify target second =
      table.modify target (fun value => second (first value)) := by
  unfold modify
  congr
  funext id
  by_cases here : id = target
  · simp [here, Function.comp_def]
  · simp [here]

theorem erase_modify (target : Nat) (change : Value → Value) :
    (table.modify target change).erase target = table.erase target := by
  unfold erase modify
  congr
  funext id
  by_cases here : id = target
  · simp [here]
  · simp [here]

theorem live_iff_exists (id : Nat) : table.live id ↔ ∃ value, table.get id = some value := by
  simp only [live, Option.isSome_iff_exists]

end

theorem lt_next_of_get {table : IdTable Value} {id : Nat} {value : Value}
    (found : table.get id = some value) : id < table.next := by
  by_contra bound
  rw [table.fresh id (by omega)] at found
  cases found

@[simp] theorem mem_ids (table : IdTable Value) (id : Nat) : id ∈ table.ids ↔ table.live id := by
  simp only [ids, List.mem_filter, List.mem_range, live]
  constructor
  · exact fun mem => mem.2
  · intro has
    obtain ⟨_, found⟩ := Option.isSome_iff_exists.mp has
    exact ⟨lt_next_of_get found, has⟩

theorem ids_nodup (table : IdTable Value) : table.ids.Nodup :=
  List.nodup_range.filter _

end IdTable

end ViCell.Lib
