import Mathlib

/-!
# Priority queues with FIFO order inside a level

A `PriorityFifo` keeps its entries in arrival order, each tagged with a level.
Taking an item removes the oldest entry of the highest level present, which is
the behaviour of an ordered map from levels to FIFO queues.  Facts are stated on
the list of contents up to reordering: clients reason about membership and
multiplicity.
-/

namespace ViCell.Lib

open List

structure PriorityFifo (Item : Type) where
  entries : List (Nat × Item)

namespace PriorityFifo

variable {Item : Type}

def empty : PriorityFifo Item := ⟨[]⟩

def contents (queue : PriorityFifo Item) : List Item :=
  queue.entries.map Prod.snd

def push (queue : PriorityFifo Item) (level : Nat) (item : Item) : PriorityFifo Item :=
  ⟨queue.entries ++ [(level, item)]⟩

def takeLevel (level : Nat) :
    List (Nat × Item) → Option (Item × List (Nat × Item))
  | [] => none
  | entry :: rest =>
    if entry.1 = level then some (entry.2, rest)
    else (takeLevel level rest).map (fun taken => (taken.1, entry :: taken.2))

def pop (queue : PriorityFifo Item) : Option (Item × PriorityFifo Item) :=
  match (queue.entries.map Prod.fst).max? with
  | none => none
  | some level =>
    (takeLevel level queue.entries).map (fun taken => (taken.1, ⟨taken.2⟩))

def remove [DecidableEq Item] (queue : PriorityFifo Item) (item : Item) :
    PriorityFifo Item :=
  ⟨queue.entries.filter (fun entry => entry.2 ≠ item)⟩

def countBelow (queue : PriorityFifo Item) (bound : Nat) : Nat :=
  (queue.entries.filter (fun entry => entry.1 < bound)).length

/-- The oldest `budget` entries of one level, and everything else. -/
def splitLevel (level : Nat) :
    Nat → List (Nat × Item) → List (Nat × Item) × List (Nat × Item)
  | _, [] => ([], [])
  | 0, entries => ([], entries)
  | budget + 1, entry :: rest =>
    if entry.1 = level then
      ((entry :: (splitLevel level budget rest).1), (splitLevel level budget rest).2)
    else
      ((splitLevel level (budget + 1) rest).1, entry :: (splitLevel level (budget + 1) rest).2)

/-- Move at most `budget` entries from `victim` to `thief`, one level at a time. -/
def moveUpTo : Nat → List Nat → PriorityFifo Item → PriorityFifo Item →
    PriorityFifo Item × PriorityFifo Item
  | _, [], victim, thief => (victim, thief)
  | budget, level :: levels, victim, thief =>
    let moved := (splitLevel level budget victim.entries).1
    moveUpTo (budget - moved.length) levels
      ⟨(splitLevel level budget victim.entries).2⟩ ⟨thief.entries ++ moved⟩

@[simp] theorem contents_push (queue : PriorityFifo Item) (level : Nat) (item : Item) :
    (queue.push level item).contents = queue.contents ++ [item] := by
  simp [push, contents]

@[simp] theorem contents_remove [DecidableEq Item] (queue : PriorityFifo Item) (item : Item) :
    (queue.remove item).contents = queue.contents.filter (fun other => other ≠ item) := by
  simp only [remove, contents, filter_map]
  rfl

theorem take_level_split {level : Nat} {entries : List (Nat × Item)} {item : Item}
    {rest : List (Nat × Item)} (taken : takeLevel level entries = some (item, rest)) :
    ∃ was after, entries = was ++ (level, item) :: after ∧ rest = was ++ after ∧
      ∀ entry ∈ was, entry.1 ≠ level := by
  induction entries generalizing rest with
  | nil => cases taken
  | cons entry tail ih =>
    by_cases here : entry.1 = level
    · simp only [takeLevel, here] at taken
      obtain ⟨rfl, rfl⟩ := taken
      refine ⟨[], tail, ?_, rfl, ?_⟩
      · rw [nil_append, ← here]
      · intro entry mem
        cases mem
    · simp only [takeLevel, here, if_false, Option.map_eq_some_iff] at taken
      obtain ⟨⟨_, _⟩, foundTail, rfl, rfl⟩ := taken
      obtain ⟨was, after, rfl, rfl, others⟩ := ih foundTail
      refine ⟨entry :: was, after, rfl, rfl, ?_⟩
      intro other mem
      rcases mem_cons.mp mem with rfl | later
      · exact here
      · exact others other later

/-- `pop` takes the entry of the highest level that arrived first. -/
theorem pop_split {queue rest : PriorityFifo Item} {item : Item}
    (popped : queue.pop = some (item, rest)) :
    ∃ level was after, queue.entries = was ++ (level, item) :: after ∧
      rest.entries = was ++ after ∧ (∀ entry ∈ was, entry.1 < level) ∧
      ∀ entry ∈ after, entry.1 ≤ level := by
  unfold pop at popped
  split at popped
  · cases popped
  · rename_i level top
    simp only [Option.map_eq_some_iff] at popped
    obtain ⟨⟨_, _⟩, taken, rfl, rfl⟩ := popped
    obtain ⟨was, after, whole, split, others⟩ := take_level_split taken
    have highest : ∀ entry ∈ queue.entries, entry.1 ≤ level := fun entry mem =>
      (max?_eq_some_iff.mp top).2 entry.1 (mem_map_of_mem mem)
    rw [whole] at highest
    refine ⟨level, was, after, whole, split, ?_, ?_⟩
    · intro entry mem
      exact lt_of_le_of_ne (highest entry (mem_append_left _ mem)) (others entry mem)
    · intro entry mem
      exact highest entry (mem_append_right _ (mem_cons_of_mem _ mem))

theorem pop_perm {queue rest : PriorityFifo Item} {item : Item}
    (popped : queue.pop = some (item, rest)) :
    queue.contents.Perm (item :: rest.contents) := by
  obtain ⟨_, _, _, whole, split, -⟩ := pop_split popped
  simp only [contents, whole, split, map_append]
  exact perm_middle

theorem split_level_perm (level budget : Nat) (entries : List (Nat × Item)) :
    entries.Perm ((splitLevel level budget entries).1 ++ (splitLevel level budget entries).2) := by
  induction entries generalizing budget with
  | nil => cases budget <;> simp [splitLevel]
  | cons entry tail ih =>
    cases budget with
    | zero => simp [splitLevel]
    | succ budget =>
      by_cases here : entry.1 = level
      · simpa [splitLevel, here] using ih budget
      · simp only [splitLevel, here]
        exact ((ih (budget + 1)).cons entry).trans perm_middle.symm

theorem move_up_to_entries_perm (budget : Nat) (levels : List Nat)
    (victim thief : PriorityFifo Item) :
    (victim.entries ++ thief.entries).Perm
      ((moveUpTo budget levels victim thief).1.entries ++
        (moveUpTo budget levels victim thief).2.entries) := by
  induction levels generalizing budget victim thief with
  | nil => exact List.Perm.refl _
  | cons level levels ih =>
    have rest := ih (budget - (splitLevel level budget victim.entries).1.length)
      ⟨(splitLevel level budget victim.entries).2⟩
      ⟨thief.entries ++ (splitLevel level budget victim.entries).1⟩
    refine List.Perm.trans ?_ rest
    have moved := (split_level_perm level budget victim.entries).append_right thief.entries
    rw [append_assoc] at moved
    refine moved.trans ?_
    rw [← append_assoc (splitLevel level budget victim.entries).2]
    exact perm_append_comm

theorem move_up_to_perm (budget : Nat) (levels : List Nat) (victim thief : PriorityFifo Item) :
    (victim.contents ++ thief.contents).Perm
      ((moveUpTo budget levels victim thief).1.contents ++
        (moveUpTo budget levels victim thief).2.contents) := by
  have moved := (move_up_to_entries_perm budget levels victim thief).map Prod.snd
  simpa only [contents, map_append] using moved

def itemsAt (level : Nat) (entries : List (Nat × Item)) : List Item :=
  (entries.filter (fun entry => entry.1 = level)).map Prod.snd

theorem items_at_cons (level : Nat) (entry : Nat × Item) (rest : List (Nat × Item)) :
    itemsAt level (entry :: rest) =
      if entry.1 = level then entry.2 :: itemsAt level rest else itemsAt level rest := by
  simp only [itemsAt, filter_cons, decide_eq_true_eq]
  split <;> rfl

theorem items_at_append (level : Nat) (first second : List (Nat × Item)) :
    itemsAt level (first ++ second) = itemsAt level first ++ itemsAt level second := by
  simp only [itemsAt, filter_append, map_append]

/-- At its own level a split takes the oldest items; the other levels stay. -/
theorem items_at_split (level budget : Nat) (entries : List (Nat × Item)) (other : Nat) :
    itemsAt other (splitLevel level budget entries).1 =
        (if other = level then (itemsAt other entries).take budget else []) ∧
      itemsAt other (splitLevel level budget entries).2 =
        (if other = level then (itemsAt other entries).drop budget else itemsAt other entries) ∧
      (splitLevel level budget entries).1.length =
        ((itemsAt level entries).take budget).length := by
  induction entries generalizing budget with
  | nil => cases budget <;> simp [splitLevel, itemsAt]
  | cons entry rest ih =>
    cases budget with
    | zero => simp [splitLevel, itemsAt]
    | succ budget =>
      by_cases here : entry.1 = level
      · obtain ⟨taken, kept, count⟩ := ih budget
        simp only [splitLevel, here, if_true, items_at_cons, taken, kept, count, length_cons,
          take_succ_cons]
        by_cases same : other = level
        · simp [same]
        · simp [same, Ne.symm same]
      · obtain ⟨taken, kept, count⟩ := ih (budget + 1)
        simp only [splitLevel, here, if_false, items_at_cons, taken, kept, count]
        by_cases same : other = level
        · simp [same, here]
        · simp [same]

theorem split_level_zero (level : Nat) (entries : List (Nat × Item)) :
    splitLevel level 0 entries = ([], entries) := by
  cases entries <;> rfl

theorem move_up_to_zero (levels : List Nat) (victim thief : PriorityFifo Item) :
    moveUpTo 0 levels victim thief = (victim, thief) := by
  induction levels with
  | nil => rfl
  | cons level rest ih => simp [moveUpTo, split_level_zero, ih]

end PriorityFifo

end ViCell.Lib
