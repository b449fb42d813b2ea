import ViCell.Lib.TreeMaps

/-!
# Ordered maps from levels to queues

A queue per level, kept in an ordered map.  A level without an entry has the empty
queue.  `moveLevels` moves items between two such maps within a budget, one level after
the other and each from the front of its queue; its specification says which items of
each level moved, and everything else is read off it.
-/

namespace ViCell.Lib

open List TreeMaps

abbrev LevelQueues (Item : Type) := Std.TreeMap Nat (List Item)

namespace LevelQueues

variable {Item : Type}

def atLevel (queues : LevelQueues Item) (level : Nat) : List Item :=
  queues[level]?.getD []

def pushBack (queues : LevelQueues Item) (level : Nat) (item : Item) : LevelQueues Item :=
  queues.insert level (queues.atLevel level ++ [item])

def pairs (queues : LevelQueues Item) : List (Item × Nat) :=
  queues.toList.flatMap (fun entry => entry.2.map (fun item => (item, entry.1)))

def countBelow (queues : LevelQueues Item) (bound : Nat) : Nat :=
  ((queues.toList.filter (fun entry => entry.1 < bound)).map (fun entry => entry.2.length)).sum

structure Move (Item : Type) where
  moved : Nat
  source : LevelQueues Item
  target : LevelQueues Item

def moveQueue (budget level : Nat) :
    Nat → List Item → LevelQueues Item → Nat × List Item × LevelQueues Item
  | moved, [], target => (moved, [], target)
  | moved, item :: rest, target =>
    if moved < budget then moveQueue budget level (moved + 1) rest (target.pushBack level item)
    else (moved, item :: rest, target)

def moveLevel (budget : Nat) (state : Move Item) (level : Nat) : Move Item :=
  match state.source[level]? with
  | none => state
  | some queue =>
    let result := moveQueue budget level state.moved queue state.target
    ⟨result.1, state.source.insert level result.2.1, result.2.2⟩

def moveLevels (budget : Nat) : List Nat → Move Item → Move Item
  | [], state => state
  | level :: rest, state =>
    if budget ≤ state.moved then state
    else moveLevels budget rest (moveLevel budget state level)

theorem at_level_insert (queues : LevelQueues Item) (level other : Nat) (queue : List Item) :
    atLevel (queues.insert level queue) other =
      if other = level then queue else queues.atLevel other := by
  simp only [atLevel, Std.TreeMap.getElem?_insert]
  by_cases same : other = level
  · simp [same]
  · simp [same, Ne.symm same]

theorem at_level_push_back (queues : LevelQueues Item) (level other : Nat) (item : Item) :
    (queues.pushBack level item).atLevel other =
      if other = level then queues.atLevel other ++ [item] else queues.atLevel other := by
  rw [pushBack, at_level_insert]
  by_cases same : other = level
  · rw [if_pos same, if_pos same, same]
  · rw [if_neg same, if_neg same]

section Counting

variable [DecidableEq Item]

theorem count_level_items (items : List Item) (item : Item) (level : Nat) :
    (items.map (fun other => (other, level))).count (item, level) = items.count item := by
  have injective : Function.Injective (fun other : Item => (other, level)) := by
    intro left right same
    exact congrArg Prod.fst same
  exact count_map_of_injective items _ injective item

theorem count_other_levels (entries : List (Nat × List Item)) (item : Item) (level : Nat)
    (others : ∀ entry ∈ entries, entry.1 ≠ level) :
    (entries.flatMap (fun entry => entry.2.map (fun other => (other, entry.1)))).count
      (item, level) = 0 := by
  apply count_eq_zero_of_not_mem
  intro mem
  simp only [mem_flatMap, mem_map, Prod.mk.injEq] at mem
  obtain ⟨entry, listed, _, _, _, isLevel⟩ := mem
  exact others entry listed isLevel

theorem count_pairs (queues : LevelQueues Item) (item : Item) (level : Nat) :
    queues.pairs.count (item, level) = (queues.atLevel level).count item := by
  have elsewhere : ∀ entry ∈ (queues.erase level).toList, entry.1 ≠ level := by
    intro entry listed
    rw [mem_entries_iff, get_erase_eq_some] at listed
    exact listed.1
  have rest := count_other_levels (queues.erase level).toList item level elsewhere
  simp only [pairs, atLevel]
  cases found : queues[level]? with
  | none =>
    have same := (erase_missing found).symm
    rw [(same.flatMap_right _).count_eq, rest]
    rfl
  | some =>
    have split := erase_entries found
    rw [(split.flatMap_right _).count_eq, flatMap_cons, count_append, rest, count_level_items]
    rfl

end Counting

theorem count_below_eq_zero (queues : LevelQueues Item) (bound : Nat) :
    queues.countBelow bound = 0 ↔ ∀ level, level < bound → queues.atLevel level = [] := by
  simp only [countBelow, sum_eq_zero_iff, mem_map, mem_filter, decide_eq_true_eq]
  constructor
  · intro none level below
    cases found : queues[level]? with
    | none =>
      rw [atLevel, found]
      rfl
    | some queue =>
      have listed : (level, queue) ∈ queues.toList := mem_entries_iff.mpr found
      have empty := none queue.length ⟨(level, queue), ⟨listed, below⟩, rfl⟩
      rw [atLevel, found]
      exact eq_nil_of_length_eq_zero empty
  · rintro none _ ⟨entry, ⟨listed, below⟩, rfl⟩
    have found := mem_entries_iff.mp listed
    have empty := none entry.1 below
    rw [atLevel, found] at empty
    exact congrArg length empty

theorem move_queue_eq (budget level : Nat) (queue : List Item) (moved : Nat)
    (target : LevelQueues Item) :
    (moveQueue budget level moved queue target).1 = moved + (queue.take (budget - moved)).length ∧
      (moveQueue budget level moved queue target).2.1 = queue.drop (budget - moved) ∧
      ∀ other, (moveQueue budget level moved queue target).2.2.atLevel other =
        if other = level then target.atLevel other ++ queue.take (budget - moved)
        else target.atLevel other := by
  induction queue generalizing moved target with
  | nil => simp [moveQueue]
  | cons item rest ih =>
    by_cases room : moved < budget
    · have left : budget - moved = (budget - (moved + 1)) + 1 := by omega
      obtain ⟨count, kept, levels⟩ := ih (moved + 1) (target.pushBack level item)
      simp only [moveQueue, room, if_true]
      rw [left, take_succ_cons]
      refine ⟨?_, kept, ?_⟩
      · rw [length_cons]
        omega
      · intro other
        rw [levels, at_level_push_back]
        by_cases same : other = level
        · rw [if_pos same, if_pos same, if_pos same, append_assoc, singleton_append]
        · rw [if_neg same, if_neg same, if_neg same]
    · have left : budget - moved = 0 := by omega
      simp [moveQueue, room, left]

theorem move_level_eq (budget : Nat) (state : Move Item) (level : Nat) :
    (moveLevel budget state level).moved = state.moved +
        ((state.source.atLevel level).take (budget - state.moved)).length ∧
      (∀ other, (moveLevel budget state level).source.atLevel other =
        if other = level then (state.source.atLevel other).drop (budget - state.moved)
        else state.source.atLevel other) ∧
      ∀ other, (moveLevel budget state level).target.atLevel other =
        if other = level then state.target.atLevel other ++
          (state.source.atLevel other).take (budget - state.moved)
        else state.target.atLevel other := by
  simp only [moveLevel]
  cases found : state.source[level]? with
  | none =>
    have here : state.source.atLevel level = [] := by
      rw [atLevel, found]
      rfl
    refine ⟨by simp [here], ?_, ?_⟩
    all_goals
      intro other
      by_cases same : other = level
      · simp [same, here]
      · simp [same]
  | some queue =>
    have here : state.source.atLevel level = queue := by
      rw [atLevel, found]
      rfl
    obtain ⟨count, kept, levels⟩ := move_queue_eq budget level queue state.moved state.target
    dsimp only
    refine ⟨?_, ?_, ?_⟩
    · rw [count, here]
    · intro other
      rw [at_level_insert, kept]
      by_cases same : other = level
      · rw [if_pos same, if_pos same, same, here]
      · rw [if_neg same, if_neg same]
    · intro other
      rw [levels]
      by_cases same : other = level
      · rw [if_pos same, if_pos same, same, here]
      · rw [if_neg same, if_neg same]

/-- What moved between two states of the loop: a front part of each queue. -/
structure Moved (before after : Move Item) (items : Nat → List Item) : Prop where
  source : ∀ level, before.source.atLevel level = items level ++ after.source.atLevel level
  target : ∀ level, after.target.atLevel level = before.target.atLevel level ++ items level
  count : ∀ level, items level ≠ [] → before.moved < after.moved
  monotone : before.moved ≤ after.moved
  changed : before.moved < after.moved → ∃ level, items level ≠ []

theorem Moved.none (state : Move Item) : Moved state state (fun _ => []) where
  source := fun _ => rfl
  target := fun _ => (append_nil _).symm
  count := fun _ nonempty => absurd rfl nonempty
  monotone := Nat.le_refl _
  changed := fun less => absurd less (Nat.lt_irrefl _)

theorem Moved.trans {first second third : Move Item} {early late : Nat → List Item}
    (was : Moved first second early) (after : Moved second third late) :
    Moved first third (fun level => early level ++ late level) where
  source := by
    intro level
    rw [was.source, after.source, append_assoc]
  target := by
    intro level
    rw [after.target, was.target, append_assoc]
  count := by
    intro level nonempty
    by_cases none : early level = []
    · have later : late level ≠ [] := by
        intro empty
        apply nonempty
        rw [none, empty, append_nil]
      exact Nat.lt_of_le_of_lt was.monotone (after.count level later)
    · exact Nat.lt_of_lt_of_le (was.count level none) after.monotone
  monotone := Nat.le_trans was.monotone after.monotone
  changed := by
    intro less
    by_cases early : first.moved < second.moved
    · obtain ⟨level, nonempty⟩ := was.changed early
      exact ⟨level, append_ne_nil_of_left_ne_nil nonempty _⟩
    · have late : second.moved < third.moved := by
        omega
      obtain ⟨level, nonempty⟩ := after.changed late
      exact ⟨level, append_ne_nil_of_right_ne_nil _ nonempty⟩

theorem move_level_spec (budget : Nat) (state : Move Item) (level : Nat) :
    ∃ items : Nat → List Item, Moved state (moveLevel budget state level) items ∧
      (∀ other, other ≠ level → items other = []) ∧
      (state.moved < budget → state.source.atLevel level ≠ [] → items level ≠ []) := by
  obtain ⟨count, source, target⟩ := move_level_eq budget state level
  refine ⟨fun other => if other = level then
    (state.source.atLevel level).take (budget - state.moved) else [], ⟨?_, ?_, ?_, ?_, ?_⟩, ?_, ?_⟩
  · intro other
    rw [source]
    by_cases same : other = level
    · rw [if_pos same, if_pos same, same, take_append_drop]
    · rw [if_neg same, if_neg same, nil_append]
  · intro other
    rw [target]
    by_cases same : other = level
    · rw [if_pos same, if_pos same, same]
    · rw [if_neg same, if_neg same, append_nil]
  · intro other nonempty
    rw [count]
    by_cases same : other = level
    · rw [if_pos same] at nonempty
      exact Nat.lt_add_of_pos_right (length_pos_iff.mpr nonempty)
    · rw [if_neg same] at nonempty
      exact absurd rfl nonempty
  · rw [count]
    exact Nat.le_add_right _ _
  · intro less
    rw [count] at less
    refine ⟨level, ?_⟩
    rw [if_pos rfl]
    intro empty
    rw [empty] at less
    exact absurd less (Nat.lt_irrefl _)
  · intro other ne
    exact if_neg ne
  · intro room nonempty
    dsimp only
    rw [if_pos rfl]
    intro empty
    rw [take_eq_nil_iff] at empty
    rcases empty with zero | none
    · omega
    · exact nonempty none

/-- The loop over the levels: only queues of those levels lose items, and if there is
room and one of them has an item then something moves. -/
theorem move_levels_spec (budget : Nat) (levels : List Nat) (state : Move Item) :
    ∃ items : Nat → List Item, Moved state (moveLevels budget levels state) items ∧
      (∀ other, other ∉ levels → items other = []) ∧
      (state.moved < budget → (∃ level ∈ levels, state.source.atLevel level ≠ []) →
        ∃ level, items level ≠ []) := by
  induction levels generalizing state with
  | nil =>
    refine ⟨fun _ => [], Moved.none state, fun _ _ => rfl, ?_⟩
    rintro _ ⟨level, listed, _⟩
    cases listed
  | cons level rest ih =>
    simp only [moveLevels]
    by_cases full : budget ≤ state.moved
    · rw [if_pos full]
      exact ⟨fun _ => [], Moved.none state, fun _ _ => rfl,
        fun room => absurd full (Nat.not_le.mpr room)⟩
    · rw [if_neg full]
      have room : state.moved < budget := Nat.lt_of_not_le full
      obtain ⟨early, first, elsewhere, progress⟩ := move_level_spec budget state level
      obtain ⟨late, second, notLater, laterProgress⟩ := ih (moveLevel budget state level)
      refine ⟨fun other => early other ++ late other, first.trans second, ?_, ?_⟩
      · intro other notListed
        rw [mem_cons, not_or] at notListed
        dsimp only
        rw [elsewhere other notListed.1, notLater other notListed.2, append_nil]
      · rintro _ ⟨wanted, listed, nonempty⟩
        by_cases here : early level = []
        · -- Nothing moved in this round, so the later rounds still have the budget.
          have same : wanted ≠ level := by
            intro isLevel
            rw [isLevel] at nonempty
            exact progress room nonempty here
          have nothing : ∀ other, early other = [] := by
            intro other
            by_cases isLevel : other = level
            · rw [isLevel, here]
            · exact elsewhere other isLevel
          have unmoved : (moveLevel budget state level).moved = state.moved := by
            by_contra ne
            have more : state.moved < (moveLevel budget state level).moved := by
              have bound := first.monotone
              omega
            obtain ⟨other, something⟩ := first.changed more
            exact something (nothing other)
          have stillThere : (moveLevel budget state level).source.atLevel wanted ≠ [] := by
            have kept := first.source wanted
            rw [nothing wanted, nil_append] at kept
            rw [← kept]
            exact nonempty
          have inRest : wanted ∈ rest := (mem_cons.mp listed).resolve_left same
          obtain ⟨other, something⟩ := laterProgress (unmoved ▸ room) ⟨wanted, inRest, stillThere⟩
          exact ⟨other, append_ne_nil_of_right_ne_nil _ something⟩
        · exact ⟨level, append_ne_nil_of_left_ne_nil here _⟩

end LevelQueues

end ViCell.Lib
