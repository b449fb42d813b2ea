import ViCell.Core.Ready
import ViCell.Lib.LevelQueues

/-!
# The ready queues as ordered maps

`task/hart_local/ready.rs` with its own data structure, one ordered map from priorities
to queues per hart.  The scheduler model keeps each hart's entries in one list instead;
`Represents` relates the two and the operations agree under it.
-/

namespace ViCell.Core.ReadyMaps

open Lib Core.Tcb Core.Ready List PriorityFifo LevelQueues

abbrev ReadyMap := LevelQueues TaskId

abbrev HartMaps := HartId → ReadyMap

def stealLevels : List Nat :=
  (range priorityRealTime).reverse

/-- Both locks are held throughout; with two harts the victim is the other one. -/
def stealFromBusiest (ready : HartMaps) (thief : HartId) : HartMaps :=
  let victim : HartId := 1 - thief
  let stealable := (ready victim).countBelow priorityRealTime
  if stealable = 0 then ready
  else
    let result := moveLevels (max (stealable / 2) 1) stealLevels
      ⟨0, ready victim, ready thief⟩
    fun hart => if hart = victim then result.source else result.target

def pairs (ready : HartMaps) : List (TaskId × Nat) :=
  (ready 0).pairs ++ (ready 1).pairs

theorem count_pairs (ready : HartMaps) (thief : HartId) (id : TaskId) (priority : Nat) :
    (pairs ready).count (id, priority) =
      ((ready (1 - thief)).atLevel priority).count id +
        ((ready thief).atLevel priority).count id := by
  simp only [pairs, List.count_append, LevelQueues.count_pairs]
  rcases hart_cases thief with rfl | rfl
  · exact Nat.add_comm _ _
  · rfl

/-- For each priority a front part of the victim's queue went to the end of the thief's
queue. -/
structure Stolen (before after : HartMaps) (thief : HartId) (moved : Nat → List TaskId) :
    Prop where
  lost : ∀ priority, (before (1 - thief)).atLevel priority =
    moved priority ++ (after (1 - thief)).atLevel priority
  gained : ∀ priority, (after thief).atLevel priority =
    (before thief).atLevel priority ++ moved priority
  realTime : ∀ priority, priorityRealTime ≤ priority → moved priority = []
  progress : (∃ priority, priority < priorityRealTime ∧
    (before (1 - thief)).atLevel priority ≠ []) → ∃ priority, moved priority ≠ []

theorem steal_per_level (ready : HartMaps) (thief : HartId) :
    ∃ moved, Stolen ready (stealFromBusiest ready thief) thief moved := by
  simp only [stealFromBusiest]
  by_cases none : (ready (1 - thief)).countBelow priorityRealTime = 0
  · simp only [none]
    have empty := (count_below_eq_zero _ _).mp none
    refine ⟨fun _ => [], fun _ => rfl, fun _ => (append_nil _).symm, fun _ _ => rfl, ?_⟩
    intro something
    obtain ⟨priority, below, nonempty⟩ := something
    exact absurd (empty priority below) nonempty
  · simp only [none, if_false]
    obtain ⟨moved, out, elsewhere, progress⟩ := move_levels_spec
      (max ((ready (1 - thief)).countBelow priorityRealTime / 2) 1) stealLevels
      ⟨0, ready (1 - thief), ready thief⟩
    refine ⟨moved, ?_, ?_, ?_, ?_⟩
    · intro priority
      simp only [if_true]
      exact out.source priority
    · intro priority
      simp only [(other_hart_ne thief).symm]
      exact out.target priority
    · intro priority realTime
      apply elsewhere
      simp only [stealLevels, mem_reverse, mem_range]
      omega
    · intro something
      obtain ⟨priority, below, nonempty⟩ := something
      apply progress
      · exact Nat.lt_of_lt_of_le Nat.one_pos (Nat.le_max_right _ _)
      · refine ⟨priority, ?_, nonempty⟩
        simp only [stealLevels, mem_reverse, mem_range]
        exact below

theorem Stolen.pairs_perm {was after : HartMaps} {thief : HartId}
    {moved : Nat → List TaskId} (stolen : Stolen was after thief moved) :
    (pairs after).Perm (pairs was) := by
  rw [perm_iff_count]
  intro pair
  obtain ⟨_, priority⟩ := pair
  rw [count_pairs _ thief, count_pairs _ thief, stolen.lost priority, stolen.gained priority,
    count_append, count_append]
  omega

/-- Stealing loses and doubles nothing, moves nothing at real-time priority, keeps the
order of the entries that stay and of those that move, and moves something whenever
something may move. -/
theorem steal_moves_front_entries (ready : HartMaps) (thief : HartId) :
    (pairs (stealFromBusiest ready thief)).Perm (pairs ready) ∧
      ∃ moved, Stolen ready (stealFromBusiest ready thief) thief moved := by
  obtain ⟨moved, stolen⟩ := steal_per_level ready thief
  exact ⟨stolen.pairs_perm, moved, stolen⟩

/-- The map holds, level by level, what the list of entries holds. -/
def Represents (queue : PriorityFifo TaskId) (map : ReadyMap) : Prop :=
  ∀ level, map.atLevel level = itemsAt level queue.entries

variable {queue : PriorityFifo TaskId} {map : ReadyMap}

theorem push_represents (represents : Represents queue map) (level : Nat) (id : TaskId) :
    Represents (queue.push level id) (map.pushBack level id) := by
  intro other
  rw [at_level_push_back, push, items_at_append, items_at_cons, represents other]
  by_cases same : other = level
  · rw [if_pos same, if_pos same.symm]
    rfl
  · rw [if_neg same, if_neg (Ne.symm same)]
    exact (append_nil _).symm

theorem move_level_represents {budget : Nat} {state : LevelQueues.Move TaskId}
    {victim thief : PriorityFifo TaskId} (source : Represents victim state.source)
    (target : Represents thief state.target) (level : Nat) :
    Represents ⟨(splitLevel level (budget - state.moved) victim.entries).2⟩
        (moveLevel budget state level).source ∧
      Represents ⟨thief.entries ++
          (splitLevel level (budget - state.moved) victim.entries).1⟩
        (moveLevel budget state level).target ∧
      budget - (moveLevel budget state level).moved =
        budget - state.moved -
          (splitLevel level (budget - state.moved) victim.entries).1.length := by
  obtain ⟨count, newSource, newTarget⟩ := move_level_eq budget state level
  have split := items_at_split level (budget - state.moved) victim.entries
  refine ⟨?_, ?_, ?_⟩
  · intro other
    rw [newSource other, source other, (split other).2.1]
  · intro other
    rw [newTarget other, target other, source other, items_at_append, (split other).1]
    split <;> simp
  · rw [count, source level, (split level).2.2]
    omega

theorem move_levels_represents (budget : Nat) (levels : List Nat)
    (state : LevelQueues.Move TaskId) (victim thief : PriorityFifo TaskId)
    (source : Represents victim state.source) (target : Represents thief state.target) :
    Represents (moveUpTo (budget - state.moved) levels victim thief).1
        (moveLevels budget levels state).source ∧
      Represents (moveUpTo (budget - state.moved) levels victim thief).2
        (moveLevels budget levels state).target := by
  induction levels generalizing state victim thief with
  | nil => exact ⟨source, target⟩
  | cons level rest ih =>
    unfold moveLevels
    by_cases full : budget ≤ state.moved
    · -- The source loop stops here; without a budget the list version moves nothing more.
      rw [if_pos full, Nat.sub_eq_zero_of_le full, move_up_to_zero]
      exact ⟨source, target⟩
    · obtain ⟨newSource, newTarget, left⟩ :=
        @move_level_represents budget state victim thief source target level
      rw [if_neg full]
      unfold moveUpTo
      dsimp only
      rw [← left]
      exact ih (moveLevel budget state level) _ _ newSource newTarget

theorem pairs_of_represents (represents : Represents queue map) :
    map.pairs.Perm (queue.entries.map Prod.swap) := by
  rw [perm_iff_count]
  intro pair
  obtain ⟨_, level⟩ := pair
  rw [LevelQueues.count_pairs, represents level]
  induction queue.entries with
  | nil => rfl
  | cons entry rest ih =>
    rw [items_at_cons, map_cons, count_cons, ← ih]
    by_cases here : entry.1 = level
    · rw [if_pos here, count_cons]
      simp [Prod.swap, here]
    · simp [Prod.swap, here]

theorem count_below_represents (represents : Represents queue map) (bound : Nat) :
    map.countBelow bound = queue.countBelow bound := by
  have listed := ((pairs_of_represents represents).filter
    (fun pair => decide (pair.2 < bound))).length_eq
  rw [filter_map, length_map] at listed
  refine Eq.trans ?_ listed
  simp only [LevelQueues.countBelow, LevelQueues.pairs]
  induction map.toList with
  | nil => rfl
  | cons entry rest ih =>
    rw [flatMap_cons, filter_append, length_append, ← ih]
    rw [filter_map]
    by_cases below : entry.1 < bound
    all_goals simp [below, Function.comp_def]

/-- The scheduler model's stealing agrees with the loops over the maps. -/
theorem steal_represents {ready : ReadyQueues} {maps : HartMaps}
    (represents : ∀ hart, Represents (ready hart) (maps hart)) (thief hart : HartId) :
    Represents (Ready.stealFromBusiest ready thief hart) (stealFromBusiest maps thief hart) := by
  simp only [Ready.stealFromBusiest, stealFromBusiest,
    count_below_represents (represents (1 - thief))]
  by_cases none : (ready (1 - thief)).countBelow priorityRealTime = 0
  · simp only [none]
    exact represents hart
  · simp only [none, if_false]
    have moved := move_levels_represents
      (max ((ready (1 - thief)).countBelow priorityRealTime / 2) 1) stealLevels
      ⟨0, maps (1 - thief), maps thief⟩ (ready (1 - thief)) (ready thief)
      (represents (1 - thief)) (represents thief)
    by_cases isVictim : hart = 1 - thief
    · simp only [isVictim]
      exact moved.1
    · simp only [isVictim]
      exact moved.2

theorem two_tasks_stolen_alike :
    Represents (Ready.stealFromBusiest (fun _ => (empty.push 1 7).push 1 8) 0 0)
      (stealFromBusiest (fun _ => (pushBack ∅ 1 7).pushBack 1 8) 0 0) :=
  steal_represents (fun _ => push_represents (push_represents (fun _ => rfl) 1 7) 1 8) 0 0

end ViCell.Core.ReadyMaps
