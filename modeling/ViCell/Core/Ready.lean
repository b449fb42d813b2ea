import ViCell.Lib.PriorityFifo
import ViCell.Core.Tcb

/-!
# Per-hart ready queues

`task/hart_local/ready.rs`.  Each hart owns an ordered map from priority levels
to FIFO queues, here a `PriorityFifo`.  The queue lemmas all speak about
`queuedIn`, the ids waiting on either hart, up to reordering.
-/

namespace ViCell.Core.Ready

open Lib Core.Tcb Function List PriorityFifo

abbrev HartId := Fin 2

instance harts_ne_zero : NeZero 2 :=
  ⟨two_ne_zero⟩

abbrev ReadyQueues := HartId → PriorityFifo TaskId

def pushOnHart (ready : ReadyQueues) (hart : HartId) (id : TaskId) (priority : Nat) :
    ReadyQueues :=
  update ready hart ((ready hart).push priority id)

def pickLocal (ready : ReadyQueues) (hart : HartId) : Option (TaskId × ReadyQueues) :=
  ((ready hart).pop).map (fun taken => (taken.1, update ready hart taken.2))

def removeFromAll (ready : ReadyQueues) (id : TaskId) : ReadyQueues :=
  fun hart => (ready hart).remove id

/-- With two harts the victim is always the other one.  Entries at real-time
priority stay where they are, and Normal entries move before Background ones. -/
def stealFromBusiest (ready : ReadyQueues) (thief : HartId) : ReadyQueues :=
  let victim : HartId := 1 - thief
  let stealable := (ready victim).countBelow priorityRealTime
  if stealable = 0 then ready
  else
    let moved := moveUpTo (max (stealable / 2) 1)
      [priorityNormal, priorityBackground] (ready victim) (ready thief)
    fun hart => if hart = victim then moved.1 else moved.2

/-- The fallback chain of `pick_next_local`: own queue first, then stolen work. -/
def pickOrSteal (ready : ReadyQueues) (hart : HartId) : Option (TaskId × ReadyQueues) :=
  match pickLocal ready hart with
  | some taken => some taken
  | none => pickLocal (stealFromBusiest ready hart) hart

def queuedIn (ready : ReadyQueues) : List TaskId :=
  (ready 0).contents ++ (ready 1).contents

theorem hart_cases (hart : HartId) : hart = 0 ∨ hart = 1 := by
  revert hart
  decide

theorem hart_eq_or_other (hart other : HartId) : other = hart ∨ other = 1 - hart := by
  revert hart other
  decide

theorem other_hart_ne (hart : HartId) : 1 - hart ≠ hart := by
  revert hart
  decide

theorem other_hart_other (hart : HartId) : 1 - (1 - hart) = hart := by
  revert hart
  decide

theorem queued_in_update (ready : ReadyQueues) (hart : HartId) (queue : PriorityFifo TaskId) :
    (queuedIn (update ready hart queue)).Perm (queue.contents ++ (ready (1 - hart)).contents) := by
  rcases hart_cases hart with rfl | rfl
  · simp [queuedIn]
  · simpa [queuedIn] using perm_append_comm

theorem queued_in_split (ready : ReadyQueues) (hart : HartId) :
    (queuedIn ready).Perm ((ready hart).contents ++ (ready (1 - hart)).contents) := by
  have same := queued_in_update ready hart (ready hart)
  rwa [update_eq_self] at same

theorem push_on_hart_perm (ready : ReadyQueues) (hart : HartId) (id : TaskId) (priority : Nat) :
    (queuedIn (pushOnHart ready hart id priority)).Perm (id :: queuedIn ready) := by
  unfold pushOnHart
  refine (queued_in_update _ _ _).trans ?_
  rw [contents_push, append_assoc, singleton_append]
  refine perm_middle.trans ?_
  exact (queued_in_split ready hart).symm.cons id

theorem pick_local_perm {ready rest : ReadyQueues} {hart : HartId} {id : TaskId}
    (picked : pickLocal ready hart = some (id, rest)) :
    (queuedIn ready).Perm (id :: queuedIn rest) := by
  unfold pickLocal at picked
  rw [Option.map_eq_some_iff] at picked
  obtain ⟨⟨found, queue⟩, popped, same⟩ := picked
  simp only [Prod.mk.injEq] at same
  obtain ⟨rfl, rfl⟩ := same
  refine (queued_in_split ready hart).trans ?_
  refine ((pop_perm popped).append_right _).trans ?_
  exact (queued_in_update ready hart queue).symm.cons found

theorem steal_from_busiest_perm (ready : ReadyQueues) (thief : HartId) :
    (queuedIn (stealFromBusiest ready thief)).Perm (queuedIn ready) := by
  simp only [stealFromBusiest]
  split
  · exact List.Perm.refl _
  · have moved := move_up_to_perm
      (max ((ready (1 - thief)).countBelow priorityRealTime / 2) 1)
      [priorityNormal, priorityBackground] (ready (1 - thief)) (ready thief)
    refine List.Perm.trans ?_ (moved.symm.trans ?_)
    · rcases hart_cases thief with rfl | rfl
      · simpa [queuedIn] using perm_append_comm
      · simp [queuedIn]
    · exact perm_append_comm.trans (queued_in_split ready thief).symm

theorem pick_or_steal_perm {ready rest : ReadyQueues} {hart : HartId} {id : TaskId}
    (picked : pickOrSteal ready hart = some (id, rest)) :
    (queuedIn ready).Perm (id :: queuedIn rest) := by
  unfold pickOrSteal at picked
  split at picked
  · rename_i taken here
    cases picked
    exact pick_local_perm here
  · exact (steal_from_busiest_perm ready hart).symm.trans (pick_local_perm picked)

@[simp] theorem queued_in_remove_from_all (ready : ReadyQueues) (id : TaskId) :
    queuedIn (removeFromAll ready id) = (queuedIn ready).filter (fun other => other ≠ id) := by
  simp [queuedIn, removeFromAll]

section Entries

variable {ready rest : ReadyQueues} {hart : HartId} {entry : Nat × TaskId}

theorem mem_push_on_hart {target : HartId} {id : TaskId} {priority : Nat}
    (mem : entry ∈ (pushOnHart ready target id priority hart).entries) :
    entry ∈ (ready hart).entries ∨ entry = (priority, id) := by
  unfold pushOnHart at mem
  by_cases here : hart = target
  · subst here
    rw [update_self, push, mem_append, mem_singleton] at mem
    exact mem
  · rw [update_of_ne here] at mem
    exact Or.inl mem

theorem mem_remove_from_all {id : TaskId} (mem : entry ∈ (removeFromAll ready id hart).entries) :
    entry ∈ (ready hart).entries ∧ entry.2 ≠ id := by
  simpa [removeFromAll, remove] using mem

theorem mem_steal_from_busiest {thief : HartId}
    (mem : entry ∈ (stealFromBusiest ready thief hart).entries) :
    ∃ other, entry ∈ (ready other).entries := by
  simp only [stealFromBusiest] at mem
  split at mem
  · exact ⟨hart, mem⟩
  · have moved := (move_up_to_entries_perm
      (max ((ready (1 - thief)).countBelow priorityRealTime / 2) 1)
      [priorityNormal, priorityBackground] (ready (1 - thief)) (ready thief)).mem_iff (a := entry)
    simp only [mem_append] at moved
    have either : entry ∈ (ready (1 - thief)).entries ∨ entry ∈ (ready thief).entries := by
      apply moved.mpr
      dsimp only at mem
      split at mem
      · exact Or.inl mem
      · exact Or.inr mem
    rcases either with there | here
    · exact ⟨_, there⟩
    · exact ⟨_, here⟩

theorem mem_pick_local {id : TaskId} (picked : pickLocal ready hart = some (id, rest))
    {other : HartId} (mem : entry ∈ (rest other).entries) :
    entry ∈ (ready other).entries := by
  unfold pickLocal at picked
  rw [Option.map_eq_some_iff] at picked
  obtain ⟨⟨_, _⟩, popped, same⟩ := picked
  cases same
  by_cases here : other = hart
  · subst here
    rw [update_self] at mem
    obtain ⟨_, _, _, whole, kept, -, -⟩ := pop_split popped
    rw [kept] at mem
    rw [whole]
    simp only [mem_append, mem_cons] at mem ⊢
    tauto
  · rwa [update_of_ne here] at mem

end Entries

end ViCell.Core.Ready
