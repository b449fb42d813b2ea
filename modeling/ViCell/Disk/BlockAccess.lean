import ViCell.Disk.BlockCalls

/-!
# Raw block calls stay in granted partitions

A sector is reached only after both checks of its call passed. `Guarded` carries
what the checks saw up to the transfer, in whatever order other calls and the
rest of the kernel run in between.
-/

namespace ViCell.Disk

open Lib Core.Tcb Core.Ready Core.State Core.Machine List Option

def Holds (capSeen regionsSeen : Kernel) (task : TaskId) (sector : Nat) : Prop :=
  callerHasBlockIo capSeen task = true ∧
    ∃ granted ∈ grantable, regionsOf regionsSeen task &&& granted.1 ≠ 0 ∧ granted.2.Contains sector

variable {sector : Nat}

theorem holds_of_checks {capSeen regionsSeen : Kernel} {task : TaskId}
    (capable : callerHasBlockIo capSeen task = true)
    (admitted : checkBlockAccess regionsSeen task sector 1 = true) :
    Holds capSeen regionsSeen task sector :=
  ⟨capable, (check_regions_iff _ _).mp admitted⟩

theorem Holds.not_kernel_owned {capSeen regionsSeen : Kernel} {task : TaskId}
    (holds : Holds capSeen regionsSeen task sector) : ¬ KernelOwned sector := by
  obtain ⟨_, _, mem, _, inside⟩ := holds
  exact grantable_not_kernel_owned mem inside

/-- What the sections that a call has behind it established, about kernels that
satisfy `seen`. -/
def Stage.Checked (seen : Kernel → Prop) (caller : TaskId) (sector : Nat) : Stage → Prop
  | .entered => True
  | .capable capSeen => callerHasBlockIo capSeen caller = true ∧ seen capSeen
  | .admitted capSeen regionsSeen =>
    Holds capSeen regionsSeen caller sector ∧ seen capSeen ∧ seen regionsSeen

theorem Stage.Checked.mono {seen later : Kernel → Prop}
    (more : ∀ kernel, seen kernel → later kernel) {caller : TaskId} {stage : Stage}
    (checked : stage.Checked seen caller sector) : stage.Checked later caller sector := by
  cases stage with
  | entered => trivial
  | capable => exact ⟨checked.1, more _ checked.2⟩
  | admitted =>
    exact ⟨checked.1, more _ checked.2.1, more _ checked.2.2⟩

namespace BlockSystem

/-- Calls under way and past accesses were checked against kernels in `seen`, and
the kernel's own sectors are as they were. -/
structure Guarded (seen : Kernel → Prop) (disk : Sectors) (state : BlockSystem) : Prop where
  calls : ∀ caller call stage, state.calls caller = some (call, stage) →
    stage.Checked seen caller call.sector
  accesses : ∀ access ∈ state.accesses,
    Holds access.capSeen access.regionsSeen access.task access.call.sector ∧
      seen access.capSeen ∧ seen access.regionsSeen
  disk : ∀ lba, KernelOwned lba → state.disk lba = disk lba

section

variable {seen : Kernel → Prop} {disk : Sectors} {state : BlockSystem}

theorem Guarded.mono {later : Kernel → Prop} (more : ∀ kernel, seen kernel → later kernel)
    (guarded : Guarded seen disk state) : Guarded later disk state where
  calls := fun caller call stage found => (guarded.calls caller call stage found).mono more
  accesses := fun access mem =>
    have earlier := guarded.accesses access mem
    ⟨earlier.1, more _ earlier.2.1, more _ earlier.2.2⟩
  disk := guarded.disk

variable {caller : TaskId} {call : BlockCall}

theorem device_transfer_other (contents : Sectors) (around : Surroundings) (buf : Nat)
    (call : BlockCall) {lba : Nat} (other : lba ≠ call.sector) :
    (deviceTransfer contents around buf call).2 lba = contents lba := by
  cases call with
  | read => rfl
  | readAsync => rfl
  | write =>
    unfold deviceTransfer
    dsimp only
    split
    · exact Function.update_of_ne other _ _
    · rfl

section

variable (guarded : Guarded seen disk state)
include guarded

theorem Guarded.move_to {stage : Stage} (checked : stage.Checked seen caller call.sector) :
    Guarded seen disk (state.moveTo caller call stage) where
  calls := by
    intro other otherCall otherStage found
    rw [calls_move_to] at found
    split at found
    · rename_i same
      subst same
      cases found
      exact checked
    · exact guarded.calls other otherCall otherStage found
  accesses := guarded.accesses
  disk := guarded.disk

theorem Guarded.reply (caller : TaskId)
    (out : Except SyscallError Nat) : Guarded seen disk (state.reply caller out) where
  calls := by
    intro other otherCall otherStage found
    rw [calls_reply] at found
    split at found
    · cases found
    · exact guarded.calls other otherCall otherStage found
  accesses := guarded.accesses
  disk := guarded.disk

theorem Guarded.transfer (around : Surroundings)
    {capSeen regionsSeen : Kernel} (holds : Holds capSeen regionsSeen caller call.sector)
    (capPassed : seen capSeen) (regionsPassed : seen regionsSeen) :
    Guarded seen disk (state.transfer caller around call capSeen regionsSeen) := by
  unfold BlockSystem.transfer
  split
  · exact guarded.reply caller _
  · rename_i buf _
    apply Guarded.reply
    refine ⟨guarded.calls, ?_, ?_⟩
    · intro access mem
      rcases mem_cons.mp mem with new | old
      · subst new
        exact ⟨holds, capPassed, regionsPassed⟩
      · exact guarded.accesses access old
    · intro lba owned
      have other : lba ≠ call.sector := by
        intro same
        rw [same] at owned
        exact holds.not_kernel_owned owned
      exact (device_transfer_other state.disk around buf call other).trans
        (guarded.disk lba owned)

theorem Guarded.advance (passed : seen state.kernel)
    (around : Surroundings) {stage : Stage} (checked : stage.Checked seen caller call.sector) :
    Guarded seen disk (state.advance caller around (call, stage)) := by
  cases stage with
  | entered =>
    dsimp only [BlockSystem.advance]
    split
    · rename_i capable
      exact guarded.move_to ⟨capable, passed⟩
    · exact guarded.reply caller _
  | capable =>
    dsimp only [BlockSystem.advance]
    split
    · rename_i admitted
      exact guarded.move_to ⟨holds_of_checks checked.1 admitted, checked.2, passed⟩
    · exact guarded.reply caller _
  | admitted =>
    exact guarded.transfer around checked.1 checked.2.1 checked.2.2

theorem step_guarded {event : BlockEvent} {after : BlockSystem} (passed : seen state.kernel)
    (ran : state.step event = some after) : Guarded seen disk after := by
  cases event with
  | kernel =>
    obtain ⟨_, _, same⟩ := map_eq_some_iff.mp ran
    subst same
    exact ⟨guarded.calls, guarded.accesses, guarded.disk⟩
  | issue =>
    dsimp only [step] at ran
    split at ran
    · cases ran
    · split at ran
      · cases ran
      · cases ran
        exact guarded.move_to trivial
  | proceed caller around =>
    obtain ⟨⟨call, stage⟩, found, same⟩ := map_eq_some_iff.mp ran
    subst same
    exact guarded.advance passed around (guarded.calls caller call stage found)

end

end

/-- Since `start`, nothing but sections of this call ran. -/
structure Undisturbed (start : BlockSystem) (caller : TaskId) (call : BlockCall)
    (state : BlockSystem) : Prop where
  kernel : state.kernel = start.kernel
  stage : ∀ other stage, state.calls caller = some (other, stage) →
    other = call ∧ stage.Checked (fun seen => seen = start.kernel) caller call.sector
  accesses : ∀ access ∈ state.accesses, access ∈ start.accesses ∨
    (access.task = caller ∧ access.call = call ∧ Holds start.kernel start.kernel caller call.sector)

section

variable {start state : BlockSystem} {caller : TaskId} {call : BlockCall}

theorem Undisturbed.move_to (undisturbed : Undisturbed start caller call state) {stage : Stage}
    (checked : stage.Checked (fun seen => seen = start.kernel) caller call.sector) :
    Undisturbed start caller call (state.moveTo caller call stage) where
  kernel := undisturbed.kernel
  stage := by
    intro other found isStage
    rw [calls_move_to, if_pos rfl] at isStage
    cases isStage
    exact ⟨rfl, checked⟩
  accesses := undisturbed.accesses

theorem Undisturbed.reply (undisturbed : Undisturbed start caller call state)
    (out : Except SyscallError Nat) :
    Undisturbed start caller call (state.reply caller out) where
  kernel := undisturbed.kernel
  stage := by
    intro other found isStage
    rw [calls_reply, if_pos rfl] at isStage
    cases isStage
  accesses := undisturbed.accesses

theorem Undisturbed.transfer (undisturbed : Undisturbed start caller call state)
    (around : Surroundings) (capSeen regionsSeen : Kernel)
    (holds : Holds start.kernel start.kernel caller call.sector) :
    Undisturbed start caller call (state.transfer caller around call capSeen regionsSeen) := by
  unfold BlockSystem.transfer
  split
  · exact undisturbed.reply _
  · apply Undisturbed.reply
    refine ⟨undisturbed.kernel, undisturbed.stage, ?_⟩
    intro access mem
    rcases mem_cons.mp mem with new | old
    · subst new
      exact Or.inr ⟨rfl, rfl, holds⟩
    · exact undisturbed.accesses access old

variable {after : BlockSystem}

theorem Undisturbed.proceed (undisturbed : Undisturbed start caller call state)
    {around : Surroundings} (ran : state.step (.proceed caller around) = some after) :
    Undisturbed start caller call after := by
  obtain ⟨⟨other, stage⟩, found, same⟩ := map_eq_some_iff.mp ran
  obtain ⟨sameCall, checked⟩ := undisturbed.stage other stage found
  subst same sameCall
  cases stage with
  | entered =>
    dsimp only [BlockSystem.advance]
    rw [undisturbed.kernel]
    split
    · rename_i capable
      exact undisturbed.move_to ⟨capable, rfl⟩
    · exact undisturbed.reply _
  | capable =>
    obtain ⟨capable, seen⟩ := checked
    subst seen
    dsimp only [BlockSystem.advance]
    rw [undisturbed.kernel]
    split
    · rename_i admitted
      exact undisturbed.move_to ⟨holds_of_checks capable admitted, rfl, rfl⟩
    · exact undisturbed.reply _
  | admitted =>
    obtain ⟨holds, capIs, regionsIs⟩ := checked
    subst capIs regionsIs
    exact undisturbed.transfer around _ _ holds

theorem Undisturbed.run (arounds : List Surroundings)
    (undisturbed : Undisturbed start caller call state)
    (executed : runEvents step state (arounds.map (BlockEvent.proceed caller)) = some after) :
    Undisturbed start caller call after := by
  induction arounds generalizing state with
  | nil =>
    cases executed
    exact undisturbed
  | cons around rest ih =>
    simp only [map_cons, runEvents, bind_eq_some_iff] at executed
    obtain ⟨_, ran, later⟩ := executed
    exact ih (undisturbed.proceed ran) later

theorem undisturbed_issue (hart : HartId) (runs : executing state.system hart = some caller)
    (ran : state.step (.issue hart call) = some after) :
    Undisturbed state caller call after := by
  dsimp only [step] at ran
  rw [runs] at ran
  dsimp only at ran
  split at ran
  · cases ran
  · cases ran
    refine ⟨rfl, ?_, fun _ mem => Or.inl mem⟩
    intro other found isStage
    rw [calls_move_to, if_pos rfl] at isStage
    cases isStage
    exact ⟨rfl, trivial⟩

end

def Passed (start : BlockSystem) (events : List BlockEvent) (kernel : Kernel) : Prop :=
  ∃ earlier later state, events = earlier ++ later ∧
    runEvents step start earlier = some state ∧ state.kernel = kernel

theorem Passed.append {start : BlockSystem} {events : List BlockEvent} {kernel : Kernel}
    (passed : Passed start events kernel) (event : BlockEvent) :
    Passed start (events ++ [event]) kernel := by
  obtain ⟨earlier, later, state, split, ran, same⟩ := passed
  refine ⟨earlier, later ++ [event], state, ?_, ran, same⟩
  rw [split, append_assoc]

theorem run_guarded {disk : Sectors} {events : List BlockEvent} {state : BlockSystem}
    (executed : runEvents step (initial disk) events = some state) :
    Guarded (Passed (initial disk) events) disk state := by
  refine run_history_invariant
    (fun past state => Guarded (Passed (initial disk) past) disk state) executed ?_ ?_
  · refine ⟨?_, ?_, fun _ _ => rfl⟩
    · intro caller call stage found
      cases found
    · intro access mem
      cases mem
  · intro past was event after ran guarded moved
    have has : Passed (initial disk) past was.kernel :=
      ⟨past, [], was, (append_nil past).symm, ran, rfl⟩
    exact (step_guarded guarded has moved).mono (fun _ passed => passed.append event)

/-- In every run, a sector is reached only for a task that held the block
capability when the first check of its call looked and a region bit of a
partition with that sector when the second check looked; if nothing else ran
during the call, it held both throughout the call. The boot record, the cell
table and the snapshot are never reached and keep their contents. -/
theorem block_accesses_granted {disk : Sectors} {events : List BlockEvent}
    {state : BlockSystem} (executed : runEvents step (initial disk) events = some state) :
    (∀ access ∈ state.accesses,
      Holds access.capSeen access.regionsSeen access.task access.call.sector ∧
        Passed (initial disk) events access.capSeen ∧
        Passed (initial disk) events access.regionsSeen ∧
        ¬ KernelOwned access.call.sector) ∧
    (∀ lba, KernelOwned lba → state.disk lba = disk lba) ∧
    ∀ hart caller call (arounds : List Surroundings) after,
      executing state.system hart = some caller →
      runEvents step state (.issue hart call :: arounds.map (BlockEvent.proceed caller)) =
        some after →
      ∀ access ∈ after.accesses, access ∈ state.accesses ∨
        (access.task = caller ∧ access.call = call ∧
          Holds state.kernel state.kernel caller call.sector) := by
  have guarded := run_guarded executed
  refine ⟨?_, guarded.disk, ?_⟩
  · intro access member
    obtain ⟨holds, capPassed, regionsPassed⟩ := guarded.accesses access member
    exact ⟨holds, capPassed, regionsPassed, holds.not_kernel_owned⟩
  · intro hart caller call arounds after runs called
    simp only [runEvents, bind_eq_some_iff] at called
    obtain ⟨_, stepped, later⟩ := called
    exact ((undisturbed_issue hart runs stepped).run arounds later).accesses

def plainSurroundings : Surroundings where
  memory := fun _ => 7
  grants := none
  served := true

/-- `init` writes the first sector of the FAT volume, and asks for the cell table. -/
def initWrites : List BlockEvent :=
  [.kernel (.idle 0), .issue 0 (.write 2048 4096), .proceed 1 plainSurroundings,
    .proceed 1 plainSurroundings, .proceed 1 plainSurroundings,
    .issue 0 (.write 526336 4096), .proceed 1 plainSurroundings, .proceed 1 plainSurroundings]

theorem init_writes_granted :
    ∃ state, runEvents step (initial (fun _ => [])) initWrites = some state ∧
      state.accesses.map (fun access => (access.task, access.call)) = [(1, .write 2048 4096)] ∧
      (∀ access ∈ state.accesses, ¬ KernelOwned access.call.sector) ∧
      state.disk 526336 = [] := by
  have evaluated : (runEvents step (initial (fun _ => [])) initWrites).map (fun state =>
      state.accesses.map (fun access => (access.task, access.call))) =
      some [(1, .write 2048 4096)] := by
    decide +kernel
  obtain ⟨state, executed, accesses⟩ := map_eq_some_iff.mp evaluated
  obtain ⟨granted, kept, _⟩ := block_accesses_granted executed
  refine ⟨state, executed, accesses, ?_, ?_⟩
  · intro access member
    exact (granted access member).2.2.2
  · exact kept 526336 (Or.inr (Or.inl (by decide)))

end BlockSystem

end ViCell.Disk
