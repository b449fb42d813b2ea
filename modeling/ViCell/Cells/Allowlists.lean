import ViCell.Lib.IdTable
import ViCell.Lib.Runs

/-!
# Syscall allowlists of created tasks

`Task::new` gives every task an allowlist that permits all.  The path loader replaces it
later, in a lock section of its own; `Spawn` and `SpawnFromMem` leave it as it is.
-/

namespace ViCell.Cells.Allowlists

open Lib IdTable

/-- The opcodes of `map_syscall` with the bit that `check_allowlist` and, again,
`handle_syscall` test. -/
def gated : List (Nat × Nat) :=
  [(0, 0), (1, 1), (2, 4), (3, 3), (5, 5), (6, 35), (7, 2), (8, 9), (10, 6), (11, 10), (12, 7),
    (13, 15), (14, 16), (15, 17), (16, 8), (20, 12), (21, 13), (30, 14), (35, 11), (101, 18),
    (102, 19), (103, 21), (105, 22), (106, 23), (107, 24), (109, 20), (120, 25), (201, 29),
    (202, 30), (203, 31), (206, 37), (207, 38), (208, 39), (209, 39), (210, 39), (211, 39),
    (212, 36), (213, 40), (214, 41), (215, 39), (216, 39), (217, 42), (218, 47), (220, 44),
    (221, 44), (222, 44), (223, 44), (224, 44), (225, 44), (226, 44), (227, 44), (228, 16),
    (229, 45), (230, 16), (231, 46), (232, 45), (233, 48), (300, 26), (301, 43), (302, 44),
    (310, 27), (311, 28), (400, 32), (401, 32), (410, 33), (411, 34), (412, 34), (420, 32),
    (500, 36), (501, 36), (503, 36)]

def ungated : List Nat := [60, 61, 100, 104, 108, 110, 111, 204, 205, 219, 502]

def executes (allowlist : BitVec 64) (opcode : Nat) : Bool :=
  ungated.contains opcode ||
    gated.any (fun entry => decide (entry.1 = opcode) && allowlist.getLsbD entry.2)

/-- Where a task's code comes from: handed over by its creator, or an image that passed
the signature and policy checks, before and after its allowlist is installed. -/
inductive Code
  | given
  | loading
  | loaded
  deriving DecidableEq

/-- `line` is the task itself and the tasks in the chain that created it. -/
structure Task where
  allowlist : BitVec 64
  code : Code
  line : List Nat

def create (tasks : IdTable Task) (code : Code) (above : List Nat) : IdTable Task :=
  tasks.alloc ⟨BitVec.allOnes 64, code, tasks.next :: above⟩

/-- `Spawn`, `SpawnFromMem`, `SpawnFromPath` and `SpawnPinned`. -/
def codeOf : Nat → Option Code
  | 5 => some .given
  | 10 => some .given
  | 12 => some .loading
  | 16 => some .loading
  | _ => none

/-- A `call` creates a task: one that a handler refuses changes nothing.  Boot and hot-swap
`load` a cell without a creator. -/
inductive Event
  | call (caller opcode : Nat)
  | load
  | install (tid : Nat) (allowlist : BitVec 64)

def step (tasks : IdTable Task) : Event → Option (IdTable Task)
  | .call caller opcode =>
    match tasks.get caller, codeOf opcode with
    | some task, some code =>
      if executes task.allowlist opcode then some (create tasks code task.line) else none
    | _, _ => none
  | .load => some (create tasks .loading [])
  | .install tid allowlist =>
    match tasks.get tid with
    | some ⟨_, .loading, line⟩ => some (tasks.modify tid (fun _ => ⟨allowlist, .loaded, line⟩))
    | _ => none

def start : IdTable Task := empty 1

/-- No task executes what the allowlist of a task in its line forbids, unless its code is
a checked image. -/
def Confined (tasks : IdTable Task) : Prop :=
  ∀ id, ∀ task ∈ tasks.get id, task.code = .given → ∀ above ∈ task.line,
    ∀ creator ∈ tasks.get above, ∀ opcode, executes task.allowlist opcode →
      executes creator.allowlist opcode

def Unrestricted (allowlist : BitVec 64) : Prop :=
  ∀ entry ∈ gated, executes allowlist entry.1

instance (allowlist : BitVec 64) : Decidable (Unrestricted allowlist) :=
  inferInstanceAs (Decidable (∀ entry ∈ gated, _))

/-- Code is given by tasks that are unrestricted, as their whole line is, and no allowlist
that restricts is installed in the line of given code. -/
def Meets (tasks : IdTable Task) : Event → Prop
  | .call caller opcode =>
    codeOf opcode = some .given → ∀ task ∈ tasks.get caller, ∀ above ∈ task.line,
      ∀ creator ∈ tasks.get above, Unrestricted creator.allowlist
  | .load => True
  | .install tid allowlist =>
    (∃ id ∈ tasks.ids, ∃ task ∈ tasks.get id, task.code = .given ∧ tid ∈ task.line) →
      Unrestricted allowlist

instance (tasks : IdTable Task) (event : Event) : Decidable (Meets tasks event) := by
  unfold Meets
  split <;> infer_instance

def Free (tasks : IdTable Task) : Prop :=
  ∀ id, ∀ task ∈ tasks.get id, task.code = .given → ∀ above ∈ task.line,
    ∀ creator ∈ tasks.get above, Unrestricted creator.allowlist

theorem Free.confined {tasks : IdTable Task} (free : Free tasks) : Confined tasks := by
  intro id task found given above mem creator has opcode ran
  unfold executes at ran ⊢
  rcases Bool.or_eq_true_iff.mp ran with always | gates
  · rw [always, Bool.true_or]
  · obtain ⟨entry, known, passes⟩ := List.any_eq_true.mp gates
    have same : entry.1 = opcode := of_decide_eq_true (Bool.and_eq_true_iff.mp passes).1
    exact same ▸ free id task found given above mem creator has entry known

theorem free_create {tasks : IdTable Task} (free : Free tasks) {code : Code} {line : List Nat}
    (fresh : code = .given → ∀ above ∈ line, ∀ creator ∈ tasks.get above,
      Unrestricted creator.allowlist) : Free (create tasks code line) := by
  intro id task found given above mem creator has
  rw [create, get_alloc] at found has
  split at has
  · cases has
    exact (by decide +kernel : Unrestricted (BitVec.allOnes 64))
  · next older =>
    split at found
    · cases found
      exact fresh given above ((List.mem_cons.mp mem).resolve_left older) creator has
    · exact free id task found given above mem creator has

theorem free_step {was after : IdTable Task} {event : Event} (free : Free was)
    (met : Meets was event) (ran : step was event = some after) : Free after := by
  cases event with
  | call =>
    simp only [step] at ran
    split at ran
    · next task code found kind =>
      split at ran
      · cases ran
        exact free_create free (fun given => met (given ▸ kind) task found)
      · cases ran
    · cases ran
  | load =>
    cases ran
    exact free_create free nofun
  | install =>
    simp only [step] at ran
    split at ran
    · next old line found =>
      cases ran
      intro id task given isGiven above mem creator has
      rw [get_modify] at given has
      split at given
      · next here =>
        rw [here, found] at given
        cases given
        cases isGiven
      · split at has
        · next here =>
          rw [here, found] at has
          cases has
          exact met ⟨id, (mem_ids _ _).mpr (Option.isSome_of_mem given), task, given,
            isGiven, here ▸ mem⟩
        · exact free id task given isGiven above mem creator has
    · cases ran

theorem given_code_confined {tasks : IdTable Task} (reached : Reaches step Meets start tasks) :
    Confined tasks :=
  (reached.invariant (fun _ _ _ free met stepped => free_step free met stepped)
    (fun _ _ found => nomatch found)).confined

/-- An unrestricted cell starts a thread, and a restricted one loads another cell. -/
theorem thread_of_open_cell_confined :
    Confined (finalState step start [.load, .install 1 (BitVec.allOnes 64), .call 1 5, .call 1 12,
      .install 3 0xE0, .call 3 12]) :=
  given_code_confined (reaches_final (by decide +kernel) (by decide +kernel))

/-- A cell that may only spawn threads has a thread that may ask for DMA. -/
theorem thread_escapes_allowlist :
    let tasks := finalState step start [.load, .install 1 0x20, .call 1 5]
    (tasks.get 2).map (fun task => (task.code, task.line, executes task.allowlist 233)) =
        some (.given, [2, 1], true) ∧
      (tasks.get 1).map (fun task => executes task.allowlist 233) = some false := by
  decide +kernel

end ViCell.Cells.Allowlists
