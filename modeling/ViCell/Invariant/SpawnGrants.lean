import ViCell.Core.FieldChanges
import ViCell.Core.FrameSteps

/-!
# Capabilities given to spawned cells

The loader reads a ceiling in one section and grants in a later one.  A grant
under way is bounded by what its grantor holds as long as no capability it
includes is taken from the grantor in between; then every capability that a task
gains is held by its spawner, or by the task it replaces, when it is given.

A task can be killed from the other hart while its own hart is inside the loader or the
hot-swap.  Nothing stops that handler: it runs on until it gives up its hart, so the runs
here are those of `onward`, not of `step` alone.
-/

namespace ViCell.Invariant.SpawnGrants

open Lib Core.Tcb Core.Cap Core.Ready Core.State Core.Scheduler Core.Ipc Core.Handler Core.HotSwap
open CapSet
open Function IdTable
open Core.Machine Core.Effects Core.Transitions Core.FieldChanges Core.FrameSteps

/-- The task whose handler or code is on a hart, alive or not. -/
def onHart (system : System) (hart : HartId) : Option TaskId :=
  let tid := system.kernel.current hart
  if 0 < tid ∧ tid < system.kernel.tasks.next then some tid else none

/-- A dead task that is on no hart never runs again: its stack is reaped. -/
def dropReaped (system : System) : System where
  kernel := system.kernel
  frames id :=
    if (system.kernel.tasks.get id).isSome || anyHartRunning system.kernel id then
      system.frames id
    else .user

/-- The handlers that go on after an event: that of a faulting task does not. -/
def handlers (system : System) : Event → TaskId → Frame
  | .fault hart => update system.frames (system.kernel.current hart) .user
  | _ => system.frames

/-- The steps of the machine, where the handler or the code of a killed task goes on. -/
def onward (system : System) : Event → Option System
  | .syscall hart call =>
    (onHart system hart).bind (fun tid =>
      if system.frames tid = .user then
        some (dropReaped (enter system tid (resetWatchdog system.kernel tid, .dispatch call)))
      else none)
  | .proceed hart =>
    (onHart system hart).bind (fun tid =>
      if system.frames tid = .user then none
      else some (dropReaped
        (enter system tid (advance system.kernel hart tid (system.frames tid)))))
  | .fault hart =>
    (onHart system hart).map (fun tid =>
      dropReaped ⟨exitTask system.kernel hart tid usizeMax, handlers system (.fault hart)⟩)
  | event => (step system event).map dropReaped

def heldBy (kernel : Kernel) (id : TaskId) : CapSet :=
  ((kernel.tasks.get id).map ofTask).getD empty

/-- The task whose capabilities bound the grant of a job. -/
def grantor (job : SpawnJob) : Option TaskId :=
  match job.spawner, job.after with
  | .user tid, _ => some tid
  | .ceiling _, .restore swap => some swap.oldTid
  | _, _ => none

/-- What a hot-swap may still grant from the ceiling it has read. -/
def swapPending (swap : Swap) (image : Image) : TaskId × CapSet :=
  (swap.oldTid, image.requested.intersect swap.ceiling)

def jobPending (job : SpawnJob) : Option (TaskId × CapSet) :=
  match job.after with
  | .restore swap => some (swapPending swap job.image)
  | _ => none

def pendingGrant : Frame → Option (TaskId × CapSet)
  | .spawnGrant job _ granted => (grantor job).map (fun holder => (holder, granted))
  | .spawnCreate job => jobPending job
  | .spawnWire job _ => jobPending job
  | .spawnRelocate job _ => jobPending job
  | .spawnAllowlist job _ => jobPending job
  | .spawnCeiling job _ => jobPending job
  | .swapFreeze swap => swap.load.map (swapPending swap)
  | .swapClearRegistry swap => swap.load.map (swapPending swap)
  | .swapSnapshot swap => swap.load.map (swapPending swap)
  | .swapStashCheck swap _ => swap.load.map (swapPending swap)
  | .yielding (.stashPoll swap _) => swap.load.map (swapPending swap)
  | .suspended (.stashPoll swap _) => swap.load.map (swapPending swap)
  | .swapHardFreeze swap => swap.load.map (swapPending swap)
  | .swapSpawn swap => swap.load.map (swapPending swap)
  | _ => none

def ungranted : Frame → Option TaskId
  | .spawnWire _ tid => some tid
  | .spawnRelocate _ tid => some tid
  | .spawnAllowlist _ tid => some tid
  | .spawnCeiling _ tid => some tid
  | .spawnGrant _ tid _ => some tid
  | _ => none

def jobOf : Frame → Option SpawnJob
  | .spawnCreate job => some job
  | .spawnWire job _ => some job
  | .spawnRelocate job _ => some job
  | .spawnAllowlist job _ => some job
  | .spawnCeiling job _ => some job
  | .spawnGrant job _ _ => some job
  | _ => none

def JobOwned (owner : TaskId) (job : SpawnJob) : Prop :=
  match job.spawner, job.after with
  | .user _, .restore _ => False
  | .user tid, _ => tid = owner
  | .ceiling caps, .restore swap => caps = swap.ceiling
  | _, _ => False

section Held

variable {kernel : Kernel} {hart : HartId} {id : TaskId}

theorem held_of_get {task : Task} (found : kernel.tasks.get id = some task) :
    heldBy kernel id = ofTask task := by
  simp [heldBy, found]

theorem held_missing (gone : kernel.tasks.get id = none) : heldBy kernel id = CapSet.empty := by
  simp [heldBy, gone]

theorem held_tasks {other : Kernel} (same : kernel.tasks = other.tasks) :
    heldBy kernel id = heldBy other id := by
  unfold heldBy
  rw [same]

theorem within_empty {caps other : CapSet} (none : caps.Within empty) : caps.Within other :=
  within_trans none (empty_within other)

/-- Only a revocation, a grant or its own exit changes what a task holds. -/
theorem act_held (kernel : Kernel) (hart : HartId) (id : TaskId) (action : Action) :
    heldBy (act kernel hart action) id = heldBy kernel id ∨
      (∃ mask task, action = .edit id (.revoke mask) ∧ kernel.tasks.get id = some task ∧
        heldBy (act kernel hart action) id = ofTask (revoke mask task)) ∨
      (∃ caps, action = .edit id (.grant caps) ∧ heldBy (act kernel hart action) id = caps) ∨
      ((act kernel hart action).tasks.get id = none ∧
        ∃ reason code cause, action = .exit id reason code cause) := by
  cases found : kernel.tasks.get id with
  | none =>
    left
    rcases act_absent found action with lost | ⟨cellId, -, -, created⟩
    · rw [held_missing found, held_missing lost]
    · rw [held_missing found, held_of_get created]
      rfl
  | some task =>
    have caps : EditOnly ofTask := fun _ _ _ _ _ _ _ _ _ _ => rfl
    rcases act_task found action with ⟨after, has, change⟩ | gone
    · rw [held_of_get found, held_of_get has]
      rcases change_field caps change with same | ⟨edit, rfl, rfl⟩
      · exact Or.inl same
      · cases edit with
        | revoke mask => exact Or.inr (Or.inl ⟨mask, task, rfl, rfl, rfl⟩)
        | grant caps => exact Or.inr (Or.inr (Or.inl ⟨caps, rfl, rfl⟩))
        | _ => exact Or.inl rfl
    · exact Or.inr (Or.inr (Or.inr gone))

theorem act_held_within {action : Action} (noGrant : ∀ caps, action ≠ .edit id (.grant caps)) :
    (heldBy (act kernel hart action) id).Within (heldBy kernel id) := by
  rcases act_held kernel hart id action with
    same | ⟨mask, task, rfl, alive, revoked⟩ | ⟨caps, grants, -⟩ | ⟨gone, -⟩
  · rw [same]
    exact within_refl _
  · rw [revoked, held_of_get alive]
    exact revoked_within mask task
  · exact absurd grants (noGrant caps)
  · rw [held_missing gone]
    exact empty_within _

theorem acts_held_within {actions : List Action}
    (noGrant : ∀ action ∈ actions, ∀ caps, action ≠ .edit id (.grant caps)) :
    (heldBy (actAll kernel hart actions) id).Within (heldBy kernel id) := by
  induction actions generalizing kernel with
  | nil => exact within_refl _
  | cons action rest ih =>
    have here : (heldBy (act kernel hart action) id).Within (heldBy kernel id) :=
      act_held_within (noGrant action List.mem_cons_self)
    have later : (heldBy (actAll (act kernel hart action) hart rest) id).Within
        (heldBy (act kernel hart action) id) :=
      ih (fun other mem => noGrant other (List.mem_cons_of_mem _ mem))
    exact within_trans later here

end Held

/-- The grants under way are bounded by what their grantors hold, and the tasks they
are for hold nothing yet and are nobody else's. -/
structure Bounded (frames : TaskId → Frame) (kernel : Kernel) : Prop where
  bounded : ∀ owner holder caps, pendingGrant (frames owner) = some (holder, caps) →
    caps.Within (heldBy kernel holder)
  bare : ∀ owner tid, ungranted (frames owner) = some tid →
    tid < kernel.tasks.next ∧ (heldBy kernel tid).Within empty
  distinct : ∀ first second tid, ungranted (frames first) = some tid →
    ungranted (frames second) = some tid → first = second
  owned : ∀ owner job, jobOf (frames owner) = some job → JobOwned owner job
  unborn : ∀ id, kernel.tasks.next ≤ id → frames id = .user

/-- The action takes from no task a capability that a grant under way includes. -/
def grantSpared (frames : TaskId → Frame) (kernel : Kernel) : Action → Bool
  | .edit target (.revoke mask) =>
    decide (∀ owner < kernel.tasks.next, (pendingGrant (frames owner)).all (fun pending =>
      pending.1 = target → Spares mask pending.2))
  | .exit tid _ _ _ =>
    decide (∀ owner < kernel.tasks.next, (pendingGrant (frames owner)).all (fun pending =>
      pending.1 = tid → pending.2.Within empty))
  | _ => true

def GrantSpared (frames : TaskId → Frame) (kernel : Kernel) (_ : HartId) (action : Action) : Prop :=
  grantSpared frames kernel action = true

instance (frames : TaskId → Frame) (kernel : Kernel) (hart : HartId) (action : Action) :
    Decidable (GrantSpared frames kernel hart action) :=
  inferInstanceAs (Decidable (_ = true))

section Actions

variable {frames : TaskId → Frame} {kernel : Kernel} {hart : HartId} {action : Action}

theorem owner_born (holds : Bounded frames kernel) {owner : TaskId} {Value : Type}
    {field : Frame → Option Value} {value : Value} (found : field (frames owner) = some value)
    (quiet : field .user = none) : owner < kernel.tasks.next := by
  by_contra unborn
  rw [holds.unborn owner (Nat.le_of_not_lt unborn), quiet] at found
  cases found

theorem bounded_held (holds : Bounded frames kernel)
    (bounded : ∀ owner holder caps, pendingGrant (frames owner) = some (holder, caps) →
      caps.Within (heldBy (act kernel hart action) holder))
    (bare : ∀ owner tid, ungranted (frames owner) = some tid →
      (heldBy (act kernel hart action) tid).Within (heldBy kernel tid)) :
    Bounded frames (act kernel hart action) where
  bounded := bounded
  bare owner tid creates := by
    obtain ⟨bound, nothing⟩ := holds.bare owner tid creates
    exact ⟨Nat.lt_of_lt_of_le bound (act_next action),
      within_trans (bare owner tid creates) nothing⟩
  distinct := holds.distinct
  owned := holds.owned
  unborn id bound := holds.unborn id (Nat.le_trans (act_next action) bound)

theorem bounded_act (holds : Bounded frames kernel) (spared : GrantSpared frames kernel hart action)
    (noGrant : ∀ tid caps, action ≠ .edit tid (.grant caps)) :
    Bounded frames (act kernel hart action) := by
  refine bounded_held holds ?_ (fun _ tid _ => act_held_within (noGrant tid))
  intro owner holder caps grants
  have born := owner_born holds grants rfl
  have before := holds.bounded owner holder caps grants
  rcases act_held kernel hart holder action with
    same | ⟨mask, held, rfl, alive, revoked⟩ | ⟨given, rfl, -⟩ | ⟨-, reason, code, cause, rfl⟩
  · rw [same]
    exact before
  · have spares := of_decide_eq_true spared owner born
    rw [grants] at spares
    rw [revoked]
    rw [held_of_get alive] at before
    exact within_revoked before (by simpa using spares)
  · exact absurd rfl (noGrant holder given)
  · have spares := of_decide_eq_true spared owner born
    rw [grants] at spares
    exact within_empty (by simpa using spares)

theorem held_or_granted (kernel : Kernel) (hart : HartId) (id tid : TaskId) (caps : CapSet) :
    heldBy (act kernel hart (.edit tid (.grant caps))) id = heldBy kernel id ∨ id = tid := by
  rcases act_held kernel hart id (.edit tid (.grant caps)) with
    same | ⟨_, _, revokes, -⟩ | ⟨_, grantee, -⟩ | ⟨-, _, _, _, exits⟩
  · exact Or.inl same
  · cases revokes
  · cases grantee
    exact Or.inr rfl
  · cases exits

theorem bounded_grant {tid : TaskId} {caps : CapSet} (holds : Bounded frames kernel)
    (nothing : (heldBy kernel tid).Within empty)
    (only : ∀ owner, ungranted (frames owner) ≠ some tid) :
    Bounded frames (act kernel hart (.edit tid (.grant caps))) := by
  apply bounded_held holds
  · intro owner holder given grants
    have before := holds.bounded owner holder given grants
    rcases held_or_granted kernel hart holder tid caps with same | rfl
    · rw [same]
      exact before
    · exact within_empty (within_trans before nothing)
  · intro owner other creates
    rcases held_or_granted kernel hart other tid caps with same | rfl
    · rw [same]
      exact within_refl _
    · exact absurd creates (only owner)

end Actions

/-- What the next frame of `owner` must satisfy for the invariant to continue. -/
structure FrameBounded (frames : TaskId → Frame) (kernel : Kernel) (owner : TaskId)
    (frame : Frame) : Prop where
  bounded : ∀ holder caps, pendingGrant frame = some (holder, caps) →
    caps.Within (heldBy kernel holder)
  bare : ∀ tid, ungranted frame = some tid →
    tid < kernel.tasks.next ∧ (heldBy kernel tid).Within empty ∧
      ∀ other, other ≠ owner → ungranted (frames other) ≠ some tid
  owned : ∀ job, jobOf frame = some job → JobOwned owner job

variable {kernel : Kernel}

theorem bounded_update {frames : TaskId → Frame} {owner : TaskId} {frame : Frame}
    (holds : Bounded frames kernel) (born : owner < kernel.tasks.next)
    (fits : FrameBounded frames kernel owner frame) :
    Bounded (update frames owner frame) kernel where
  bounded other holder caps grants := by
    by_cases same : other = owner
    · subst same
      rw [update_self] at grants
      exact fits.bounded holder caps grants
    · rw [update_of_ne same] at grants
      exact holds.bounded other holder caps grants
  bare other tid creates := by
    by_cases same : other = owner
    · subst same
      rw [update_self] at creates
      obtain ⟨bound, empty, -⟩ := fits.bare tid creates
      exact ⟨bound, empty⟩
    · rw [update_of_ne same] at creates
      exact holds.bare other tid creates
  distinct first second tid firstCreates secondCreates := by
    by_cases firstOwner : first = owner
    · subst firstOwner
      by_cases secondOwner : second = first
      · exact secondOwner.symm
      · rw [update_self] at firstCreates
        rw [update_of_ne secondOwner] at secondCreates
        exact absurd secondCreates ((fits.bare tid firstCreates).2.2 second secondOwner)
    · by_cases secondOwner : second = owner
      · subst secondOwner
        rw [update_self] at secondCreates
        rw [update_of_ne firstOwner] at firstCreates
        exact absurd firstCreates ((fits.bare tid secondCreates).2.2 first firstOwner)
      · rw [update_of_ne firstOwner] at firstCreates
        rw [update_of_ne secondOwner] at secondCreates
        exact holds.distinct first second tid firstCreates secondCreates
  owned other job runs := by
    by_cases same : other = owner
    · subst same
      rw [update_self] at runs
      exact fits.owned job runs
    · rw [update_of_ne same] at runs
      exact holds.owned other job runs
  unborn id bound := by
    rw [update_of_ne (Nat.ne_of_gt (Nat.lt_of_lt_of_le born bound))]
    exact holds.unborn id bound

theorem bounded_dropped {frames fewer : TaskId → Frame} (holds : Bounded frames kernel)
    (dropped : ∀ id, fewer id = frames id ∨ fewer id = .user) : Bounded fewer kernel := by
  have kept : ∀ {Value : Type} {field : Frame → Option Value} {value : Value} {id : TaskId},
      field (fewer id) = some value → field .user = none → field (frames id) = some value := by
    intro Value field value id found quiet
    rcases dropped id with same | gone
    · rwa [← same]
    · rw [gone, quiet] at found
      cases found
  constructor
  · exact fun owner holder caps grants => holds.bounded owner holder caps (kept grants rfl)
  · exact fun owner tid creates => holds.bare owner tid (kept creates rfl)
  · exact fun first second tid left right =>
      holds.distinct first second tid (kept left rfl) (kept right rfl)
  · exact fun owner job runs => holds.owned owner job (kept runs rfl)
  · intro id bound
    rcases dropped id with same | gone
    · rw [same]
      exact holds.unborn id bound
    · exact gone

section Frames

variable {kernel : Kernel} {caller : TaskId} {frame next : Frame}

theorem follows_owned (follows : Follows kernel caller frame next)
    (owned : ∀ job, jobOf frame = some job → JobOwned caller job) :
    ∀ job, jobOf next = some job → JobOwned caller job := by
  intro job runs
  cases follows with
  | entered _ _ enters =>
    cases enters with
    | spawnFromPath =>
      cases runs
      exact rfl
    | spawnPinned =>
      cases runs
      exact rfl
    | _ => cases runs
  | swapLoaded =>
    cases runs
    exact rfl
  | vanished job tid | unrelocatable job tid =>
    unfold afterFailure at runs
    split at runs <;> cases runs
  | granted =>
    unfold afterGrant at runs
    split at runs <;> cases runs
  | created other | found other tid | relocated other tid | restricted other tid
  | bounded => exact owned job runs
  | _ => cases runs

theorem follows_ungranted (follows : Follows kernel caller frame next) {tid : TaskId}
    (creates : ungranted next = some tid) :
    ungranted frame = some tid ∨ ∃ job, frame = .spawnCreate job ∧ tid = kernel.tasks.next := by
  cases follows with
  | entered _ _ enters => cases enters <;> cases creates
  | vanished job tid | unrelocatable job tid =>
    unfold afterFailure at creates
    split at creates <;> cases creates
  | granted =>
    unfold afterGrant at creates
    split at creates <;> cases creates
  | created job => exact Or.inr ⟨job, rfl, (Option.some.inj creates).symm⟩
  | found job tid | relocated job tid | restricted job tid | bounded job tid => exact Or.inl creates
  | _ => cases creates

inductive PendingOrigin (kernel : Kernel) (frame : Frame) (holder : TaskId) (caps : CapSet) : Prop
  | kept (wider : CapSet) (before : pendingGrant frame = some (holder, wider))
      (within : caps.Within wider)
  | read (job : SpawnJob) (tid : TaskId) (reads : frame = .spawnCeiling job tid)
      (within : caps.Within (heldBy kernel holder))
  | found (cellId : CellId) (path : String) (image : Image) (ceiling : CapSet)
      (finds : frame = .swapFind cellId path (some image) ceiling)
      (named : findTidForCell kernel.tasks cellId = some holder)
      (same : caps = image.requested.intersect ceiling)

variable {holder : TaskId} {caps : CapSet}

theorem pending_of_same (grants : pendingGrant next = some (holder, caps))
    (same : pendingGrant next = pendingGrant frame) : PendingOrigin kernel frame holder caps :=
  .kept caps (same.symm.trans grants) (within_refl caps)

theorem ceiling_pending {job : SpawnJob} {tid : TaskId} (owned : JobOwned caller job)
    (grants : pendingGrant (.spawnGrant job tid (grantFor kernel job)) = some (holder, caps)) :
    PendingOrigin kernel (.spawnCeiling job tid) holder caps := by
  obtain ⟨spawner, _, _, after⟩ := job
  cases spawner with
  | root => cases after <;> exact owned.elim
  | user =>
    cases grants
    exact .read _ _ rfl (within_trans (apply_policy_within _ _ _)
      (intersect_within_right _ _))
  | ceiling ceiling =>
    cases after with
    | restore swap =>
      have same : ceiling = swap.ceiling := owned
      subst same
      cases grants
      exact .kept _ rfl (apply_policy_within _ _ _)
    | returnTid => exact owned.elim
    | setPriority => exact owned.elim

theorem follows_pending (follows : Follows kernel caller frame next)
    (owned : ∀ job, jobOf frame = some job → JobOwned caller job)
    (grants : pendingGrant next = some (holder, caps)) :
    PendingOrigin kernel frame holder caps := by
  cases follows with
  | entered _ _ enters => cases enters <;> cases grants
  | vanished job tid | unrelocatable job tid =>
    unfold afterFailure at grants
    split at grants <;> cases grants
  | granted =>
    unfold afterGrant at grants
    split at grants <;> cases grants
  | bounded job => exact ceiling_pending (owned job rfl) grants
  | swapFound cellId path load ceiling _ named =>
    cases load with
    | none => cases grants
    | some image =>
      cases grants
      exact .found cellId path image ceiling rfl named rfl
  | swapLoaded _ _ loads =>
    apply pending_of_same grants
    simp only [pendingGrant, jobPending, loads, Option.map_some]
  | switched resume =>
    apply pending_of_same grants
    cases resume <;> rfl
  | created job | found job tid | relocated job tid | restricted job tid
  | stashPolled swap deadline | swapListed swap | swapCleared swap | swapSignalled swap deadline
  | swapStashed swap deadline | swapAwaitsStash swap deadline | swapFrozen swap =>
    exact pending_of_same grants rfl
  | _ => cases grants

end Frames

/-- A hot-swap about to look for the task it replaces finds one that still holds
what was read as its ceiling. -/
def ceilingHeld (kernel : Kernel) : Frame → Bool
  | .swapFind cellId _ load ceiling =>
    (findTidForCell kernel.tasks cellId).all (fun oldTid =>
      load.all (fun image =>
        (image.requested.intersect ceiling).Within (heldBy kernel oldTid)))
  | _ => true

def swapSafe (system : System) : Event → Bool
  | .proceed hart => ceilingHeld system.kernel (system.frames (system.kernel.current hart))
  | _ => true

def GrantSafe (system : System) (event : Event) : Prop :=
  StepMeets (GrantSpared (handlers system event)) system event ∧ swapSafe system event = true

instance (system : System) (event : Event) : Decidable (GrantSafe system event) :=
  inferInstanceAs (Decidable (_ ∧ _))

theorem entry_grants_nothing (kernel : Kernel) (caller tid : TaskId) (caps : CapSet)
    (call : Syscall) : entryAction kernel caller call ≠ .edit tid (.grant caps) := by
  cases call <;> simp only [entryAction] <;> (repeat' split) <;> simp

variable {tid : TaskId} {caps : CapSet}

theorem frame_grants {caller : TaskId} {frame : Frame}
    (grants : frameAction kernel caller frame = .edit tid (.grant caps)) :
    ∃ job, frame = .spawnGrant job tid caps := by
  cases frame with
  | dispatch call => exact absurd grants (entry_grants_nothing kernel caller tid caps call)
  | suspended resume =>
    cases resume <;> simp only [frameAction] at grants <;> (try split at grants) <;> cases grants
  | recvMessages mask ptr len | memWire other | spawnWire job other | spawnRelocate job other =>
    simp only [frameAction] at grants
    split at grants <;> cases grants
  | spawnGrant job =>
    cases grants
    exact ⟨job, rfl⟩
  | _ => cases grants

theorem background_grants_nothing {action : Action} (background : Background kernel action) :
    action ≠ .edit tid (.grant caps) := by
  cases background with
  | housekeeping _ keeps => cases keeps <;> simp
  | _ => simp

theorem grant_source {system : System} {event : Event}
    (mem : .edit tid (.grant caps) ∈ (actionsOf system event).2) :
    ∃ hart job, event = .proceed hart ∧
      system.frames (system.kernel.current hart) = .spawnGrant job tid caps := by
  rcases action_source mem with ⟨hart, rfl, grants⟩ | background
  · obtain ⟨job, frame⟩ := frame_grants grants.symm
    exact ⟨hart, job, rfl, frame⟩
  · exact absurd rfl (background_grants_nothing background)

section Steps

variable {before after : System} {event : Event}

/-- Everything an event can do before dead handlers are dropped. -/
inductive OnwardShape (before : System) : Event → System → Prop
  | enters (hart : HartId) (call : Syscall)
      (born : before.kernel.current hart < before.kernel.tasks.next) :
      OnwardShape before (.syscall hart call) (enter before (before.kernel.current hart)
        (resetWatchdog before.kernel (before.kernel.current hart), .dispatch call))
  | proceeds (hart : HartId) (born : before.kernel.current hart < before.kernel.tasks.next)
      (inside : before.frames (before.kernel.current hart) ≠ .user) :
      OnwardShape before (.proceed hart) (enter before (before.kernel.current hart)
        (advance before.kernel hart (before.kernel.current hart)
          (before.frames (before.kernel.current hart))))
  | elsewhere (event : Event) (kernel : Kernel) (other : ∀ hart, event ≠ .proceed hart) :
      OnwardShape before event ⟨kernel, handlers before event⟩

theorem on_hart_spec {hart : HartId} {tid : TaskId} (found : onHart before hart = some tid) :
    before.kernel.current hart = tid ∧ tid < before.kernel.tasks.next := by
  simp only [onHart] at found
  split at found
  · next born =>
    cases found
    exact ⟨rfl, born.2⟩
  · cases found

theorem onward_shape (ran : onward before event = some after) :
    ∃ middle, after = dropReaped middle ∧ OnwardShape before event middle ∧
      SameCore (actAll before.kernel (actionsOf before event).1 (actionsOf before event).2)
        middle.kernel := by
  cases event with
  | syscall hart call =>
    obtain ⟨tid, found, entered⟩ := Option.bind_eq_some_iff.mp ran
    obtain ⟨rfl, born⟩ := on_hart_spec found
    split at entered
    · cases entered
      exact ⟨_, rfl, .enters hart call born, ⟨rfl, rfl, rfl, rfl, rfl⟩⟩
    · cases entered
  | proceed hart =>
    obtain ⟨tid, found, proceeded⟩ := Option.bind_eq_some_iff.mp ran
    obtain ⟨rfl, born⟩ := on_hart_spec found
    split at proceeded
    · cases proceeded
    · next inside =>
      cases proceeded
      exact ⟨_, rfl, .proceeds hart born inside, advance_acts before.kernel hart _ _⟩
  | fault hart =>
    obtain ⟨tid, found, rfl⟩ := Option.map_eq_some_iff.mp ran
    obtain ⟨rfl, -⟩ := on_hart_spec found
    exact ⟨_, rfl, .elsewhere _ _ (by simp), modify_id_core before.kernel hart _ usizeMax⟩
  | signalNetRx | rtHartOnline =>
    cases ran
    exact ⟨_, rfl, .elsewhere _ _ (by simp), ⟨rfl, rfl, rfl, rfl, rfl⟩⟩
  | timer hart | idle hart | driverSend hart target bytes =>
    obtain ⟨middle, stepped, rfl⟩ := Option.map_eq_some_iff.mp ran
    refine ⟨middle, rfl, ?_, step_acts stepped⟩
    cases step_shape stepped
    exact .elsewhere _ _ (by simp)

theorem bounded_core {frames : TaskId → Frame} {left right : Kernel}
    (holds : Bounded frames left) (core : SameCore left right) : Bounded frames right := by
  have held : ∀ id, heldBy right id = heldBy left id := fun _ => held_tasks core.tasks
  constructor
  · simpa only [held] using holds.bounded
  · simpa only [core.tasks, held] using holds.bare
  · exact holds.distinct
  · exact holds.owned
  · simpa only [core.tasks] using holds.unborn

theorem bounded_acts {kernel : Kernel} (holds : Bounded (handlers before event) before.kernel)
    (safe : GrantSafe before event)
    (core : SameCore (actAll before.kernel (actionsOf before event).1 (actionsOf before event).2)
      kernel)
    (noGrant : ∀ hart job tid caps, event = .proceed hart →
      before.frames (before.kernel.current hart) ≠ .spawnGrant job tid caps) :
    Bounded (handlers before event) kernel := by
  have plain : ActsMeet (fun _ _ action => ∀ tid caps, action ≠ .edit tid (.grant caps))
      before.kernel (actionsOf before event).1 (actionsOf before event).2 := by
    apply acts_meet_always
    rintro action mem - tid caps rfl
    obtain ⟨hart, job, proceeds, frame⟩ := grant_source mem
    exact noGrant hart job tid caps proceeds frame
  refine bounded_core ?_ core
  exact act_all_invariant (fun _ _ held met => bounded_act held met.1 met.2) _ holds
    (acts_meet_and _ safe.1 plain)

theorem pending_bounded {hart : HartId} {kernel : Kernel} {owner : TaskId}
    (holds : Bounded before.frames before.kernel)
    (safe : swapSafe before (.proceed hart) = true) (later : Bounded before.frames kernel)
    (core : SameCore (actAll before.kernel hart (frameActions before.kernel hart owner
      (before.frames owner))) kernel) (runs : before.kernel.current hart = owner)
    (inside : before.frames owner ≠ .user) :
    FrameBounded before.frames kernel owner
      (advance before.kernel hart owner (before.frames owner)).2 := by
  have follows := advance_follows before.kernel hart owner inside
  constructor
  · intro holder caps grants
    cases follows_pending follows (holds.owned owner) grants with
    | kept wider pending within =>
      exact within_trans within (later.bounded owner holder wider pending)
    | read _ _ reads within =>
      rw [reads] at core
      rw [@held_tasks kernel holder before.kernel core.tasks]
      exact within
    | found _ _ _ _ finds named same =>
      simp only [swapSafe, ceilingHeld, runs, finds, named] at safe
      rw [finds] at core
      rw [@held_tasks kernel holder before.kernel core.tasks, same]
      simpa using safe
  · intro tid creates
    rcases follows_ungranted follows creates with older | ⟨job, frame, rfl⟩
    · obtain ⟨bound, nothing⟩ := later.bare owner tid older
      refine ⟨bound, nothing, ?_⟩
      intro other differs again
      exact differs (later.distinct other owner tid again older)
    · rw [frame] at core
      have created : kernel.tasks = before.kernel.tasks.alloc (Task.new 0) := core.tasks
      refine ⟨?_, ?_, ?_⟩
      · rw [created]
        exact Nat.lt_succ_self _
      · have fresh : heldBy kernel before.kernel.tasks.next = CapSet.empty := by
          simp only [heldBy, created, get_alloc]
          rfl
        rw [fresh]
        exact within_refl _
      · intro other differs again
        exact Nat.lt_irrefl _ (holds.bare other _ again).1
  · exact follows_owned follows (holds.owned owner)

theorem frame_bounded_quiet (frames : TaskId → Frame) (kernel : Kernel) (owner : TaskId)
    {frame : Frame} (pending : pendingGrant frame = none) (creates : ungranted frame = none)
    (runs : jobOf frame = none) : FrameBounded frames kernel owner frame := by
  constructor
  · rw [pending]
    simp
  · rw [creates]
    simp
  · rw [runs]
    simp

theorem after_grant_bounded (frames : TaskId → Frame) (kernel : Kernel) (owner : TaskId)
    (job : SpawnJob) (tid : TaskId) : FrameBounded frames kernel owner (afterGrant job tid) := by
  unfold afterGrant
  split <;> exact frame_bounded_quiet frames kernel owner rfl rfl rfl

variable {job : SpawnJob} {owner : TaskId}

theorem bounded_grants {hart : HartId} {tid : TaskId} {caps : CapSet}
    (holds : Bounded before.frames before.kernel) (born : owner < before.kernel.tasks.next)
    (core : SameCore (actAll before.kernel hart (frameActions before.kernel hart owner
      (before.frames owner))) (advance before.kernel hart owner (before.frames owner)).1)
    (frame : before.frames owner = .spawnGrant job tid caps) :
    Bounded (update before.frames owner (advance before.kernel hart owner (before.frames owner)).2)
      (advance before.kernel hart owner (before.frames owner)).1 := by
  have creates : ungranted (before.frames owner) = some tid := by rw [frame]; rfl
  obtain ⟨-, nothing⟩ := holds.bare owner tid creates
  have finished : ungranted (afterGrant job tid) = none := by
    unfold afterGrant
    split <;> rfl
  have emptied : Bounded (update before.frames owner (afterGrant job tid)) before.kernel :=
    bounded_update holds born (after_grant_bounded before.frames before.kernel owner job tid)
  have given : Bounded (update before.frames owner (afterGrant job tid))
      (act before.kernel hart (.edit tid (.grant caps))) := by
    apply bounded_grant emptied nothing
    intro other again
    by_cases same : other = owner
    · rw [same, update_self, finished] at again
      cases again
    · rw [update_of_ne same] at again
      exact same (holds.distinct other owner tid again creates)
  rw [frame] at core ⊢
  exact bounded_core given core

theorem bounded_step (holds : Bounded before.frames before.kernel)
    (safe : GrantSafe before event) (ran : onward before event = some after) :
    Bounded after.frames after.kernel := by
  obtain ⟨middle, rfl, shape, core⟩ := onward_shape ran
  have grows : before.kernel.tasks.next ≤ middle.kernel.tasks.next := by
    rw [core.tasks]
    exact act_all_next _ _ _
  suffices reached : Bounded middle.frames middle.kernel by
    refine bounded_dropped reached ?_
    intro id
    simp only [dropReaped]
    split
    · exact Or.inl rfl
    · exact Or.inr rfl
  cases shape with
  | enters hart call born =>
    have later := @bounded_acts before (.syscall hart call) _ holds safe core (by simp)
    exact bounded_update later (Nat.lt_of_lt_of_le born grows)
      (frame_bounded_quiet _ _ _ rfl rfl rfl)
  | proceeds hart born inside =>
    by_cases grants : ∃ job tid caps,
        before.frames (before.kernel.current hart) = .spawnGrant job tid caps
    · obtain ⟨job, tid, caps, frame⟩ := grants
      exact bounded_grants holds born core frame
    · have later := @bounded_acts before (.proceed hart) _ holds safe core (by
        intro other job tid caps proceeds frame
        cases proceeds
        exact grants ⟨job, tid, caps, frame⟩)
      exact bounded_update later (Nat.lt_of_lt_of_le born grows)
        (pending_bounded holds safe.2 later core rfl inside)
  | elsewhere _ _ other =>
    have remaining : Bounded (handlers before event) before.kernel := by
      refine bounded_dropped holds ?_
      intro id
      cases event with
      | fault hart =>
        by_cases faulted : id = before.kernel.current hart
        · exact Or.inr (faulted ▸ update_self _ _ _)
        · exact Or.inl (update_of_ne faulted _ _)
      | _ => exact Or.inl rfl
    exact bounded_acts remaining safe core
      (fun hart _ _ _ proceeds => absurd proceeds (other hart))

theorem bounded_initial : Bounded initial.frames initial.kernel where
  bounded _ _ _ grants := by cases grants
  bare _ _ creates := by cases creates
  distinct _ _ _ creates := by cases creates
  owned _ _ runs := by cases runs
  unborn _ _ := rfl

theorem bounded_reached {system : System} (reached : Reaches onward GrantSafe initial system) :
    Bounded system.frames system.kernel :=
  reached.invariant (fun _ _ _ => bounded_step) bounded_initial

/-- The step is the last section of a spawn for task `id`, and `holder` is the
spawning task, or the task being replaced. -/
def GivenBy (system : System) (event : Event) (id holder : TaskId) : Prop :=
  ∃ hart owner job granted, event = .proceed hart ∧ onHart system hart = some owner ∧
    system.frames owner = .spawnGrant job id granted ∧ JobOwned owner job ∧
    grantor job = some holder

theorem owned_grantor (owned : JobOwned owner job) : ∃ holder, grantor job = some holder := by
  obtain ⟨spawner, _, _, after⟩ := job
  cases spawner with
  | root => cases after <;> exact owned.elim
  | user tid => exact ⟨tid, rfl⟩
  | ceiling =>
    cases after with
    | restore swap => exact ⟨swap.oldTid, rfl⟩
    | returnTid => exact owned.elim
    | setPriority => exact owned.elim

theorem granted_held {system : System} {tid : TaskId} {caps : CapSet}
    (holds : Bounded system.frames system.kernel)
    (frame : system.frames owner = .spawnGrant job tid caps) :
    ∃ holder, JobOwned owner job ∧ grantor job = some holder ∧
      caps.Within (heldBy system.kernel holder) := by
  have owned : JobOwned owner job := holds.owned owner job (by rw [frame]; rfl)
  obtain ⟨holder, named⟩ := owned_grantor owned
  have pending : pendingGrant (system.frames owner) = some (holder, caps) := by
    rw [frame, pendingGrant, named]
    rfl
  exact ⟨holder, owned, named, holds.bounded owner holder caps pending⟩

end Steps

/-- A capability that a task gains in a run of safe steps is held, when it is given,
by the spawning task or by the task being replaced. -/
theorem given_capabilities_held {system after : System} {event : Event}
    (reached : Reaches onward GrantSafe initial system)
    (stepped : onward system event = some after) (id : TaskId) :
    (heldBy after.kernel id).Within (heldBy system.kernel id) ∨
      ∃ holder, GivenBy system event id holder ∧
        (heldBy after.kernel id).Within (heldBy system.kernel holder) := by
  obtain ⟨middle, rfl, shape, core⟩ := onward_shape stepped
  have held : heldBy (dropReaped middle).kernel id =
      heldBy (actAll system.kernel (actionsOf system event).1 (actionsOf system event).2) id :=
    held_tasks core.tasks
  rw [held]
  by_cases grants : ∃ caps, .edit id (.grant caps) ∈ (actionsOf system event).2
  · obtain ⟨caps, member⟩ := grants
    obtain ⟨hart, job, rfl, frame⟩ := grant_source member
    obtain ⟨owner, found, -⟩ := Option.bind_eq_some_iff.mp stepped
    obtain ⟨rfl, -⟩ := on_hart_spec found
    obtain ⟨holder, owned, named, bounded⟩ := granted_held (bounded_reached reached) frame
    simp only [actionsOf, frame]
    rcases act_held system.kernel hart id (.edit id (.grant caps)) with
      same | ⟨mask, old, revokes, -⟩ | ⟨given, grants, result⟩ | ⟨-, reason, code, cause, exits⟩
    · exact Or.inl (same ▸ within_refl _)
    · cases revokes
    · cases grants
      right
      refine ⟨holder, ⟨hart, _, job, caps, rfl, found, frame, owned, named⟩, ?_⟩
      exact result.symm ▸ bounded
    · cases exits
  · left
    apply acts_held_within
    rintro action member caps rfl
    exact grants ⟨caps, member⟩

def launcher : Image :=
  ⟨{ CapSet.empty with spawn := true }, BitVec.allOnes 64, true⟩

/-- `init` starts a launcher, which has loaded a child of its own and read the
ceiling for it. -/
def launchChild : List Event :=
  [.idle 0] ++ callFor 0 (.spawnFromPath "/bin/launcher" (some launcher)) 7 ++ [.idle 1] ++
    callFor 1 (.spawnFromPath "/bin/child" (some launcher)) 6

def launching : System :=
  finalState onward initial launchChild

theorem launched_child_capabilities_held : ∃ holder, GivenBy launching (.proceed 1) 3 holder ∧
      (heldBy (finalState onward launching [.proceed 1]).kernel 3).Within
        (heldBy launching.kernel holder) := by
  have reached : Reaches onward GrantSafe initial launching :=
    reaches_final (by decide +kernel) (by decide +kernel)
  have stepped : onward launching (.proceed 1) = some (finalState onward launching [.proceed 1]) :=
    step_final (by decide +kernel)
  rcases given_capabilities_held reached stepped 3 with unchanged | given
  · exact absurd unchanged (by decide +kernel)
  · exact given

/-- Neither a revocation nor the spawner's death between the two sections reaches the
child: its spawner, still in the loader, holds nothing when it gives the capability. -/
theorem revoked_capability_reappears :
    [Syscall.capRevoke 2 0b100, .forceExit 2].map (fun call =>
      (runEvents onward initial (launchChild ++ callFor 0 call 1)).map (fun system =>
        (onHart system 1, heldBy system.kernel 2,
          heldBy (finalState onward system [.proceed 1]).kernel 3))) =
      [some (some 2, CapSet.empty, launcher.requested),
        some (some 2, CapSet.empty, launcher.requested)] := by
  decide +kernel

end ViCell.Invariant.SpawnGrants
