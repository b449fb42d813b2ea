import ViCell.Core.Tcb

/-!
# Capability sets and operator policy

`task/cap.rs` and the decision part of `policy.rs`, in the default build (neither
`policy-required` nor `maintenance-mode`).  `CapSet` is the plain-data snapshot of
a task's capability fields; `Within` is the order in which a grant may only go
down.
-/

namespace ViCell.Core.Cap

open Core.Tcb

structure CapSet where
  blockIo : Bool
  network : Bool
  spawn : Bool
  hypervisor : Bool
  mmioDevices : BitVec 8
  blockRegions : BitVec 8
  deriving DecidableEq, Repr

namespace CapSet

def empty : CapSet := ⟨false, false, false, false, 0, 0⟩

/-- `CapSet::ALL`, given to `init` by the boot code. -/
def all : CapSet := ⟨true, true, true, true, 0b11, 0b111⟩

def ofTask (task : Task) : CapSet where
  blockIo := task.blockIoCap
  network := task.networkCap
  spawn := task.spawnCap
  hypervisor := task.hypervisorCap
  mmioDevices := task.mmioDevices
  blockRegions := task.blockRegions

def intersect (left right : CapSet) : CapSet where
  blockIo := left.blockIo && right.blockIo
  network := left.network && right.network
  spawn := left.spawn && right.spawn
  hypervisor := left.hypervisor && right.hypervisor
  mmioDevices := left.mmioDevices &&& right.mmioDevices
  blockRegions := left.blockRegions &&& right.blockRegions

def applyTo (granted : CapSet) (task : Task) : Task :=
  { task with
    blockIoCap := granted.blockIo
    networkCap := granted.network
    spawnCap := granted.spawn
    hypervisorCap := granted.hypervisor
    mmioDevices := granted.mmioDevices
    blockRegions := granted.blockRegions }

def Within (left right : CapSet) : Prop :=
  left.intersect right = left

instance (left right : CapSet) : Decidable (left.Within right) :=
  inferInstanceAs (Decidable (left.intersect right = left))

theorem intersect_assoc (left middle right : CapSet) :
    (left.intersect middle).intersect right = left.intersect (middle.intersect right) := by
  simp [intersect, Bool.and_assoc, BitVec.and_assoc]

theorem intersect_self (caps : CapSet) : caps.intersect caps = caps := by
  simp [intersect]

theorem intersect_comm (left right : CapSet) : left.intersect right = right.intersect left := by
  simp [intersect, Bool.and_comm, BitVec.and_comm]

theorem intersect_within_right (left right : CapSet) : (left.intersect right).Within right := by
  unfold Within
  rw [intersect_assoc, intersect_self]

theorem intersect_within_left (left right : CapSet) : (left.intersect right).Within left := by
  rw [intersect_comm]
  exact intersect_within_right right left

theorem within_refl (caps : CapSet) : caps.Within caps :=
  intersect_self caps

theorem within_trans {left middle right : CapSet} (first : left.Within middle)
    (second : middle.Within right) : left.Within right := by
  unfold Within at *
  rw [← first, intersect_assoc, second]

theorem empty_within (caps : CapSet) : empty.Within caps := by
  simp [Within, intersect, empty]

end CapSet

inductive Spawner
  | root
  | user (tid : TaskId)
  | ceiling (caps : CapSet)
  deriving DecidableEq, Repr

inductive PolicyDecision
  | permit (caps : CapSet)
  | denyAll
  | noEntry
  deriving DecidableEq, Repr

inductive PolicyState
  | loaded (entries : List (String × CapSet))
  | absent
  | invalid
  deriving DecidableEq, Repr

def lookupPolicy (policy : PolicyState) (path : String) : PolicyDecision :=
  match policy with
  | .loaded entries =>
    match entries.find? (fun entry => entry.1 = path) with
    | some entry => .permit entry.2
    | none => .noEntry
  | .invalid => .denyAll
  | .absent => .noEntry

def isTrustedCore (path : String) : Bool :=
  path = "/bin/vfs" || path = "/bin/shell" || path = "/bin/net"

def decisionToCaps (path : String) (caps : CapSet) : PolicyDecision → CapSet
  | .permit ceiling => caps.intersect ceiling
  | .denyAll => if isTrustedCore path then caps else CapSet.empty
  | .noEntry => caps

def applyPolicy (policy : PolicyState) (path : String) (caps : CapSet) : CapSet :=
  decisionToCaps path caps (lookupPolicy policy path)

theorem apply_policy_within (policy : PolicyState) (path : String) (caps : CapSet) :
    (applyPolicy policy path caps).Within caps := by
  unfold applyPolicy
  cases lookupPolicy policy path with
  | permit ceiling => exact CapSet.intersect_within_left caps ceiling
  | denyAll =>
    simp only [decisionToCaps]
    split
    · exact CapSet.within_refl caps
    · exact CapSet.empty_within caps
  | noEntry => exact CapSet.within_refl caps

/-- `api::syscall::cap_mask` bits cleared by `CapRevoke`. -/
def revoke (mask : BitVec 32) (task : Task) : Task :=
  { task with
    blockIoCap := task.blockIoCap && !mask.getLsbD 0
    networkCap := task.networkCap && !mask.getLsbD 1
    spawnCap := task.spawnCap && !mask.getLsbD 2
    hypervisorCap := task.hypervisorCap && !mask.getLsbD 3
    mmioDevices := task.mmioDevices &&& ~~~(mask.extractLsb' 8 8)
    blockRegions := task.blockRegions &&& ~~~(mask.extractLsb' 16 8) }

def Spares (mask : BitVec 32) (caps : CapSet) : Prop :=
  (caps.blockIo && mask.getLsbD 0) = false ∧ (caps.network && mask.getLsbD 1) = false ∧
    (caps.spawn && mask.getLsbD 2) = false ∧ (caps.hypervisor && mask.getLsbD 3) = false ∧
    caps.mmioDevices &&& mask.extractLsb' 8 8 = 0 ∧
    caps.blockRegions &&& mask.extractLsb' 16 8 = 0

instance (mask : BitVec 32) (caps : CapSet) : Decidable (Spares mask caps) :=
  inferInstanceAs (Decidable (_ ∧ _))

theorem and_revoked_bits {width : Nat} {bits held revoked : BitVec width}
    (within : bits &&& held = bits) (spares : bits &&& revoked = 0) :
    bits &&& (held &&& ~~~revoked) = bits := by
  have kept : bits &&& ~~~revoked = bits := by
    ext index bound
    have apart := congrArg (fun word => word.getLsbD index) spares
    simp only [BitVec.getLsbD_and] at apart
    cases set : bits.getLsbD index <;> simp_all
  rw [← BitVec.and_assoc, within, kept]

theorem and_revoked_flag {flag held revoked : Bool} (within : (flag && held) = flag)
    (spares : (flag && revoked) = false) : (flag && (held && !revoked)) = flag := by
  cases flag <;> simp_all

theorem within_revoked {caps : CapSet} {task : Task} {mask : BitVec 32}
    (held : caps.Within (CapSet.ofTask task)) (spares : Spares mask caps) :
    caps.Within (CapSet.ofTask (revoke mask task)) := by
  obtain ⟨_, _, _, _, _, _⟩ := caps
  obtain ⟨block, net, spawns, hyper, mmio, regions⟩ := spares
  simp only [CapSet.Within, CapSet.intersect, CapSet.mk.injEq] at held ⊢
  exact ⟨and_revoked_flag held.1 block, and_revoked_flag held.2.1 net,
    and_revoked_flag held.2.2.1 spawns, and_revoked_flag held.2.2.2.1 hyper,
    and_revoked_bits held.2.2.2.2.1 mmio, and_revoked_bits held.2.2.2.2.2 regions⟩

theorem revoked_within (mask : BitVec 32) (task : Task) :
    (CapSet.ofTask (revoke mask task)).Within (CapSet.ofTask task) := by
  have bits : ∀ held revoked : BitVec 8, held &&& ~~~revoked &&& held = held &&& ~~~revoked := by
    intro held revoked
    rw [BitVec.and_assoc, BitVec.and_comm (~~~revoked), ← BitVec.and_assoc, BitVec.and_self]
  have flags : ∀ held revoked : Bool, (held && !revoked && held) = (held && !revoked) := by
    decide
  simp only [CapSet.Within, CapSet.intersect, CapSet.ofTask, revoke, bits, flags]

end ViCell.Core.Cap
