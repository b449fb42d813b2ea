import Mathlib

/-!
# Partitions of the disk

The layout constants of `api/src/disk.rs` and the range gate of the raw block
syscalls. No region bit exists for the cell table and the snapshot: the kernel
keeps these two partitions to itself.
-/

namespace ViCell.Disk

structure Partition where
  base : Nat
  sectors : Nat
  deriving DecidableEq, Repr

def Partition.Spans (part : Partition) (sector finish : Nat) : Prop :=
  part.base ≤ sector ∧ finish ≤ part.base + part.sectors

instance (part : Partition) (sector finish : Nat) : Decidable (part.Spans sector finish) :=
  inferInstanceAs (Decidable (_ ∧ _))

def Partition.Contains (part : Partition) (sector : Nat) : Prop :=
  part.Spans sector (sector + 1)

instance (part : Partition) (sector : Nat) : Decidable (part.Contains sector) :=
  inferInstanceAs (Decidable (part.Spans sector (sector + 1)))

/-- The partition table at sector 0 and the gap up to the first partition. -/
def bootRecord : Partition := ⟨0, 2048⟩

def partFat32 : Partition := ⟨2048, 524288⟩

def partCelltbl : Partition := ⟨526336, 33664⟩

def partSnapshot : Partition := ⟨560000, 240000⟩

def partLfs : Partition := ⟨800000, 131072⟩

def partSrv : Partition := ⟨931072, 131072⟩

/-- Partitions that a region bit opens. -/
def grantable : List (BitVec 8 × Partition) :=
  [(0b001, partFat32), (0b010, partLfs), (0b100, partSrv)]

/-- The part of `check_block_access` after the caller's mask is read. -/
def checkRegions (regions : BitVec 8) (sector count : Nat) : Bool :=
  if sector + count < 2 ^ 64 then
    grantable.any (fun granted => decide (regions &&& granted.1 ≠ 0) &&
      decide (granted.2.Spans sector (sector + count)))
  else false

def KernelOwned (sector : Nat) : Prop :=
  bootRecord.Contains sector ∨ partCelltbl.Contains sector ∨ partSnapshot.Contains sector

theorem check_regions_iff (regions : BitVec 8) (sector : Nat) :
    checkRegions regions sector 1 = true ↔
      ∃ granted ∈ grantable, regions &&& granted.1 ≠ 0 ∧ granted.2.Contains sector := by
  unfold checkRegions Partition.Contains
  constructor
  · intro passed
    split at passed
    · obtain ⟨granted, mem, both⟩ := List.any_eq_true.mp passed
      rw [Bool.and_eq_true, decide_eq_true_eq, decide_eq_true_eq] at both
      exact ⟨granted, mem, both⟩
    · cases passed
  · rintro ⟨granted, mem, held, inside⟩
    have small : sector + 1 < 2 ^ 64 := by
      have bounded : ∀ other ∈ grantable, other.2.base + other.2.sectors < 2 ^ 64 := by
        decide
      have below := bounded granted mem
      have finish := inside.2
      omega
    rw [if_pos small]
    refine List.any_eq_true.mpr ⟨granted, mem, ?_⟩
    rw [Bool.and_eq_true, decide_eq_true_eq, decide_eq_true_eq]
    exact ⟨held, inside⟩

theorem grantable_not_kernel_owned {granted : BitVec 8 × Partition}
    (mem : granted ∈ grantable) {sector : Nat} (inside : granted.2.Contains sector) :
    ¬ KernelOwned sector := by
  unfold KernelOwned Partition.Contains Partition.Spans bootRecord partCelltbl partSnapshot
  dsimp only
  unfold grantable at mem
  simp only [List.mem_cons, List.not_mem_nil, or_false] at mem
  rcases mem with fat32 | lfs | srv
  · subst fat32
    have bounds : 2048 ≤ sector ∧ sector + 1 ≤ 2048 + 524288 := inside
    omega
  · subst lfs
    have bounds : 800000 ≤ sector ∧ sector + 1 ≤ 800000 + 131072 := inside
    omega
  · subst srv
    have bounds : 931072 ≤ sector ∧ sector + 1 ≤ 931072 + 131072 := inside
    omega

end ViCell.Disk
