import ViCell.Memory.Sv39
import ViCell.Memory.TableFrames

/-!
# What mapping and unmapping a page does

The kernel's page table is a forest of one tree whose tables lie in allocated
frames. `map` sets the entry of one page, or runs out of frames and sets none;
`unmap` clears one; `translate` reads one. Tables are added and never removed.
-/

namespace ViCell.Memory

open Lib Lib.RadixTable Function PageTableEntry BitVec

namespace PageTableEntry

theorem mask_to_nat (word : Word) : (word &&& ppnMask).toNat = word.toNat % 2 ^ 54 := by
  have mask : ppnMask.toNat = 2 ^ 54 - 1 := by decide
  rw [toNat_and, mask, Nat.and_two_pow_sub_one_eq_mod]

variable {addr : Nat} {flags : Word}

theorem set_to_nat (low : addr < 2 ^ 64) (small : flags.toNat < 2 ^ 10) :
    (set addr flags).toNat = addr / 2 ^ 12 * 2 ^ 10 + flags.toNat := by
  unfold set
  rw [toNat_or, toNat_shiftLeft, mask_to_nat, toNat_ushiftRight,
    toNat_ofNat, Nat.mod_eq_of_lt low, Nat.shiftRight_eq_div_pow]
  have inMask : addr / 2 ^ 12 % 2 ^ 54 = addr / 2 ^ 12 := Nat.mod_eq_of_lt (by omega)
  have fits : (addr / 2 ^ 12) <<< 10 < 2 ^ 64 := by
    omega
  rw [inMask, Nat.mod_eq_of_lt fits, ← Nat.shiftLeft_add_eq_or_of_lt small, Nat.shiftLeft_eq]

theorem to_phys_eq (entry : Word) :
    toPhys entry = entry.toNat / 2 ^ 10 % 2 ^ 54 * 2 ^ 12 % 2 ^ 64 := by
  unfold toPhys
  rw [toNat_shiftLeft, mask_to_nat, toNat_ushiftRight, Nat.shiftRight_eq_div_pow,
    Nat.shiftLeft_eq]

theorem to_phys_set (low : addr < 2 ^ 64) (aligned : pageSize ∣ addr)
    (small : flags.toNat < 2 ^ 10) : toPhys (set addr flags) = addr := by
  obtain ⟨_, split⟩ := aligned
  unfold pageSize at split
  rw [to_phys_eq, set_to_nat low small]
  omega

theorem set_flags {mask : Word} (low : addr < 2 ^ 64) (small : flags.toNat < 2 ^ 10)
    (maskSmall : mask.toNat < 2 ^ 10) : set addr flags &&& mask = flags &&& mask := by
  apply eq_of_toNat_eq
  rw [toNat_and, toNat_and, set_to_nat low small]
  have inner : ∀ value : Nat, value &&& mask.toNat = (value % 2 ^ 10) &&& mask.toNat := by
    intro value
    have bound := Nat.and_lt_two_pow value maskSmall
    have parts := Nat.and_mod_two_pow (a := value) (b := mask.toNat) (n := 10)
    rw [Nat.mod_eq_of_lt bound, Nat.mod_eq_of_lt maskSmall] at parts
    exact parts
  rw [inner, Nat.mul_add_mod_of_lt small]

theorem is_valid_set (low : addr < 2 ^ 64) (small : flags.toNat < 2 ^ 10) :
    isValid (set addr flags) = isValid flags := by
  unfold isValid
  rw [set_flags low small (by decide)]

theorem is_leaf_mask (entry : Word) : isLeaf entry = ((entry &&& 14) >>> 1 != 0) := by
  rw [ushiftRight_and_distrib]
  rfl

theorem is_leaf_set (low : addr < 2 ^ 64) (small : flags.toNat < 2 ^ 10) :
    isLeaf (set addr flags) = isLeaf flags := by
  rw [is_leaf_mask, is_leaf_mask, set_flags low small (by decide)]

end PageTableEntry

def sv39Format : Format Word where
  zero := 0
  child := fun entry =>
    if isValid entry && !isLeaf entry then
      some (toPhys entry)
    else none
  depth := 2
  entries := fun _ => 512
  zero_child := by decide

def kernelRoot (root : Nat) : Unit → Option Nat := fun _ => some root

def vpns (virt : Nat) : List Nat := [vpn 2 virt, vpn 1 virt]

/-- The last-level entry of a page; a missing table reads as zero. -/
def entryAt (root : Nat) (machine : Machine) (virt : Nat) : Word :=
  leafAt sv39Format machine.memory (kernelRoot root) () (vpns virt) (vpn 0 virt)

def tableOf (root : Nat) (machine : Machine) (virt : Nat) : Option Nat :=
  reach sv39Format machine.memory (kernelRoot root) () (vpns virt)

theorem vpn_lt (level virt : Nat) : vpn level virt < 512 := Nat.mod_lt _ (by decide)

theorem vpns_first (virt : Nat) : Fits sv39Format ([] ++ [vpn 2 virt]) :=
  fits_snoc.mpr ⟨fits_nil, (by decide : 0 < 2), vpn_lt 2 virt⟩

theorem vpns_fit (virt : Nat) : Fits sv39Format ([vpn 2 virt] ++ [vpn 1 virt]) :=
  fits_snoc.mpr ⟨vpns_first virt, (by decide : 1 < 2), vpn_lt 1 virt⟩

def SameVpns (left right : Nat) : Prop :=
  vpns left = vpns right ∧ vpn 0 left = vpn 0 right

theorem same_vpns_iff {left right : Nat} (leftLow : left < 2 ^ 39) (rightLow : right < 2 ^ 39) :
    SameVpns left right ↔ left / pageSize = right / pageSize := by
  unfold SameVpns vpns vpn pageSize
  simp only [List.cons.injEq, and_true]
  omega

/-- The kernel's tables lie in allocated frames of RAM that Sv39 can address. -/
structure Paged (root : Nat) (machine : Machine) : Prop where
  placed : machine.allocator.Placed
  low : machine.allocator.memoryEnd ≤ 2 ^ 38
  tables : TablesTaken sv39Format (kernelRoot root) machine.allocator machine.memory

/-- Frames are taken and tables added; nothing is given back or moved. -/
structure Advances (root : Nat) (before after : Machine) : Prop where
  region : before.allocator.SameRegion after.allocator
  keeps : ∀ idx, before.allocator.isFrameAllocated idx = true →
    after.allocator.isFrameAllocated idx = true
  kept : ∀ path table, Fits sv39Format path →
    reach sv39Format before.memory (kernelRoot root) () path = some table →
    reach sv39Format after.memory (kernelRoot root) () path = some table
  origin : ∀ path table, Fits sv39Format path →
    reach sv39Format after.memory (kernelRoot root) () path = some table →
    reach sv39Format before.memory (kernelRoot root) () path = some table ∨
      ∃ idx, before.allocator.isFrameAllocated idx = false ∧
        table = before.allocator.memoryStart + idx * pageSize

variable {root : Nat} {machine after : Machine}

theorem advances_refl (machine : Machine) : Advances root machine machine where
  region := ⟨rfl, rfl, rfl, rfl⟩
  keeps := fun _ taken => taken
  kept := fun _ _ _ found => found
  origin := fun _ _ _ found => .inl found

theorem advances_trans {first second third : Machine} (left : Advances root first second)
    (right : Advances root second third) : Advances root first third where
  region := left.region.trans right.region
  keeps := fun idx allocated => right.keeps idx (left.keeps idx allocated)
  kept := fun path table fits found => right.kept path table fits (left.kept path table fits found)
  origin := by
    intro path table fits found
    rcases right.origin path table fits found with earlier | ⟨idx, free, same⟩
    · exact left.origin path table fits earlier
    · rw [left.region.start] at same
      exact .inr ⟨idx, FrameAllocator.free_before left.keeps free, same⟩

theorem entry_same (leaves : SameLeaves sv39Format (kernelRoot root) machine.memory after.memory)
    (virt : Nat) : entryAt root after virt = entryAt root machine virt :=
  leaves () (vpns virt) (vpn 0 virt) (vpns_fit virt) rfl (vpn_lt 0 virt)

variable {place : Nat}

/-- The source links the frame first and zeroes it then; outside the frame's
own bytes the order does not matter. -/
theorem write_zero_link (machine : Machine) {page : Nat} (word : Word)
    (outside : place < page ∨ page + 8 * 512 ≤ place) :
    ((machine.write place word).zeroWords page 512).memory =
      link sv39Format machine.memory page 512 place word := by
  funext other
  unfold Machine.zeroWords Machine.write link
  by_cases here : other = place
  · subst here
    rw [update_self]
    simp only
    rw [if_neg (by omega), update_self]
  · rw [update_of_ne here]
    simp only
    rw [update_of_ne here]
    rfl

theorem table_pointer {frame : Nat} (low : frame < 2 ^ 64) (aligned : pageSize ∣ frame) :
    sv39Format.child (set frame 1) = some frame ∧ toPhys (set frame 1) = frame := by
  have small : (1 : Word).toNat < 2 ^ 10 := by decide
  have address := to_phys_set low aligned small
  have valid := is_valid_set low small
  have pointer := is_leaf_set low small
  refine ⟨?_, address⟩
  unfold sv39Format
  simp only
  rw [valid, pointer, address]
  rfl

/-- One step down the walk: the table is there, or a fresh one is linked, or no
frame is left for it. -/
structure Descends (root : Nat) (before after : Machine) (path : List Nat)
    (result : Option Nat) : Prop where
  paged : Paged root after
  advances : Advances root before after
  leaves : SameLeaves sv39Format (kernelRoot root) before.memory after.memory
  found : ∀ next, result = some next →
    reach sv39Format after.memory (kernelRoot root) () path = some next
  missing : result = none → reach sv39Format before.memory (kernelRoot root) () path = none
  quiet : (reach sv39Format before.memory (kernelRoot root) () path).isSome → after = before

theorem child_spec {path : List Nat} {index : Nat} {result : Option Nat}
    (paged : Paged root machine) (fits : Fits sv39Format (path ++ [index]))
    (here : reach sv39Format machine.memory (kernelRoot root) () path = some place)
    (run : PageTable.child machine place index = (after, result)) :
    Descends root machine after (path ++ [index]) result := by
  obtain ⟨pathFits, shallow, indexFits⟩ := fits_snoc.mp fits
  have ran : reach sv39Format machine.memory (kernelRoot root) () (path ++ [index]) =
      sv39Format.child (machine.memory (slot place index)) := by
    rw [reach_snoc, here]
    rfl
  unfold PageTable.child at run
  rcases paged.tables.forest.clean () path place index pathFits shallow here indexFits with
    zero | pointer
  · have empty : sv39Format.child (machine.memory (slot place index)) = none := by
      rw [zero]
      exact sv39Format.zero_child
    rw [empty] at ran
    have invalid : ¬ isValid (machine.memory (slot place index)) = true := by
      rw [zero]
      decide
    rw [if_neg invalid] at run
    have notThere : ¬ (reach sv39Format machine.memory (kernelRoot root) ()
        (path ++ [index])).isSome = true := by
      rw [ran]
      exact Bool.false_ne_true
    rcases taken : machine.allocator.allocateFrame with ⟨allocator, frame⟩
    rw [taken] at run
    rcases FrameAllocator.allocate_frame_spec paged.placed taken with
      ⟨idx, takes, handed⟩ | ⟨unchanged, failed, _⟩
    · have inside : idx < machine.allocator.totalFrames := by
        have room := takes.inside
        omega
      rw [paged.placed.frame_addr inside] at handed
      subst handed
      cases run
      have low : machine.allocator.memoryStart + idx * pageSize < 2 ^ 64 := by
        have extent := paged.placed.extent
        have addressable := paged.placed.addressable
        unfold pageSize at extent ⊢
        omega
      have aligned : pageSize ∣ machine.allocator.memoryStart + idx * pageSize :=
        Nat.dvd_add paged.placed.aligned (Nat.dvd_mul_left _ _)
      obtain ⟨pointer, address⟩ := table_pointer low aligned
      have oneFrame : 8 * sv39Format.entries (path.length + 1) = pageSize :=
        (by decide : 8 * 512 = pageSize)
      have fresh := paged.tables.fresh takes.free (fun _ => (by decide : 0 < 512)) Nat.one_pos
        (by rw [oneFrame, Nat.one_mul]) () path place pathFits here
      have inTable := slot_inside path place indexFits
      have linked := paged.tables.link takes (fun _ => (by decide : 0 < 512)) oneFrame fits here
        empty pointer rfl
      have memory := write_zero_link { machine with allocator := allocator }
        (set (machine.allocator.memoryStart + idx * pageSize) 1) (by
          have entries : sv39Format.entries (path.length + 1) = 512 := rfl
          omega : slot place index < machine.allocator.memoryStart + idx * pageSize ∨
            machine.allocator.memoryStart + idx * pageSize + 8 * 512 ≤ slot place index)
      refine ⟨⟨takes.placed paged.placed, takes.region.finish ▸ paged.low, ?_⟩,
        ⟨takes.region, takes_keeps takes, ?_, ?_⟩, ?_, ?_, fun none => (by cases none),
        fun there => absurd there notThere⟩
      · rw [memory]
        exact linked.tables
      · rw [memory]
        exact linked.kept ()
      · rw [memory]
        intro other table otherFits found
        rcases linked.origin () other table otherFits found with new | old
        · exact .inr ⟨idx, takes.free idx (Nat.le_refl _) (Nat.lt_succ_self _), new⟩
        · exact .inl old
      · rw [memory]
        exact linked.leaves
      · intro next same
        rw [address] at same
        cases same
        rw [memory]
        exact linked.found
    · subst unchanged failed
      cases run
      exact ⟨paged, advances_refl _, same_leaves_refl, fun _ none => (by cases none),
        fun _ => ran, fun _ => rfl⟩
  · have both : (isValid (machine.memory (slot place index)) &&
        !isLeaf (machine.memory (slot place index))) = true := by
      by_contra neither
      have none : sv39Format.child (machine.memory (slot place index)) = none := if_neg neither
      rw [none] at pointer
      cases pointer
    have child : sv39Format.child (machine.memory (slot place index)) =
        some (toPhys (machine.memory (slot place index))) := if_pos both
    rw [Bool.and_eq_true] at both
    rw [if_pos both.1] at run
    cases run
    refine ⟨paged, advances_refl _, same_leaves_refl, ?_, fun none => (by cases none), fun _ => rfl⟩
    intro next same
    cases same
    exact ran.trans child

structure SetsEntry (root : Nat) (before after : Machine) (virt : Nat) (entry : Word) : Prop where
  here : ∀ other, SameVpns other virt → entryAt root after other = entry
  elsewhere : ∀ other, ¬ SameVpns other virt → entryAt root after other = entryAt root before other

theorem reach_root_table (root : Nat) (memory : Nat → Word) :
    reach sv39Format memory (kernelRoot root) () [] = some root := rfl

theorem table_of_eq (root : Nat) (machine : Machine) (virt : Nat) :
    tableOf root machine virt =
      (reach sv39Format machine.memory (kernelRoot root) () ([] ++ [vpn 2 virt])).bind
        (fun table => sv39Format.child (machine.memory (slot table (vpn 1 virt)))) := by
  have snoc : reach sv39Format machine.memory (kernelRoot root) ()
      ([vpn 2 virt] ++ [vpn 1 virt]) = _ := reach_snoc _ _ _ _ _
  exact snoc

theorem write_entry {low : Nat} (virt : Nat) (entry : Word) (paged : Paged root machine)
    (here : tableOf root machine virt = some low) :
    let written := machine.write (slot low (vpn 0 virt)) entry
    Paged root written ∧ Advances root machine written ∧
      SetsEntry root machine written virt entry := by
  have place : LeafSlot sv39Format machine.memory (kernelRoot root) () (vpns virt) low
      (vpn 0 virt) :=
    ⟨paged.tables.forest, vpns_fit virt, rfl, here, vpn_lt 0 virt⟩
  refine ⟨⟨paged.placed, paged.low, paged.tables.write_leaf place entry⟩,
    ⟨⟨rfl, rfl, rfl, rfl⟩, fun _ taken => taken, ?_, ?_⟩, ?_, ?_⟩
  · intro path table fits found
    have same := reach_write_leaf place entry () fits
    exact same.trans found
  · intro path table fits found
    have same := reach_write_leaf place entry () fits
    exact .inl (same.symm.trans found)
  · intro other same
    have changed := leaf_write_leaf place entry () (vpns_fit other) (vpn_lt 0 other)
    rw [if_pos ⟨rfl, same.1, same.2⟩] at changed
    exact changed
  · intro other ne
    have changed := leaf_write_leaf place entry () (vpns_fit other) (vpn_lt 0 other)
    rw [if_neg (fun same => ne ⟨same.2.1, same.2.2⟩)] at changed
    exact changed

structure Mapped (root : Nat) (before after : Machine) (virt : Nat) (entry : Word) : Prop where
  paged : Paged root after
  advances : Advances root before after
  sets : SetsEntry root before after virt entry
  quiet : (tableOf root before virt).isSome → after.allocator = before.allocator

structure OutOfFrames (root : Nat) (before after : Machine) (virt : Nat) : Prop where
  missing : tableOf root before virt = none
  paged : Paged root after
  advances : Advances root before after
  entries : ∀ other, entryAt root after other = entryAt root before other

variable {virt : Nat}

theorem map_spec {phys : Nat} {flags : Word} {out : Except PageTableError Unit}
    (paged : Paged root machine)
    (run : PageTable.map root machine virt phys flags = (after, out)) :
    (out = .ok () ∧ Mapped root machine after virt (set phys (toRiscvFlags flags))) ∨
      (out = .error .outOfMemory ∧ OutOfFrames root machine after virt) := by
  unfold PageTable.map at run
  rcases first : PageTable.child machine root (vpn 2 virt) with ⟨upper, found⟩
  rw [first] at run
  have down := child_spec paged (vpns_first virt) (reach_root_table root machine.memory) first
  cases found with
  | none =>
    cases run
    refine .inr ⟨rfl, ?_, down.paged, down.advances, entry_same down.leaves⟩
    rw [table_of_eq, down.missing rfl]
    rfl
  | some middle =>
    simp only at run
    rcases second : PageTable.child upper middle (vpn 1 virt) with ⟨lower, found⟩
    rw [second] at run
    have deeper := child_spec down.paged (vpns_fit virt) (down.found middle rfl) second
    have advances := advances_trans down.advances deeper.advances
    have entries : ∀ other, entryAt root lower other = entryAt root machine other := by
      intro other
      rw [entry_same deeper.leaves, entry_same down.leaves]
    cases found with
    | none =>
      cases run
      refine .inr ⟨rfl, ?_, deeper.paged, advances, entries⟩
      by_contra there
      obtain ⟨table, has⟩ := Option.ne_none_iff_exists'.mp there
      have kept := down.advances.kept (vpns virt) table (vpns_fit virt) has
      have absent := deeper.missing rfl
      cases absent.symm.trans kept
    | some low =>
      cases run
      obtain ⟨pagedEnd, advancesEnd, sets⟩ := write_entry virt
        (set phys (toRiscvFlags flags)) deeper.paged (deeper.found low rfl)
      refine .inl ⟨rfl, pagedEnd, advances_trans advances advancesEnd, ⟨sets.here, ?_⟩, ?_⟩
      · intro other ne
        rw [sets.elsewhere other ne, entries]
      · intro there
        have upperThere : (reach sv39Format machine.memory (kernelRoot root) ()
            ([] ++ [vpn 2 virt])).isSome = true := by
          by_contra absent
          rw [Option.not_isSome_iff_eq_none] at absent
          rw [table_of_eq, absent] at there
          cases there
        have same := down.quiet upperThere
        subst same
        have sameLower := deeper.quiet there
        subst sameLower
        rfl

theorem map_advances {phys : Nat} {flags : Word} {out : Except PageTableError Unit}
    (paged : Paged root machine)
    (run : PageTable.map root machine virt phys flags = (after, out)) :
    Advances root machine after := by
  rcases map_spec paged run with ⟨_, mapped⟩ | ⟨_, failed⟩
  · exact mapped.advances
  · exact failed.advances

theorem child_none_iff (entry : Word) : sv39Format.child entry = none ↔
      (!isValid entry || isLeaf entry) = true := by
  unfold sv39Format
  simp only
  cases isValid entry <;> cases isLeaf entry <;> simp

theorem child_some {entry : Word} (pointer : ¬ (!isValid entry || isLeaf entry) = true) :
    sv39Format.child entry = some (toPhys entry) := by
  unfold sv39Format
  simp only
  revert pointer
  cases isValid entry <;> cases isLeaf entry <;> simp

theorem upper_table_eq (root : Nat) (machine : Machine) (virt : Nat) :
    reach sv39Format machine.memory (kernelRoot root) () ([] ++ [vpn 2 virt]) =
      sv39Format.child (machine.memory (slot root (vpn 2 virt))) := by
  rw [reach_snoc]
  rfl

theorem entry_of_missing (gone : tableOf root machine virt = none) :
    entryAt root machine virt = 0 := by
  unfold entryAt leafAt
  unfold tableOf at gone
  rw [gone]
  rfl

theorem entry_of_table {low : Nat} (found : tableOf root machine virt = some low) :
    entryAt root machine virt = machine.memory (slot low (vpn 0 virt)) := by
  unfold entryAt leafAt
  unfold tableOf at found
  rw [found]

theorem sets_missing (gone : tableOf root machine virt = none) :
    SetsEntry root machine machine virt 0 where
  here := by
    intro other same
    apply entry_of_missing
    unfold tableOf at gone ⊢
    rw [same.1]
    exact gone
  elsewhere := fun _ _ => rfl

theorem unmap_spec (virt : Nat) (paged : Paged root machine)
    (run : PageTable.unmap root machine virt = after) :
    Paged root after ∧ Advances root machine after ∧ SetsEntry root machine after virt 0 ∧
      after.allocator = machine.allocator := by
  unfold PageTable.unmap at run
  dsimp only at run
  split at run
  next upper =>
    subst run
    have gone : tableOf root machine virt = none := by
      rw [table_of_eq, upper_table_eq, (child_none_iff _).mpr upper]
      rfl
    exact ⟨paged, advances_refl _, sets_missing gone, rfl⟩
  next upper =>
    have middle := child_some upper
    split at run
    next lower =>
      subst run
      have gone : tableOf root machine virt = none := by
        rw [table_of_eq, upper_table_eq, middle]
        exact (child_none_iff _).mpr lower
      exact ⟨paged, advances_refl _, sets_missing gone, rfl⟩
    next lower =>
      subst run
      have found : tableOf root machine virt = some (toPhys (machine.memory
          (slot (toPhys (machine.memory (slot root (vpn 2 virt))))
            (vpn 1 virt)))) := by
        rw [table_of_eq, upper_table_eq, middle]
        exact child_some lower
      obtain ⟨pagedEnd, advances, sets⟩ := write_entry virt 0 paged found
      exact ⟨pagedEnd, advances, sets, rfl⟩

def translation (virt : Nat) (entry : Word) : Option Nat :=
  if isValid entry && isLeaf entry then
    some (toPhys entry ||| virt % pageSize)
  else none

section Levels

variable {memory : Nat → Word} {virt level table : Nat} {lower : List Nat}

theorem translate_zero (zero : memory (slot table (vpn level virt)) = 0) :
    PageTable.translateFrom memory virt (level :: lower) table = none := by
  have invalid : isValid (memory (slot table (vpn level virt))) = false := by
    rw [zero]
    decide
  exact if_pos invalid

theorem translate_pointer (valid : isValid (memory (slot table (vpn level virt))) = true)
    (pointer : isLeaf (memory (slot table (vpn level virt))) = false) :
    PageTable.translateFrom memory virt (level :: lower) table =
      PageTable.translateFrom memory virt lower
        (toPhys (memory (slot table (vpn level virt)))) := by
  have notInvalid : ¬ isValid (memory (slot table (vpn level virt))) = false := by
    rw [valid]
    decide
  have notLeaf : ¬ isLeaf (memory (slot table (vpn level virt))) = true := by
    rw [pointer]
    decide
  rw [PageTable.translateFrom, if_neg notInvalid, if_neg notLeaf]

theorem translate_last :
    PageTable.translateFrom memory virt [0] table =
      translation virt (memory (slot table (vpn 0 virt))) := by
  unfold translation
  simp only [PageTable.translateFrom]
  cases isValid (memory (slot table (vpn 0 virt))) <;>
    cases isLeaf (memory (slot table (vpn 0 virt))) <;> rfl

end Levels

theorem upper_entry_cases {path : List Nat} {index : Nat} (paged : Paged root machine)
    (fits : Fits sv39Format (path ++ [index]))
    (here : reach sv39Format machine.memory (kernelRoot root) () path = some place) :
    machine.memory (slot place index) = 0 ∨ (isValid (machine.memory (slot place index)) = true ∧
        isLeaf (machine.memory (slot place index)) = false) := by
  obtain ⟨pathFits, shallow, indexFits⟩ := fits_snoc.mp fits
  rcases paged.tables.forest.clean () path place index pathFits shallow here indexFits with
    zero | pointer
  · exact .inl zero
  · by_contra neither
    have none : sv39Format.child (machine.memory (slot place index)) = none := by
      rw [child_none_iff]
      revert neither
      cases isValid (machine.memory (slot place index)) <;>
        cases isLeaf (machine.memory (slot place index)) <;> simp
    rw [none] at pointer
    cases pointer

theorem translate_spec (virt : Nat) (paged : Paged root machine) :
    PageTable.translate root machine virt = translation virt (entryAt root machine virt) := by
  have pointerChild : ∀ entry : Word, isValid entry = true → isLeaf entry = false →
      sv39Format.child entry = some (toPhys entry) := by
    intro entry valid pointer
    apply child_some
    rw [valid, pointer]
    decide
  have unmapped : tableOf root machine virt = none →
      translation virt (entryAt root machine virt) = none := by
    intro gone
    rw [entry_of_missing gone]
    rfl
  unfold PageTable.translate
  rcases upper_entry_cases paged (vpns_first virt) (reach_root_table root machine.memory) with
    zero | ⟨upperValid, upperPointer⟩
  · rw [translate_zero zero, unmapped]
    rw [table_of_eq, upper_table_eq, zero]
    rfl
  · have middle := upper_table_eq root machine virt
    rw [pointerChild _ upperValid upperPointer] at middle
    rw [translate_pointer upperValid upperPointer]
    rcases upper_entry_cases paged (vpns_fit virt) middle with zero | ⟨lowerValid, lowerPointer⟩
    · rw [translate_zero zero, unmapped]
      rw [table_of_eq, middle, Option.bind_some, zero]
      rfl
    · have found : tableOf root machine virt = some (toPhys (machine.memory
          (slot (toPhys (machine.memory (slot root (vpn 2 virt))))
            (vpn 1 virt)))) := by
        rw [table_of_eq, middle]
        exact pointerChild _ lowerValid lowerPointer
      rw [translate_pointer lowerValid lowerPointer, translate_last, entry_of_table found]

end ViCell.Memory
