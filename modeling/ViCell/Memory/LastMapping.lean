import ViCell.Memory.BootPaging

/-!
# The last mapping of a page

Runs of `map` and `unmap` on an Sv39 page table that starts empty, in RAM that the
kernel reaches at its own addresses.
-/

namespace ViCell.Memory

open Lib Lib.RadixTable List Option Function FrameAllocator PageTableEntry

inductive TableOp where
  | map (virt phys : Nat) (flags : Word)
  | unmap (virt : Nat)

/-- Addresses that Sv39 has, and the flags of a leaf. -/
def TableOp.Proper : TableOp → Prop
  | .map virt phys flags =>
    virt < 2 ^ 39 ∧ phys < 2 ^ 64 ∧ flags.toNat < 2 ^ 10 ∧ isLeaf flags = true
  | .unmap virt => virt < 2 ^ 39

/-- A page table, and the frame that each page was last mapped to. -/
structure MappedTable where
  machine : Machine
  lastFrame : Nat → Option Nat

namespace MappedTable

def fresh (allocator : FrameAllocator) (memory : Nat → Word) (root : Nat) : MappedTable :=
  ⟨Machine.zeroWords ⟨allocator, memory⟩ root 512, fun _ => none⟩

def step (root : Nat) (table : MappedTable) : TableOp → MappedTable
  | .map virt phys flags =>
    match PageTable.map root table.machine virt phys flags with
    | (machine, .ok ()) =>
      ⟨machine, update table.lastFrame (virt / pageSize) (some (pageFloor phys))⟩
    | (machine, .error _) => { table with machine := machine }
  | .unmap virt =>
    ⟨PageTable.unmap root table.machine virt, update table.lastFrame (virt / pageSize) none⟩

/-- The entry of each page translates to the frame it was last mapped to. -/
structure Current (root : Nat) (table : MappedTable) : Prop where
  paged : Paged root table.machine
  entries : ∀ virt < 2 ^ 39, translation virt (entryAt root table.machine virt) =
    (table.lastFrame (virt / pageSize)).map (· + virt % pageSize)

variable {root : Nat} {table : MappedTable}

theorem translation_set {phys : Nat} {flags : Word} (low : phys < 2 ^ 64)
    (small : flags.toNat < 2 ^ 10) (leaf : isLeaf flags = true) (virt : Nat) :
    translation virt (set phys (toRiscvFlags flags)) = some (pageFloor phys + virt % pageSize) := by
  have nonzero : flags ≠ 0 := by
    rintro rfl
    cases leaf
  have riscv : toRiscvFlags flags = flags ||| 1 := if_pos nonzero
  have riscvSmall : (flags ||| 1).toNat < 2 ^ 10 := by
    rw [BitVec.toNat_or]
    exact Nat.or_lt_two_pow small (by decide)
  have valid : isValid (flags ||| 1) = true := by
    have bit : (flags ||| 1) &&& 1 = 1 := by
      apply BitVec.eq_of_getLsbD_eq
      intro index _
      rw [BitVec.getLsbD_and, BitVec.getLsbD_or]
      cases (1 : Word).getLsbD index <;> simp
    unfold isValid
    rw [bit]
    rfl
  have stillLeaf : isLeaf (flags ||| 1) = true := by
    have bits : (flags ||| 1) >>> 1 = flags >>> 1 := by
      rw [BitVec.ushiftRight_or_distrib]
      exact BitVec.or_zero
    unfold isLeaf at leaf ⊢
    rw [bits]
    exact leaf
  have frame : toPhys (set phys (flags ||| 1)) = pageFloor phys := by
    rw [to_phys_eq, set_to_nat low riscvSmall]
    unfold pageFloor pageSize
    omega
  unfold translation
  rw [riscv, is_valid_set low riscvSmall, is_leaf_set low riscvSmall, valid, stillLeaf, frame]
  have offset : virt % pageSize < 2 ^ 12 := Nat.mod_lt _ (by decide)
  have sum := Nat.shiftLeft_add_eq_or_of_lt offset (phys / pageSize)
  rw [Nat.shiftLeft_eq] at sum
  exact congrArg some sum.symm

theorem current_set {entry : Word} {virt : Nat} (frame : Option Nat) {after : Machine}
    (current : Current root table) (inside : virt < 2 ^ 39) (paged : Paged root after)
    (sets : SetsEntry root table.machine after virt entry)
    (translates : ∀ other, translation other entry = frame.map (· + other % pageSize)) :
    Current root ⟨after, update table.lastFrame (virt / pageSize) frame⟩ := by
  refine ⟨paged, ?_⟩
  intro other otherInside
  dsimp only
  by_cases same : other / pageSize = virt / pageSize
  · rw [sets.here other ((same_vpns_iff otherInside inside).mpr same), same, update_self]
    exact translates other
  · rw [sets.elsewhere other (fun alike => same ((same_vpns_iff otherInside inside).mp alike)),
      update_of_ne same]
    exact current.entries other otherInside

theorem current_step (current : Current root table) {op : TableOp} (proper : op.Proper) :
    Current root (table.step root op) := by
  cases op with
  | map virt phys flags =>
    obtain ⟨inside, low, small, leaf⟩ := proper
    rcases run : PageTable.map root table.machine virt phys flags with ⟨after, out⟩
    rw [step, run]
    rcases map_spec current.paged run with ⟨rfl, mapped⟩ | ⟨rfl, failed⟩
    · exact current_set (some (pageFloor phys)) current inside mapped.paged mapped.sets
        (fun other => translation_set low small leaf other)
    · refine ⟨failed.paged, ?_⟩
      intro other otherInside
      rw [failed.entries]
      exact current.entries other otherInside
  | unmap virt =>
    obtain ⟨paged, _, sets, _⟩ := unmap_spec virt current.paged rfl
    exact current_set none current proper paged sets (fun _ => rfl)

theorem current_fresh {allocator taken : FrameAllocator} (memory : Nat → Word)
    (placed : allocator.Placed) (low : allocator.memoryEnd ≤ 2 ^ 38)
    (run : allocator.allocateFrame = (taken, some root)) :
    Current root (fresh taken memory root) := by
  obtain ⟨paged, _⟩ := @root_paged root allocator taken memory placed (fun _ => low) run
  refine ⟨paged, ?_⟩
  intro virt _
  rw [entry_of_missing]
  · rfl
  · rw [table_of_eq, upper_table_eq]
    have zero : (fresh taken memory root).machine.memory (slot root (vpn 2 virt)) = 0 := by
      have bound := vpn_lt 2 virt
      exact if_pos (by unfold slot; omega)
    rw [zero]
    rfl

/-- After every run of `map` and `unmap`, successful or not, each address translates to
the frame its page was last mapped to, and to nothing if the page is not mapped. -/
theorem translate_last_mapping {allocator taken : FrameAllocator} (memory : Nat → Word)
    (placed : allocator.Placed) (low : allocator.memoryEnd ≤ 2 ^ 38)
    (run : allocator.allocateFrame = (taken, some root)) (ops : List TableOp)
    (proper : ∀ op ∈ ops, op.Proper) {virt : Nat} (inside : virt < 2 ^ 39) :
    PageTable.translate root (ops.foldl (step root) (fresh taken memory root)).machine virt =
      ((ops.foldl (step root) (fresh taken memory root)).lastFrame (virt / pageSize)).map
        (· + virt % pageSize) := by
  have current : Current root (ops.foldl (step root) (fresh taken memory root)) := by
    apply foldlRecOn
    · exact current_fresh memory placed low run
    · exact fun table holds op mem => current_step holds (proper op mem)
  rw [translate_spec virt current.paged]
  exact current.entries virt inside

def remapped : List TableOp :=
  [.map 0x1000 0x5000 Flags.read, .map 0x2000 0x6000 Flags.read, .map 0x1000 0x7000 Flags.write,
    .unmap 0x2000]

theorem remapped_page_translated :
    PageTable.translate 0x80001000 (remapped.foldl (step 0x80001000)
      (fresh (newFromMap tinyMap).allocateFrame.1 (fun _ => 0) 0x80001000)).machine 0x1234 =
        some 0x7234 := by
  have last := translate_last_mapping (fun _ => 0) (new_from_map_placed tiny_boot_map.spans)
    (by decide +kernel) (Prod.ext rfl (by decide +kernel : _ = some 0x80001000)) remapped
    (by simp [remapped, TableOp.Proper]; decide) (by decide : 0x1234 < 2 ^ 39)
  exact last.trans (by decide +kernel)

end MappedTable

end ViCell.Memory
