import ViCell.Memory.FreeFrames

/-!
# The identity mapping from boot on

`init_kernel_paging` on riscv64: the root table, the entries of the memory map
and the device windows of the platform description, each mapped to itself page
by page. From there on every free frame keeps the mapping boot gave it.
-/

namespace ViCell.Memory

open Lib Lib.RadixTable List Option FrameAllocator PageTableEntry KernelMemory

def bootFlags : MemoryType → Option Word
  | .usable => some Flags.kernelRwx
  | .kernel => some Flags.kernelRwx
  | .bootloader => some Flags.kernelRw
  | .framebuffer => some Flags.kernelRw
  | .mmio => some Flags.kernelRw
  | _ => none

def roundsOf (start finish : Nat) : Nat := (finish - start + pageSize - 1) / pageSize

/-- `none` is the out-of-memory error, which ends boot. -/
def identityMap (root : Nat) (flags : Word) : Nat → Nat → Machine → Option Machine
  | 0, _, machine => some machine
  | count + 1, addr, machine =>
    match PageTable.map root machine addr addr flags with
    | (_, .error _) => none
    | (machine, .ok ()) => identityMap root flags count (addr + pageSize) machine

def mapEntry (root : Nat) (machine : Machine) (entry : MemoryMapEntry) : Option Machine :=
  match bootFlags entry.ty with
  | none => some machine
  | some flags =>
    identityMap root flags (roundsOf entry.base (usize (entry.base + entry.length))) entry.base
      machine

def mapWindow (root : Nat) (machine : Machine) (window : Nat × Nat) : Option Machine :=
  identityMap root Flags.kernelRw (roundsOf window.1 window.2) window.1 machine

/-- The fields of `PlatformInfo` that paging reads. -/
structure PlatformInfo where
  uartBase : Nat
  plicBase : Nat
  plicSize : Nat
  clintBase : Nat
  rtcBase : Nat

def ecamBaseRiscv : Nat := 0x30000000

def ecamBus0Size : Nat := 0x100000

/-- CLINT, PLIC, UART, RTC and the configuration space of PCIe bus 0, in the
order they are mapped. -/
def PlatformInfo.windows (platform : PlatformInfo) : List (Nat × Nat) :=
  let uartRegion := platform.uartBase / 0x10000 * 0x10000
  let rtcRegion := platform.rtcBase / 0x1000 * 0x1000
  [(platform.clintBase, usize (platform.clintBase + 0x10000)),
    (platform.plicBase, usize (platform.plicBase + platform.plicSize)),
    (uartRegion, usize (uartRegion + 0x10000)),
    (rtcRegion, usize (rtcRegion + 0x1000)),
    (ecamBaseRiscv, usize (ecamBaseRiscv + ecamBus0Size))]

def PlatformInfo.qemuDefaults : PlatformInfo where
  uartBase := 0x10000000
  plicBase := 0x0C000000
  plicSize := 0x4000000
  clintBase := 0x02000000
  rtcBase := 0x00101000

def fallbackMemoryMap : List MemoryMapEntry :=
  [{ base := 0x80000000, length := 0x00200000, ty := .bootloader },
    { base := 0x80200000, length := 0x04000000, ty := .kernel },
    { base := 0x84200000, length := 0x0BE00000, ty := .usable }]

def initKernelPaging (entries : List MemoryMapEntry) (platform : PlatformInfo)
    (machine : Machine) : Option (Nat × Machine) :=
  match machine.allocator.allocateFrame with
  | (_, none) => none
  | (allocator, some root) =>
    ((entries.foldlM (mapEntry root)
      ({ machine with allocator := allocator }.zeroWords root 512)).bind
        (platform.windows.foldlM (mapWindow root))).map (fun machine => (root, machine))

variable {root : Nat} {machine after : Machine}

theorem set_page {left right : Nat} {flags : Word} (leftLow : left < 2 ^ 64)
    (rightLow : right < 2 ^ 64) (small : flags.toNat < 2 ^ 10)
    (same : left / pageSize = right / pageSize) :
    set left flags = set right flags := by
  apply BitVec.eq_of_toNat_eq
  rw [set_to_nat leftLow small, set_to_nat rightLow small]
  unfold pageSize at same
  omega

/-- The pages a loop of `count` rounds from `addr` goes over. -/
def Covers (addr count page : Nat) : Prop :=
  addr / pageSize ≤ page / pageSize ∧ page / pageSize < addr / pageSize + count

structure Identity (root : Nat) (before after : Machine) (flags : Word) (addr count : Nat) :
    Prop where
  paged : Paged root after
  advances : Advances root before after
  inside : ∀ page < 2 ^ 38, Covers addr count page → entryAt root after page = set page flags
  outside : ∀ page < 2 ^ 38, ¬ Covers addr count page →
    entryAt root after page = entryAt root before page

theorem identity_map_spec {flags : Word} (count : Nat) {addr : Nat} (paged : Paged root machine)
    (small : flags.toNat < 2 ^ 10) (same : toRiscvFlags flags = flags)
    (low : addr + count * pageSize ≤ 2 ^ 38 + pageSize)
    (run : identityMap root flags count addr machine = some after) :
    Identity root machine after flags addr count := by
  induction count generalizing addr machine with
  | zero =>
    cases run
    refine ⟨paged, advances_refl _, ?_, fun _ _ _ => rfl⟩
    intro page _ covers
    unfold Covers at covers
    omega
  | succ count ih =>
    rw [Nat.succ_mul] at low
    have addrLow : addr < 2 ^ 39 := by
      omega
    unfold identityMap at run
    split at run
    next => cases run
    next next mapping =>
      rcases map_spec paged mapping with ⟨_, mapped⟩ | ⟨failed, _⟩
      · rw [same] at mapped
        obtain ⟨pagedEnd, advances, inside, outside⟩ := ih mapped.paged (by omega) run
        have next_ : (addr + pageSize) / pageSize = addr / pageSize + 1 :=
          Nat.add_div_right _ (by decide)
        unfold Covers at inside outside
        refine ⟨pagedEnd, advances_trans mapped.advances advances, ?_, ?_⟩
        · intro page pageLow covers
          unfold Covers at covers
          by_cases here : page / pageSize = addr / pageSize
          · have vpns := (same_vpns_iff (by omega) addrLow).mpr here
            rw [outside page pageLow (by omega), mapped.sets.here page vpns]
            exact set_page (by omega) (by omega) small here.symm
          · exact inside page pageLow (by omega)
        · intro page pageLow uncovered
          unfold Covers at uncovered
          have vpns : ¬ SameVpns page addr := by
            rw [same_vpns_iff (by omega) addrLow]
            omega
          rw [outside page pageLow (by omega), mapped.sets.elsewhere page vpns]
      · cases failed

def MemoryMapEntry.Holds (entry : MemoryMapEntry) (page : Nat) : Prop :=
  Covers entry.base (roundsOf entry.base (entry.base + entry.length)) page

/-- A memory map that Sv39 can map to itself, with RAM apart from everything
that is mapped without execute permission, as the kernel's own map is. -/
structure BootMap (entries : List MemoryMapEntry) (windows : List (Nat × Nat)) : Prop where
  spans : SpansPages entries
  low : ∀ entry ∈ entries, entry.base + entry.length ≤ 2 ^ 38
  windowsLow : ∀ window ∈ windows, window.2 ≤ 2 ^ 38
  apart : ∀ entry ∈ entries, bootFlags entry.ty = some Flags.kernelRw →
    entry.base + entry.length ≤ (newFromMap entries).memoryStart ∨
      (newFromMap entries).memoryEnd ≤ entry.base
  windowsApart : ∀ window ∈ windows, window.2 ≤ (newFromMap entries).memoryStart ∨
      (newFromMap entries).memoryEnd ≤ window.1

theorem fallback_boot_map : BootMap fallbackMemoryMap PlatformInfo.qemuDefaults.windows :=
  ⟨by decide +kernel, by decide +kernel, by decide +kernel, by decide +kernel, by decide +kernel⟩

theorem rounds_low {start finish : Nat} (low : finish ≤ 2 ^ 38) (begins : start ≤ 2 ^ 38) :
    start + roundsOf start finish * pageSize ≤ 2 ^ 38 + pageSize := by
  unfold roundsOf pageSize
  omega

theorem boot_flags_cases {ty : MemoryType} {flags : Word} (found : bootFlags ty = some flags) :
    flags = Flags.kernelRwx ∨ flags = Flags.kernelRw := by
  cases ty <;> simp [bootFlags] at found <;> simp [found]

theorem boot_flags_small {ty : MemoryType} {flags : Word} (found : bootFlags ty = some flags) :
    flags.toNat < 2 ^ 10 ∧ toRiscvFlags flags = flags := by
  rcases boot_flags_cases found with same | same
  · rw [same]
    decide
  · rw [same]
    decide

/-- A page whose boot mapping is due: it has it, or an entry still to come gives
it, and no entry takes it away. -/
def HomeDue (root : Nat) (machine : Machine) (entries : List MemoryMapEntry) (page : Nat) : Prop :=
  (∀ entry ∈ entries, bootFlags entry.ty = some Flags.kernelRw → ¬ entry.Holds page) ∧
    (entryAt root machine page = homeEntry page ∨
      ∃ entry ∈ entries, bootFlags entry.ty = some Flags.kernelRwx ∧ entry.Holds page)

theorem map_entry_spec {entry : MemoryMapEntry} (paged : Paged root machine)
    (low : entry.base + entry.length ≤ 2 ^ 38) (run : mapEntry root machine entry = some after) :
    Paged root after ∧ Advances root machine after ∧
      ∀ page < 2 ^ 38, ∀ rest, HomeDue root machine (entry :: rest) page →
        HomeDue root after rest page := by
  have noWrap : usize (entry.base + entry.length) = entry.base + entry.length := by
    exact Nat.mod_eq_of_lt (by omega)
  unfold mapEntry at run
  rw [noWrap] at run
  split at run
  next skipped =>
    cases run
    refine ⟨paged, advances_refl _, ?_⟩
    intro page _ rest due
    refine ⟨fun other mem => due.1 other (mem_cons_of_mem _ mem), ?_⟩
    rcases due.2 with home | ⟨other, mem, flags, holds⟩
    · exact .inl home
    · rcases mem_cons.mp mem with same | later
      · rw [same, skipped] at flags
        cases flags
      · exact .inr ⟨other, later, flags, holds⟩
  next flags found =>
    obtain ⟨small, sameFlags⟩ := boot_flags_small found
    have identity := identity_map_spec _ paged small sameFlags
      (rounds_low low (by omega)) run
    refine ⟨identity.paged, identity.advances, ?_⟩
    intro page pageLow rest due
    refine ⟨fun other mem => due.1 other (mem_cons_of_mem _ mem), ?_⟩
    by_cases holds : entry.Holds page
    · left
      rcases boot_flags_cases found with rwx | rw_
      · rw [rwx] at identity
        exact identity.inside page pageLow holds
      · rw [rw_] at found
        exact absurd holds (due.1 entry (by simp) found)
    · rcases due.2 with home | ⟨other, mem, otherFlags, otherHolds⟩
      · left
        rw [identity.outside page pageLow holds]
        exact home
      · rcases mem_cons.mp mem with same | later
        · rw [same] at otherHolds
          exact absurd otherHolds holds
        · exact .inr ⟨other, later, otherFlags, otherHolds⟩

theorem map_entries_spec (entries : List MemoryMapEntry) (paged : Paged root machine)
    (low : ∀ entry ∈ entries, entry.base + entry.length ≤ 2 ^ 38)
    (run : entries.foldlM (mapEntry root) machine = some after) :
    Paged root after ∧ Advances root machine after ∧
      ∀ page < 2 ^ 38, HomeDue root machine entries page →
        entryAt root after page = homeEntry page := by
  induction entries generalizing machine with
  | nil =>
    cases run
    refine ⟨paged, advances_refl _, ?_⟩
    intro page _ due
    rcases due.2 with home | ⟨_, mem, _⟩
    · exact home
    · cases mem
  | cons entry rest ih =>
    obtain ⟨_, mapping, later⟩ := bind_eq_some_iff.mp run
    obtain ⟨pagedNext, advancesNext, dueNext⟩ := map_entry_spec paged (low entry (by simp)) mapping
    obtain ⟨pagedEnd, advancesEnd, home⟩ := ih pagedNext
      (fun other mem => low other (mem_cons_of_mem _ mem)) later
    refine ⟨pagedEnd, advances_trans advancesNext advancesEnd, ?_⟩
    intro page pageLow due
    exact home page pageLow (dueNext page pageLow rest due)

theorem map_windows_spec (windows : List (Nat × Nat)) (paged : Paged root machine)
    (low : ∀ window ∈ windows, window.2 ≤ 2 ^ 38)
    (run : windows.foldlM (mapWindow root) machine = some after) :
    Paged root after ∧ Advances root machine after ∧ ∀ page < 2 ^ 38,
        (∀ window ∈ windows, ¬ Covers window.1 (roundsOf window.1 window.2) page) →
        entryAt root after page = entryAt root machine page := by
  induction windows generalizing machine with
  | nil =>
    cases run
    exact ⟨paged, advances_refl _, fun _ _ _ => rfl⟩
  | cons window rest ih =>
    obtain ⟨next, mapping, later⟩ := bind_eq_some_iff.mp run
    have identity : Identity root machine next Flags.kernelRw window.1
        (roundsOf window.1 window.2) := by
      by_cases begins : window.1 ≤ 2 ^ 38
      · exact identity_map_spec _ paged (by decide) (by decide)
          (rounds_low (low window (by simp)) begins) mapping
      · have none : roundsOf window.1 window.2 = 0 := by
          have finish := low window (by simp)
          unfold roundsOf pageSize
          omega
        unfold mapWindow at mapping
        rw [none] at mapping ⊢
        cases mapping
        refine ⟨paged, advances_refl _, ?_, fun _ _ _ => rfl⟩
        intro page _ covers
        unfold Covers at covers
        omega
    obtain ⟨pagedEnd, advancesEnd, kept⟩ := ih identity.paged
      (fun other mem => low other (mem_cons_of_mem _ mem)) later
    refine ⟨pagedEnd, advances_trans identity.advances advancesEnd, ?_⟩
    intro page pageLow apart
    rw [kept page pageLow (fun other mem => apart other (mem_cons_of_mem _ mem))]
    exact identity.outside page pageLow (apart window (by simp))

theorem region_entry {entries : List MemoryMapEntry} (spans : SpansPages entries) {idx : Nat}
    (inside : idx < (newFromMap entries).totalFrames) :
    ∃ entry ∈ entries, entry.ty = .usable ∧ entry.Holds ((newFromMap entries).frameAt idx) ∧
      (newFromMap entries).memoryEnd ≤ entry.base + entry.length := by
  obtain ⟨extent, _⟩ := new_from_map_region spans
  have grown : largestUsable entries ≠ { start := 0, finish := 0, length := 0 } := by
    intro empty
    unfold newFromMap at inside
    rw [empty] at inside
    exact absurd inside (by simp [usize, pageFloor, wrappingSub, pageSize])
  obtain ⟨entry, mem, usable, starts, lengths⟩ := fold_largest_member entries grown
  change (largestUsable entries).start = entry.base at starts
  change (largestUsable entries).length = entry.length at lengths
  have ends : entry.base + entry.length < 2 ^ 64 := by
    rw [← starts, ← lengths]
    exact spans.1
  have first : (newFromMap entries).memoryStart =
      pageFloor (usize (entry.base + pageSize - 1)) := by
    rw [← starts]
    rfl
  have last : (newFromMap entries).memoryEnd = pageFloor (usize (entry.base + entry.length)) := by
    rw [← starts, ← lengths, ← largest_usable_finish]
    rfl
  have ordered : pageFloor (entry.base + pageSize - 1) ≤ pageFloor (entry.base + entry.length) := by
    rw [← starts, ← lengths]
    exact spans.2
  refine ⟨entry, mem, usable, ?_, ?_⟩
  · unfold MemoryMapEntry.Holds Covers roundsOf frameAt
    unfold pageFloor usize pageSize at *
    omega
  · rw [last]
    unfold pageFloor usize pageSize
    omega

theorem uncovered_frame {pool : FrameAllocator} (placed : pool.Placed) {idx : Nat}
    (inside : idx < pool.totalFrames) {start finish : Nat}
    (apart : finish ≤ pool.memoryStart ∨ pool.memoryEnd ≤ start) :
    ¬ Covers start (roundsOf start finish) (pool.frameAt idx) := by
  obtain ⟨_, aligned⟩ := placed.aligned
  have extent := placed.extent
  unfold Covers roundsOf frameAt
  unfold pageSize at *
  omega

theorem root_paged {allocator taken : FrameAllocator} {memory : Nat → Word}
    (placed : allocator.Placed)
    (low : 0 < allocator.totalFrames → allocator.memoryEnd ≤ 2 ^ 38)
    (run : allocator.allocateFrame = (taken, some root)) :
    Paged root ({ allocator := taken, memory := memory : Machine }.zeroWords root 512) ∧
      allocator.SameRegion taken ∧ 0 < allocator.totalFrames := by
  rcases allocate_frame_spec placed run with ⟨idx, takes, handed⟩ | ⟨_, failed, _⟩
  · have inside : idx < allocator.totalFrames := by
      have room := takes.inside
      omega
    rw [placed.frame_addr inside] at handed
    have noTables : TablesTaken sv39Format (fun _ : Unit => none) allocator memory := by
      refine ⟨⟨?_, ?_⟩, ?_⟩
      · intro _ _ _ _ _ _ _ _ found
        cases found
      · intro _ _ _ _ _ _ found
        cases found
      · intro _ _ _ _ found
        cases found
    have oneRoot := (noTables.root () takes (fun _ => (by decide : 0 < 512)) Nat.one_pos
      (by decide : 8 * 512 = 1 * pageSize) (some.inj handed)).2
    have sameRoots : Function.update (fun _ : Unit => (none : Option Nat)) () (some root) =
        kernelRoot root := by
      funext key
      exact Function.update_self _ _ _
    exact ⟨⟨takes.placed placed, takes.region.finish ▸ low (by omega), oneRoot⟩, takes.region,
      by omega⟩
  · cases failed

theorem home_entry_ne_zero {frame : Nat} (low : frame < 2 ^ 38) : homeEntry frame ≠ 0 := by
  intro zero
  have valid : isValid (homeEntry frame) = isValid Flags.kernelRwx :=
    is_valid_set (by omega) (by decide)
  rw [zero] at valid
  exact absurd valid (by decide)

theorem init_kernel_paging_home {entries : List MemoryMapEntry} {platform : PlatformInfo}
    {memory : Nat → Word} (map : BootMap entries platform.windows)
    (run : initKernelPaging entries platform
      { allocator := .newFromMap entries, memory := memory } = some (root, after)) :
    HomeKept root after [] [] := by
  have placed := new_from_map_placed map.spans
  unfold initKernelPaging at run
  split at run
  next => cases run
  next allocator first taken =>
    obtain ⟨_, mapping, same⟩ := map_eq_some_iff.mp run
    cases same
    obtain ⟨_, mapEntries, mapWindows⟩ := bind_eq_some_iff.mp mapping
    have low : 0 < (newFromMap entries).totalFrames → (newFromMap entries).memoryEnd ≤ 2 ^ 38 := by
      intro frames
      obtain ⟨entry, mem, _, _, _⟩ := region_entry map.spans frames
      have bound := map.low entry mem
      omega
    obtain ⟨pagedRoot, takenRegion, _⟩ := root_paged placed low taken
    obtain ⟨pagedMiddle, advancesMiddle, home⟩ :=
      map_entries_spec entries pagedRoot map.low mapEntries
    obtain ⟨pagedAfter, advancesAfter, kept⟩ :=
      map_windows_spec _ pagedMiddle map.windowsLow mapWindows
    have advances := advances_trans advancesMiddle advancesAfter
    have frames : after.allocator.totalFrames = (newFromMap entries).totalFrames :=
      advances.region.frames.trans takenRegion.frames
    have everyHome : ∀ idx, idx < after.allocator.totalFrames →
        AtHome root after (after.allocator.frameAt idx) := by
      intro idx inside
      have frameLow := frame_at_low pagedAfter inside
      rw [frames] at inside
      have sameFrame : after.allocator.frameAt idx = (newFromMap entries).frameAt idx :=
        (takenRegion.trans advances.region).frame_at idx
      rw [sameFrame] at frameLow ⊢
      unfold AtHome
      obtain ⟨entry, mem, usable, holds, _⟩ := region_entry map.spans inside
      rw [kept _ frameLow (fun window listed =>
        uncovered_frame placed inside (map.windowsApart window listed))]
      apply home _ frameLow
      refine ⟨fun other listed readWrite =>
        uncovered_frame placed inside (map.apart other listed readWrite), .inr ?_⟩
      refine ⟨entry, mem, ?_, holds⟩
      rw [usable]
      rfl
    refine ⟨pagedAfter, ?_, fun idx inside _ => everyHome idx inside, ?_, ?_, ?_, ?_, ?_⟩
    · intro idx inside
      rw [isSome_iff_ne_none]
      intro gone
      have zero := entry_of_missing gone
      rw [everyHome idx inside] at zero
      exact home_entry_ne_zero (frame_at_low pagedAfter inside) zero
    · intro page mem
      cases mem
    · intro page mem
      cases mem
    · intro frame mem
      cases mem
    · intro frame mem
      cases mem
    · exact nodup_nil

/-- The frame's own address translates to it, for kernel reads, writes and
instruction fetches and for nothing at user level. -/
structure KernelRwx (root : Nat) (machine : Machine) (frame : Nat) : Prop where
  translates : PageTable.translate root machine frame = some frame
  readable : entryAt root machine frame &&& Flags.read ≠ 0
  writable : entryAt root machine frame &&& Flags.write ≠ 0
  executable : entryAt root machine frame &&& Flags.execute ≠ 0
  notUser : entryAt root machine frame &&& Flags.user = 0

theorem kernel_rwx_of_home {frame : Nat} (paged : Paged root machine)
    (home : AtHome root machine frame) (low : frame < 2 ^ 38) (aligned : pageSize ∣ frame) :
    KernelRwx root machine frame := by
  have addr : frame < 2 ^ 64 := by omega
  have small : Flags.kernelRwx.toNat < 2 ^ 10 := by decide
  have flags : ∀ bit : Word, bit.toNat < 2 ^ 10 →
      entryAt root machine frame &&& bit = Flags.kernelRwx &&& bit := by
    intro bit bitSmall
    rw [home]
    exact set_flags addr small bitSmall
  refine ⟨translate_home paged home low aligned, ?_, ?_, ?_, ?_⟩
  all_goals
    rw [flags _ (by decide)]
    decide

/-- Stacks, grants and segments come and go in any order, with every partial
failure on the way: a frame that is free still has the mapping boot gave it. -/
theorem free_frames_keep_boot_mapping {entries : List MemoryMapEntry} {platform : PlatformInfo}
    {memory : Nat → Word} {booted : Machine} (map : BootMap entries platform.windows)
    (boots : initKernelPaging entries platform
      { allocator := .newFromMap entries, memory := memory } = some (root, booted))
    (calls : List MemoryCall) {state : KernelMemory}
    (executed : runEvents (step root) { machine := booted, held := [] } calls = some state)
    (idx : Nat) (inside : idx < state.machine.allocator.totalFrames)
    (free : state.machine.allocator.isFrameAllocated idx = false) :
    KernelRwx root state.machine (state.machine.allocator.frameAt idx) := by
  have initially : FreeAtHome root { machine := booted, held := [] } :=
    ⟨init_kernel_paging_home map boots, fun _ _ _ member => by cases member⟩
  have atHome : FreeAtHome root state := run_invariant (FreeAtHome root)
      (fun _ _ _ kept stepped => step_kept kept stepped) executed initially
  exact kernel_rwx_of_home atHome.kept.paged (atHome.kept.free idx inside free)
    (frame_at_low atHome.kept.paged inside) (frame_at_dvd atHome.kept.paged.placed idx)

/-- Sixteen frames of RAM, and all device windows on the one that is fixed. -/
def tinyMap : List MemoryMapEntry :=
  [{ base := 0x80000000, length := 0x10000, ty := .usable }]

def tinyPlatform : PlatformInfo where
  uartBase := 0x30000000
  plicBase := 0x30000000
  plicSize := 0x1000
  clintBase := 0x30000000
  rtcBase := 0x30000000

def tinyStart : Machine := { allocator := .newFromMap tinyMap, memory := fun _ => 0 }

theorem tiny_boot_map : BootMap tinyMap tinyPlatform.windows :=
  ⟨by decide +kernel, by decide +kernel, by decide +kernel, by decide +kernel, by decide +kernel⟩

/-- A stack, a grant and a cell's segment; the grant and then the stack go. -/
def tinyCalls : List MemoryCall :=
  [.newUserStack 1, .reserveGrant 2, .mapGrant 0,
    .loadSegments 4096 [{ vaddr := 0x400000, memSize := 4096, fileOffset := 0, fileSize := 16,
                          isRead := true, isWrite := false, isExecute := true }],
    .freeGrant 1, .dropStack 1]

theorem released_stack_keeps_boot_mapping :
    BootMap fallbackMemoryMap PlatformInfo.qemuDefaults.windows ∧
      BootMap tinyMap tinyPlatform.windows ∧
      ∃ booted state, initKernelPaging tinyMap tinyPlatform tinyStart = some (0x80001000, booted) ∧
        runEvents (step 0x80001000) { machine := booted, held := [] } tinyCalls = some state ∧
        state.machine.allocator.isFrameAllocated 6 = false ∧
        KernelRwx 0x80001000 state.machine 0x80006000 := by
  have evaluated : ((initKernelPaging tinyMap tinyPlatform tinyStart).bind (fun booted =>
      (runEvents (step booted.1) { machine := booted.2, held := [] } tinyCalls).map
        (fun state => (booted.1, state.machine.allocator.totalFrames,
          state.machine.allocator.frameAt 6, state.machine.allocator.isFrameAllocated 6)))) =
      some (0x80001000, 16, 0x80006000, false) := by decide +kernel
  obtain ⟨⟨_, booted⟩, boots, rest⟩ := bind_eq_some_iff.mp evaluated
  obtain ⟨state, executed, facts⟩ := map_eq_some_iff.mp rest
  simp only [Prod.mk.injEq] at facts
  obtain ⟨sameRoot, _, place, free⟩ := facts
  subst sameRoot
  refine ⟨fallback_boot_map, tiny_boot_map, booted, state, boots, executed, free, ?_⟩
  rw [← place]
  exact free_frames_keep_boot_mapping tiny_boot_map boots tinyCalls executed 6 (by omega) free

/-- No frame has two holders, none of theirs is free or a page table, and no grant stays
half mapped. -/
theorem holders_keep_apart {entries : List MemoryMapEntry} {platform : PlatformInfo}
    {memory : Nat → Word} {booted : Machine} (map : BootMap entries platform.windows)
    (boots : initKernelPaging entries platform ⟨.newFromMap entries, memory⟩ = some (root, booted))
    (calls : List MemoryCall) {state : KernelMemory}
    (executed : runEvents (step root) ⟨booted, []⟩ calls = some state) : FreeAtHome root state :=
  run_invariant (FreeAtHome root) (fun _ _ _ kept stepped => step_kept kept stepped) executed
    ⟨init_kernel_paging_home map boots, nofun⟩

theorem tiny_holders_keep_apart : ∃ booted state,
    runEvents (step 0x80001000) ⟨booted, []⟩ tinyCalls = some state ∧
      FreeAtHome 0x80001000 state := by
  have evaluated : ((initKernelPaging tinyMap tinyPlatform tinyStart).bind (fun booted =>
      (runEvents (step booted.1) ⟨booted.2, []⟩ tinyCalls).map (fun _ => booted.1))) =
        some 0x80001000 := by decide +kernel
  obtain ⟨⟨_, booted⟩, boots, rest⟩ := bind_eq_some_iff.mp evaluated
  obtain ⟨state, executed, rfl⟩ := map_eq_some_iff.mp rest
  exact ⟨booted, state, executed, holders_keep_apart tiny_boot_map boots tinyCalls executed⟩

end ViCell.Memory
