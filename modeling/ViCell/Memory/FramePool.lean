import ViCell.Lib.Runs
import ViCell.Memory.FrameOps

/-!
# Runs of the frame allocator

The allocator behind its lock, used by any number of callers: each lock hold
is one step, so the sections of several guest-RAM allocations interleave with
each other and with everything else. Beside the allocator the pool keeps the
frames that are out (`live`) and every frame that ever was (`returned`), which
is what a caller may give back.
-/

namespace ViCell.Memory

open Lib List FrameAllocator

def framesOf (address pages : Nat) : List Nat :=
  (range pages).map (fun i => address + i * pageSize)

structure Pool where
  allocator : FrameAllocator
  scans : Nat → Option GuestPhase
  live : List Nat
  returned : List Nat

inductive Request where
  | allocateFrame
  | allocateContiguous (n : Nat)
  | allocateGuestRam (caller pages : Nat)
  | guestSection (caller : Nat)
  | deallocateFrame (frame : Nat)
  deriving DecidableEq, Repr

inductive Reply where
  | quiet
  | run (address pages : Nat)
  | outOfFrames
  deriving DecidableEq, Repr

namespace Pool

def boot (entries : List MemoryMapEntry) : Pool where
  allocator := .newFromMap entries
  scans := fun _ => none
  live := []
  returned := []

def handOut (pool : Pool) (allocator : FrameAllocator) (address pages : Nat) : Pool :=
  { pool with
    allocator := allocator
    live := framesOf address pages ++ pool.live
    returned := framesOf address pages ++ pool.returned }

def setScan (pool : Pool) (caller : Nat) (phase : Option GuestPhase) : Pool :=
  { pool with scans := Function.update pool.scans caller phase }

/-- One lock hold and what it returns to its caller; `none` is a panic, or a
request that no caller can make. -/
def perform (pool : Pool) : Request → Option (Pool × Reply)
  | .allocateFrame =>
    match pool.allocator.allocateFrame with
    | (after, some address) => some (pool.handOut after address 1, .run address 1)
    | (after, none) => some ({ pool with allocator := after }, .outOfFrames)
  | .allocateContiguous n =>
    match pool.allocator.allocateContiguous n with
    | some (after, some address) => some (pool.handOut after address n, .run address n)
    | some (after, none) => some ({ pool with allocator := after }, .quiet)
    | none => none
  | .allocateGuestRam caller pages =>
    match pool.scans caller with
    | none => some (pool.setScan caller (some (.reading pages)), .quiet)
    | some _ => none
  | .guestSection caller =>
    match pool.scans caller with
    | none => none
    | some phase =>
      match pool.allocator.guestSection phase with
      | none => none
      | some (after, .finished pages (some address)) =>
        some ((pool.handOut after address pages).setScan caller none, .run address pages)
      | some (after, .finished _ none) =>
        some ({ pool with allocator := after }.setScan caller none, .quiet)
      | some (after, next) =>
        some ({ pool with allocator := after }.setScan caller (some next), .quiet)
  | .deallocateFrame frame =>
    if frame ∈ pool.returned then
      some ({ pool with
        allocator := pool.allocator.deallocateFrame frame
        live := pool.live.filter (fun other => other ≠ frame) }, .quiet)
    else none

def step (pool : Pool) (request : Request) : Option Pool :=
  (pool.perform request).map Prod.fst

end Pool

def ScanFits (allocator : FrameAllocator) : GuestPhase → Prop
  | .reading _ => True
  | .probing scan =>
    scan.total = allocator.totalFrames ∧ scan.candidate + scan.runLen ≤ scan.total
  | .claiming scan =>
    scan.total = allocator.totalFrames ∧ scan.candidate + scan.pages ≤ scan.total
  | .finished _ result => result = none

namespace FrameAllocator

theorem continue_fits {allocator : FrameAllocator} {scan : GuestScan}
    (total : scan.total = allocator.totalFrames) : ScanFits allocator scan.continue := by
  unfold GuestScan.continue
  split
  next inside => exact ⟨total, by omega⟩
  next => rfl

theorem probe_le (allocator : FrameAllocator) (start finish : Nat) :
    (allocator.probe start finish).1 ≤ finish - start := by
  unfold probe
  split
  next used found =>
    have seen := mem_range'_1.mp (mem_of_find?_eq_some found)
    omega
  next => exact Nat.le_refl _

theorem guest_section_spec {allocator after : FrameAllocator} {phase next : GuestPhase}
    (placed : Placed allocator) (fits : ScanFits allocator phase)
    (section_ : allocator.guestSection phase = some (after, next)) :
    (after = allocator ∧ ScanFits allocator next) ∨
      ∃ start pages, TakesRun allocator after start pages ∧
        next = .finished pages (some (allocator.frameIndexToAddr start)) := by
  cases phase with
  | reading =>
    cases section_
    exact .inl ⟨rfl, continue_fits rfl⟩
  | probing scan =>
    have bound := probe_le allocator (scan.candidate + scan.runLen)
      (min (scan.candidate + scan.runLen + probeChunk) scan.total)
    have room := fits.2
    simp only [guestSection] at section_
    split at section_
    next long =>
      cases section_
      exact .inl ⟨rfl, fits.1, by simp only; omega⟩
    next =>
      split at section_
      next used _ =>
        cases section_
        exact .inl ⟨rfl, continue_fits fits.1⟩
      next =>
        cases section_
        exact .inl ⟨rfl, continue_fits fits.1⟩
  | claiming scan =>
    have room := fits.2
    simp only [guestSection] at section_
    split at section_
    next free =>
      rw [Option.map_eq_some_iff] at section_
      obtain ⟨_, marks, pair⟩ := section_
      cases pair
      have unused := (run_free_iff allocator scan.pages scan.candidate).mp free
      have inside : scan.candidate + scan.pages ≤ allocator.totalFrames := fits.1 ▸ room
      exact .inr ⟨_, _, mark_range_takes placed inside unused marks, rfl⟩
    next =>
      cases section_
      exact .inl ⟨rfl, continue_fits fits.1⟩
  | finished =>
    cases section_
    exact .inl ⟨rfl, fits⟩

end FrameAllocator

/-- A frame of the region behind the pages of the bitmap. -/
def FrameOf (allocator : FrameAllocator) (frame : Nat) : Prop :=
  ∃ idx, allocator.bitmapPages ≤ idx ∧ idx < allocator.totalFrames ∧
    frame = allocator.memoryStart + idx * pageSize

/-- A set bit is a page of the bitmap or a frame that is out, and conversely. -/
structure Accounts (pool : Pool) : Prop where
  placed : pool.allocator.Placed
  taken : ∀ idx, pool.allocator.isFrameAllocated idx = true ↔
    idx < pool.allocator.bitmapPages ∨ (idx < pool.allocator.totalFrames ∧
      pool.allocator.memoryStart + idx * pageSize ∈ pool.live)
  live : ∀ frame ∈ pool.live, FrameOf pool.allocator frame
  returned : ∀ frame ∈ pool.returned, FrameOf pool.allocator frame
  scans : ∀ caller phase, pool.scans caller = some phase → ScanFits pool.allocator phase

variable {pages frame : Nat}

theorem mem_frames_of {addr : Nat} :
    frame ∈ framesOf addr pages ↔ ∃ i, i < pages ∧ frame = addr + i * pageSize := by
  unfold framesOf
  rw [mem_map]
  constructor
  · rintro ⟨i, inside, rfl⟩
    exact ⟨i, mem_range.mp inside, rfl⟩
  · rintro ⟨i, inside, rfl⟩
    exact ⟨i, mem_range.mpr inside, rfl⟩

theorem mem_region_frames {memoryStart start idx : Nat} :
    memoryStart + idx * pageSize ∈ framesOf (memoryStart + start * pageSize) pages ↔
      start ≤ idx ∧ idx < start + pages := by
  rw [mem_frames_of]
  constructor
  · rintro ⟨i, inside, same⟩
    unfold pageSize at same
    omega
  · rintro ⟨above, below⟩
    refine ⟨idx - start, by omega, ?_⟩
    unfold pageSize
    omega

variable {after : FrameAllocator}

theorem frame_of_same {was : FrameAllocator} (same : was.SameRegion after)
    (frameOf : FrameOf was frame) : FrameOf after frame := by
  unfold FrameOf
  rw [same.pages, same.frames, same.start]
  exact frameOf

theorem scan_fits_same {was : FrameAllocator} (same : was.SameRegion after)
    {phase : GuestPhase} (fits : ScanFits was phase) : ScanFits after phase := by
  cases phase with
  | reading => trivial
  | probing scan | claiming scan => exact ⟨fits.1.trans same.frames.symm, fits.2⟩
  | finished => exact fits

section Handed

variable {pool : Pool} {after : FrameAllocator} {start pages : Nat}

theorem run_behind_bitmap (placed : pool.allocator.Placed)
    (takes : pool.allocator.TakesRun after start pages) (pos : 0 < pages) :
    pool.allocator.bitmapPages ≤ start := by
  by_contra inside
  have reserved := placed.reserved start (by omega)
  rw [takes.free start (Nat.le_refl _) (by omega)] at reserved
  cases reserved

theorem run_address (placed : pool.allocator.Placed)
    (takes : pool.allocator.TakesRun after start pages) (pos : 0 < pages) :
    pool.allocator.frameIndexToAddr start = pool.allocator.memoryStart + start * pageSize := by
  have inside := takes.inside
  exact placed.frame_addr (by omega)

theorem run_frames (placed : pool.allocator.Placed)
    (takes : pool.allocator.TakesRun after start pages) {frame : Nat}
    (mem : frame ∈ framesOf (pool.allocator.frameIndexToAddr start) pages) :
    FrameOf pool.allocator frame := by
  obtain ⟨i, _, same⟩ := mem_frames_of.mp mem
  have pos : 0 < pages := by omega
  have behind := run_behind_bitmap placed takes pos
  have inside := takes.inside
  rw [run_address placed takes pos] at same
  refine ⟨start + i, by omega, by omega, ?_⟩
  unfold pageSize at same ⊢
  omega

theorem accounts_hand_out (accounts : Accounts pool)
    (takes : pool.allocator.TakesRun after start pages) :
    Accounts (pool.handOut after (pool.allocator.frameIndexToAddr start) pages) where
  placed := takes.placed accounts.placed
  taken := by
    intro idx
    have inside := takes.inside
    have was := accounts.taken idx
    have mem : pool.allocator.memoryStart + idx * pageSize ∈
        framesOf (pool.allocator.frameIndexToAddr start) pages ↔
          start ≤ idx ∧ idx < start + pages := by
      by_cases pos : 0 < pages
      · rw [run_address accounts.placed takes pos]
        exact mem_region_frames
      · have none : pages = 0 := by omega
        subst none
        constructor
        · intro listed
          cases listed
        · omega
    simp only [Pool.handOut, takes.region.pages, takes.region.frames, takes.region.start,
      mem_append, mem]
    rw [takes.taken, Bool.or_eq_true, decide_eq_true_eq, was]
    constructor
    · rintro ((reserved | known) | new)
      · exact .inl reserved
      · exact .inr ⟨known.1, .inr known.2⟩
      · exact .inr ⟨by omega, .inl new⟩
    · rintro (reserved | ⟨below, new | known⟩)
      · exact .inl (.inl reserved)
      · exact .inr new
      · exact .inl (.inr ⟨below, known⟩)
  live := by
    intro frame mem
    apply frame_of_same takes.region
    rcases mem_append.mp mem with new | known
    · exact run_frames accounts.placed takes new
    · exact accounts.live frame known
  returned := by
    intro frame mem
    apply frame_of_same takes.region
    rcases mem_append.mp mem with new | known
    · exact run_frames accounts.placed takes new
    · exact accounts.returned frame known
  scans := fun caller phase known =>
    scan_fits_same takes.region (accounts.scans caller phase known)

end Handed

variable {pool : Pool}

theorem accounts_set_scan (accounts : Accounts pool) (caller : Nat) {phase : Option GuestPhase}
    (fits : ∀ running, phase = some running → ScanFits pool.allocator running) :
    Accounts (pool.setScan caller phase) where
  placed := accounts.placed
  taken := accounts.taken
  live := accounts.live
  returned := accounts.returned
  scans := by
    intro other running known
    by_cases same : other = caller
    · subst same
      have set : (pool.setScan other phase).scans other = phase := Function.update_self ..
      exact fits running (set ▸ known)
    · have kept : (pool.setScan caller phase).scans other = pool.scans other :=
        Function.update_of_ne same ..
      exact accounts.scans other running (kept ▸ known)

theorem accounts_deallocate (accounts : Accounts pool) (known : frame ∈ pool.returned) :
    Accounts { pool with
      allocator := pool.allocator.deallocateFrame frame
      live := pool.live.filter (fun other => other ≠ frame) } := by
  obtain ⟨freed, behind, inside, same⟩ := accounts.returned frame known
  subst same
  have gives := deallocate_frame_spec accounts.placed inside
  refine ⟨gives.placed accounts.placed behind, ?_, ?_, ?_, ?_⟩
  · intro idx
    have was := accounts.taken idx
    have ne : pool.allocator.memoryStart + idx * pageSize ≠
        pool.allocator.memoryStart + freed * pageSize ↔ idx ≠ freed := by
      unfold pageSize
      omega
    rw [gives.taken, Bool.and_eq_true, was]
    simp only [gives.region.pages, gives.region.frames, gives.region.start, mem_filter,
      decide_eq_true_eq, ne]
    constructor
    · rintro ⟨reserved | ⟨below, out⟩, other⟩
      · exact .inl reserved
      · exact .inr ⟨below, out, other⟩
    · rintro (reserved | ⟨below, out, other⟩)
      · exact ⟨.inl reserved, by omega⟩
      · exact ⟨.inr ⟨below, out⟩, other⟩
  · intro other mem
    exact frame_of_same gives.region (accounts.live other (mem_of_mem_filter mem))
  · intro other mem
    exact frame_of_same gives.region (accounts.returned other mem)
  · intro caller phase running
    exact scan_fits_same gives.region (accounts.scans caller phase running)

def Pool.storageEnd (pool : Pool) : Nat :=
  pool.allocator.memoryStart + pool.allocator.bitmap.length * 8

structure RunSound (pool : Pool) (address pages : Nat) : Prop where
  aligned : pageSize ∣ address
  above : pool.allocator.memoryStart ≤ address
  below : address + pages * pageSize ≤ pool.allocator.memoryEnd
  fresh : ∀ frame ∈ pool.live, frame + pageSize ≤ address ∨ address + pages * pageSize ≤ frame
  storage : pool.storageEnd ≤ address

def ReplySound (pool : Pool) : Reply → Prop
  | .quiet => True
  | .run address pages => 1 ≤ pages → RunSound pool address pages
  | .outOfFrames =>
    ∀ frame, pageSize ∣ frame → pool.allocator.memoryStart ≤ frame →
      frame < pool.allocator.memoryEnd → frame ∈ pool.live ∨ frame < pool.storageEnd

theorem hand_out_sound {start : Nat} (accounts : Accounts pool)
    (takes : pool.allocator.TakesRun after start pages) :
    ReplySound pool (.run (pool.allocator.frameIndexToAddr start) pages) := by
  intro pos
  have placed := accounts.placed
  have behind := run_behind_bitmap placed takes pos
  have inside := takes.inside
  have extent := placed.extent
  have storage : pool.allocator.bitmap.length * 8 ≤ pool.allocator.bitmapPages * pageSize := by
    unfold bitmapPages pageSize
    omega
  rw [run_address placed takes pos]
  refine ⟨?_, by omega, ?_, ?_, ?_⟩
  · exact (Nat.dvd_add_right placed.aligned).mpr (Nat.dvd_mul_left _ _)
  · unfold pageSize at extent ⊢
    omega
  · intro frame out
    obtain ⟨idx, -, known, same⟩ := accounts.live frame out
    subst same
    have taken := (accounts.taken idx).mpr (.inr ⟨known, out⟩)
    have outside : idx < start ∨ start + pages ≤ idx := by
      by_contra between
      rw [takes.free idx (by omega) (by omega)] at taken
      cases taken
    unfold pageSize
    omega
  · unfold Pool.storageEnd
    unfold pageSize at storage ⊢
    omega

theorem exhausted_sound (accounts : Accounts pool)
    (full : ∀ idx, idx < pool.allocator.totalFrames → pool.allocator.isFrameAllocated idx = true) :
    ReplySound pool .outOfFrames := by
  intro frame aligned above below
  have extent := accounts.placed.extent
  obtain ⟨offset, split⟩ := Nat.exists_eq_add_of_le above
  have page : pageSize ∣ offset := (Nat.dvd_add_right accounts.placed.aligned).mp (split ▸ aligned)
  obtain ⟨idx, same⟩ := page
  have place : frame = pool.allocator.memoryStart + idx * pageSize := by
    rw [split, same, Nat.mul_comm]
  have inside : idx < pool.allocator.totalFrames := by
    unfold pageSize at place extent
    omega
  rcases (accounts.taken idx).mp (full idx inside) with reserved | ⟨-, out⟩
  · unfold bitmapPages at reserved
    unfold Pool.storageEnd
    unfold pageSize at place reserved
    omega
  · left
    rw [place]
    exact out

theorem accounts_same_allocator (accounts : Accounts pool) (same : after = pool.allocator) :
    Accounts { pool with allocator := after } := by
  subst same
  exact accounts

theorem perform_section {after : Pool} {caller : Nat} {reply : Reply} (accounts : Accounts pool)
    (performed : pool.perform (.guestSection caller) = some (after, reply)) :
    Accounts after ∧ ReplySound pool reply := by
  simp only [Pool.perform] at performed
  split at performed
  next => cases performed
  next phase running =>
    have fits := accounts.scans caller phase running
    split at performed
    next => cases performed
    next ran =>
      cases performed
      obtain ⟨-, missed⟩ | ⟨_, _, takes, finished⟩ := guest_section_spec accounts.placed fits ran
      · cases missed
      · cases finished
        refine ⟨accounts_set_scan (accounts_hand_out accounts takes) caller ?_,
          hand_out_sound accounts takes⟩
        intro running none
        cases none
    next ran =>
      cases performed
      obtain ⟨same, -⟩ | ⟨_, _, -, finished⟩ := guest_section_spec accounts.placed fits ran
      · refine ⟨accounts_set_scan (accounts_same_allocator accounts same) caller ?_, trivial⟩
        intro running none
        cases none
      · cases finished
    next hit _ ran =>
      cases performed
      obtain ⟨same, further⟩ | ⟨_, pages, -, finished⟩ :=
        guest_section_spec accounts.placed fits ran
      · refine ⟨accounts_set_scan (accounts_same_allocator accounts same) caller ?_, trivial⟩
        intro running next
        cases next
        exact same ▸ further
      · exact absurd finished (hit pages _)

theorem perform_sound {after : Pool} {request : Request} {reply : Reply} (accounts : Accounts pool)
    (performed : pool.perform request = some (after, reply)) :
    Accounts after ∧ ReplySound pool reply := by
  cases request with
  | allocateFrame =>
    simp only [Pool.perform] at performed
    generalize run : pool.allocator.allocateFrame = outcome at performed
    obtain ⟨allocator, _⟩ := outcome
    rcases allocate_frame_spec accounts.placed run with
      ⟨start, takes, rfl⟩ | ⟨same, rfl, full⟩
    · cases performed
      exact ⟨accounts_hand_out accounts takes, hand_out_sound accounts takes⟩
    · cases performed
      exact ⟨accounts_same_allocator accounts same, exhausted_sound accounts full⟩
  | allocateContiguous =>
    simp only [Pool.perform] at performed
    split at performed
    next allocator addr run =>
      cases performed
      obtain ⟨start, takes, rfl⟩ := allocate_contiguous_some accounts.placed run
      exact ⟨accounts_hand_out accounts takes, hand_out_sound accounts takes⟩
    next allocator run =>
      cases performed
      have same := allocate_contiguous_none accounts.placed run
      exact ⟨accounts_same_allocator accounts same, trivial⟩
    next => cases performed
  | allocateGuestRam caller =>
    simp only [Pool.perform] at performed
    split at performed
    next =>
      cases performed
      refine ⟨accounts_set_scan accounts caller ?_, trivial⟩
      intro running same
      cases same
      trivial
    next => cases performed
  | guestSection => exact perform_section accounts performed
  | deallocateFrame =>
    simp only [Pool.perform] at performed
    split at performed
    next known =>
      cases performed
      exact ⟨accounts_deallocate accounts known, trivial⟩
    next => cases performed

theorem accounts_boot {entries : List MemoryMapEntry} (spans : SpansPages entries) :
    Accounts (Pool.boot entries) where
  placed := new_from_map_placed spans
  taken := by
    intro idx
    have marked := new_from_map_allocated entries idx
    simp only [Pool.boot, marked, decide_eq_true_eq, not_mem_nil, and_false, or_false]
  live := by
    intro frame out
    cases out
  returned := by
    intro frame out
    cases out
  scans := by
    intro caller phase running
    cases running

theorem accounts_step (pool : Pool) (request : Request) (after : Pool)
    (accounts : Accounts pool) (ran : pool.step request = some after) : Accounts after := by
  unfold Pool.step at ran
  rw [Option.map_eq_some_iff] at ran
  obtain ⟨⟨_, _⟩, performed, same⟩ := ran
  subst same
  exact (perform_sound accounts performed).1

/-- In every run from a map whose largest usable region spans whole pages, a
run of frames that is handed out is aligned, in the region, and apart from the
bitmap and from every frame that is out; a single allocation fails only when
every frame of the region is out or holds the bitmap. -/
theorem handed_out_frames_fresh {entries : List MemoryMapEntry} (spans : SpansPages entries)
    (requests : List Request) {pool after : Pool} {request : Request} {reply : Reply}
    (executed : runEvents Pool.step (Pool.boot entries) requests = some pool)
    (performed : pool.perform request = some (after, reply)) :
    ReplySound pool reply := by
  have accounts : Accounts pool :=
    run_invariant Accounts accounts_step executed (accounts_boot spans)
  exact (perform_sound accounts performed).2

def smallMap : List MemoryMapEntry :=
  [{ base := 0x80000100, length := 0x5000, ty := .usable },
    { base := 0x1000, length := 0x4000, ty := .usable },
    { base := 0x90000000, length := 0x10000, ty := .reserved }]

def smallRequests : List Request :=
  [.allocateGuestRam 0 1, .guestSection 0, .guestSection 0, .guestSection 0,
    .allocateContiguous 2, .guestSection 0, .guestSection 0, .guestSection 0]

theorem guest_page_handed_out_fresh : SpansPages smallMap ∧
      ∃ pool after, runEvents Pool.step (Pool.boot smallMap) smallRequests = some pool ∧
        pool.perform (.guestSection 0) = some (after, .run 0x80004000 1) ∧
        RunSound pool 0x80004000 1 := by
  have spans : SpansPages smallMap :=
    spans_of_usable_page mem_cons_self rfl (by decide) (by decide)
  have executed : runEvents Pool.step (Pool.boot smallMap) smallRequests =
      some (finalState Pool.step (Pool.boot smallMap) smallRequests) :=
    final_state_eq (by decide +kernel)
  have returns : ((finalState Pool.step (Pool.boot smallMap) smallRequests).perform
      (.guestSection 0)).map Prod.snd = some (.run 0x80004000 1) := by decide +kernel
  obtain ⟨⟨after, _⟩, performed, same⟩ := Option.map_eq_some_iff.mp returns
  subst same
  exact ⟨spans, _, after, executed, performed,
    handed_out_frames_fresh spans smallRequests executed performed (by decide)⟩

end ViCell.Memory
