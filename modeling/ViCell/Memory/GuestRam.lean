import ViCell.Memory.FrameOps

/-!
# Guest RAM without interference

`allocate_guest_ram` as one call: its lock holds one after the other, with no
other user of the allocator in between. The scan position only moves forward,
so the call ends, and it returns a run of free frames or changes nothing.
-/

namespace ViCell.Memory

open Lib List

def guestSections : Nat → FrameAllocator → GuestPhase → Option (FrameAllocator × GuestPhase)
  | 0, allocator, phase => some (allocator, phase)
  | rounds + 1, allocator, phase =>
    match allocator.guestSection phase with
    | none => none
    | some (allocator, next) => guestSections rounds allocator next

def allocateGuestRam (allocator : FrameAllocator) (pages : Nat) :
    Option (FrameAllocator × Option Nat) :=
  match guestSections (allocator.totalFrames + 3) allocator (.reading pages) with
  | some (allocator, .finished _ result) => some (allocator, result)
  | _ => none

namespace FrameAllocator

def ScanFree (allocator : FrameAllocator) (pages : Nat) : GuestPhase → Prop
  | .reading wanted => wanted = pages
  | .probing scan =>
    scan.pages = pages ∧ scan.total = allocator.totalFrames ∧
      scan.candidate + scan.runLen < scan.total ∧
      allocator.runFree scan.runLen scan.candidate = true
  | .claiming scan =>
    scan.pages = pages ∧ scan.candidate + scan.pages ≤ allocator.totalFrames ∧
      allocator.runFree scan.pages scan.candidate = true
  | .finished _ result => result = none

def scanRank (allocator : FrameAllocator) : GuestPhase → Nat
  | .reading _ => allocator.totalFrames + 3
  | .probing scan => allocator.totalFrames - (scan.candidate + scan.runLen) + 2
  | .claiming _ => 1
  | .finished _ _ => 0

variable {allocator : FrameAllocator} {pages : Nat}

theorem continue_scan (scan : GuestScan) (bound : Nat) (wanted : scan.pages = pages)
    (total : scan.total = allocator.totalFrames)
    (free : allocator.runFree scan.runLen scan.candidate = true)
    (later : scan.candidate + scan.runLen < scan.total →
      allocator.totalFrames - (scan.candidate + scan.runLen) + 2 < bound)
    (pos : 0 < bound) :
    allocator.ScanFree pages scan.continue ∧ allocator.scanRank scan.continue < bound := by
  unfold GuestScan.continue
  split
  next inside => exact ⟨⟨wanted, total, inside.2, free⟩, later inside.2⟩
  next => exact ⟨rfl, pos⟩

theorem probe_spec (allocator : FrameAllocator) (start finish : Nat) :
    (∀ idx, start ≤ idx → idx < start + (allocator.probe start finish).1 →
      allocator.isFrameAllocated idx = false) ∧
    ((allocator.probe start finish).2 = none → (allocator.probe start finish).1 = finish - start) ∧
    (∀ used, (allocator.probe start finish).2 = some used → start ≤ used) ∧
    (allocator.probe start finish).1 ≤ finish - start := by
  unfold probe
  cases found : (range' start (finish - start)).find? allocator.isFrameAllocated with
  | none =>
    refine ⟨?_, fun _ => rfl, fun used seen => (by cases seen), Nat.le_refl _⟩
    intro idx above below
    have read := find?_eq_none.mp found idx (mem_range'_1.mpr ⟨above, by simpa using below⟩)
    simpa using read
  | some =>
    obtain ⟨_, mem, was⟩ := find?_range'_eq_some.mp found
    rw [mem_range'_1] at mem
    refine ⟨?_, fun none => (by cases none), ?_, by simp only; omega⟩
    · intro idx above below
      simp only at below
      have read := was idx above (by omega)
      simpa using read
    · intro other same
      cases same
      exact mem.1

theorem run_free_empty (allocator : FrameAllocator) (start : Nat) :
    allocator.runFree 0 start = true := rfl

theorem mark_range_some (placed : Placed allocator) {start count : Nat}
    (inside : start + count ≤ allocator.totalFrames) :
    ∃ marked, allocator.markRangeUsed start count = some marked := by
  have words := placed.words
  have stored : (range count).all
      (fun i => decide ((start + i) / 64 < allocator.bitmap.length)) = true := by
    rw [all_eq_true]
    intro i mem
    have below := mem_range.mp mem
    rw [decide_eq_true_eq]
    omega
  unfold markRangeUsed
  rw [if_pos stored]
  exact ⟨_, rfl⟩

theorem probe_extends {scan : GuestScan} (finish : Nat)
    (free : allocator.runFree scan.runLen scan.candidate = true) :
    allocator.runFree (scan.runLen + (allocator.probe (scan.candidate + scan.runLen) finish).1)
      scan.candidate = true := by
  obtain ⟨seen, _⟩ := probe_spec allocator (scan.candidate + scan.runLen) finish
  rw [run_free_iff] at free ⊢
  intro idx above below
  by_cases counted : idx < scan.candidate + scan.runLen
  · exact free idx above counted
  · exact seen idx (by omega) (by omega)

theorem guest_section_step {phase : GuestPhase} (placed : Placed allocator)
    (scanning : allocator.ScanFree pages phase) (running : 0 < allocator.scanRank phase) :
    ∃ after next, allocator.guestSection phase = some (after, next) ∧
      ((after = allocator ∧ allocator.ScanFree pages next ∧
          allocator.scanRank next < allocator.scanRank phase) ∨
        ∃ start, TakesRun allocator after start pages ∧
          next = .finished pages (some (allocator.frameIndexToAddr start))) := by
  cases phase with
  | reading wanted =>
    have next := continue_scan ⟨wanted, allocator.totalFrames, 0, 0⟩
      (allocator.totalFrames + 3) scanning rfl (run_free_empty allocator 0)
      (by simp only; omega) (by omega)
    exact ⟨_, _, rfl, .inl ⟨rfl, next⟩⟩
  | probing scan =>
    obtain ⟨wanted, total, room, free⟩ := scanning
    have longer := probe_extends
      (min (scan.candidate + scan.runLen + probeChunk) scan.total) free
    obtain ⟨_, whole, beyond, _⟩ := probe_spec allocator (scan.candidate + scan.runLen)
      (min (scan.candidate + scan.runLen + probeChunk) scan.total)
    have chunk : 0 < probeChunk := by decide
    simp only [guestSection]
    split
    next enough =>
      refine ⟨_, _, rfl, .inl ⟨rfl, ⟨wanted, ?_, ?_⟩, ?_⟩⟩
      · simp only
        omega
      · rw [run_free_iff] at longer ⊢
        intro idx above below
        simp only at above below
        exact longer idx above (by omega)
      · simp only [scanRank]
        omega
    next short =>
      split
      next used seen =>
        have after := beyond used seen
        refine ⟨_, _, rfl, .inl ⟨rfl, ?_⟩⟩
        exact continue_scan { scan with candidate := used + 1, runLen := 0 }
          (allocator.scanRank (.probing scan)) wanted total (run_free_empty _ _)
          (by simp only [scanRank]; omega) running
      next seen =>
        have counted := whole seen
        refine ⟨_, _, rfl, .inl ⟨rfl, ?_⟩⟩
        exact continue_scan { scan with runLen := scan.runLen + _ }
          (allocator.scanRank (.probing scan)) wanted total longer
          (by simp only [scanRank]; omega) running
  | claiming scan =>
    obtain ⟨wanted, room, free⟩ := scanning
    obtain ⟨_, marks⟩ := mark_range_some placed room
    have unused := (run_free_iff allocator scan.pages scan.candidate).mp free
    have takes := mark_range_takes placed room unused marks
    subst wanted
    simp only [guestSection, if_pos free, marks]
    exact ⟨_, _, rfl, .inr ⟨scan.candidate, takes, rfl⟩⟩
  | finished => exact absurd running (Nat.lt_irrefl 0)

theorem guest_sections_finished (rounds : Nat) (out : Option Nat) :
    guestSections rounds allocator (.finished pages out) =
      some (allocator, .finished pages out) := by
  induction rounds with
  | zero => rfl
  | succ rounds ih => exact ih

theorem guest_sections_spec (placed : Placed allocator) (rounds : Nat) {phase : GuestPhase}
    (scanning : allocator.ScanFree pages phase) (enough : allocator.scanRank phase ≤ rounds) :
    ∃ after wanted out, guestSections rounds allocator phase = some (after, .finished wanted out) ∧
      ((after = allocator ∧ out = none) ∨ ∃ start, TakesRun allocator after start pages ∧
          out = some (allocator.frameIndexToAddr start)) := by
  induction rounds generalizing phase with
  | zero =>
    cases phase with
    | finished => exact ⟨_, _, _, rfl, .inl ⟨rfl, scanning⟩⟩
    | reading => exact absurd enough (by simp [scanRank])
    | probing => exact absurd enough (by simp [scanRank])
    | claiming => exact absurd enough (by simp [scanRank])
  | succ rounds ih =>
    by_cases running : 0 < allocator.scanRank phase
    · obtain ⟨after, _, section_, outcome⟩ := guest_section_step placed scanning running
      unfold guestSections
      rw [section_]
      rcases outcome with ⟨same, scanningNext, smaller⟩ | ⟨start, takes, finished⟩
      · subst same
        exact ih scanningNext (by omega)
      · subst finished
        exact ⟨_, _, _, guest_sections_finished _ _, .inr ⟨start, takes, rfl⟩⟩
    · cases phase with
      | finished =>
        exact ⟨_, _, _, guest_sections_finished _ _, .inl ⟨rfl, scanning⟩⟩
      | reading => exact absurd running (by simp [scanRank])
      | probing => exact absurd running (by simp [scanRank])
      | claiming => exact absurd running (by simp [scanRank])

/-- `allocate_guest_ram` returns: a run of free frames taken, or nothing. -/
theorem allocate_guest_ram_spec (placed : Placed allocator) (pages : Nat) :
    ∃ after out, allocateGuestRam allocator pages = some (after, out) ∧
      ((after = allocator ∧ out = none) ∨ ∃ start, TakesRun allocator after start pages ∧
          out = some (allocator.frameIndexToAddr start)) := by
  have scanning : allocator.ScanFree pages (.reading pages) := rfl
  obtain ⟨after, _, out, finished, outcome⟩ :=
    guest_sections_spec placed (allocator.totalFrames + 3) scanning (Nat.le_refl _)
  refine ⟨after, out, ?_, outcome⟩
  unfold allocateGuestRam
  rw [finished]

end FrameAllocator

end ViCell.Memory
