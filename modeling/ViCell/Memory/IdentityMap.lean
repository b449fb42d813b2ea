import ViCell.Memory.Regions
import ViCell.Memory.Sv39Tables

/-!
# Free frames keep the boot mapping

A frame is at home when its identity address has the entry boot gave it: kernel
read, write and execute, no user access. Stacks and grants change the entries of
frames they hold and bring them home before they give them back. Segments map
other addresses, so their frames stay at home all the time; the loader's
collision check keeps those addresses away from every frame at home.
-/

namespace ViCell.Memory

open Lib Lib.RadixTable List FrameAllocator

def homeEntry (frame : Nat) : Word := PageTableEntry.set frame Flags.kernelRwx

def AtHome (root : Nat) (machine : Machine) (frame : Nat) : Prop :=
  entryAt root machine frame = homeEntry frame

def FrameAllocator.frameAt (allocator : FrameAllocator) (idx : Nat) : Nat :=
  allocator.memoryStart + idx * pageSize

theorem FrameAllocator.SameRegion.frame_at {before after : FrameAllocator}
    (region : before.SameRegion after) (idx : Nat) : after.frameAt idx = before.frameAt idx := by
  unfold frameAt
  rw [region.start]

/-- A frame of the region that the bitmap's pages are not in. -/
def Taken (allocator : FrameAllocator) (frame : Nat) : Prop :=
  ∃ idx, allocator.bitmapPages ≤ idx ∧ allocator.isFrameAllocated idx = true ∧
    frame = allocator.frameAt idx

theorem Taken.mono {before after : FrameAllocator} {frame : Nat} (taken : Taken before frame)
    (region : before.SameRegion after) (keeps : ∀ idx, before.isFrameAllocated idx = true →
      after.isFrameAllocated idx = true) : Taken after frame := by
  obtain ⟨idx, behind, allocated, same⟩ := taken
  refine ⟨idx, ?_, keeps idx allocated, same.trans (region.frame_at idx).symm⟩
  rw [region.pages]
  exact behind

theorem Taken.gives {allocator : FrameAllocator} {frame : Nat} (taken : Taken allocator frame)
    (placed : allocator.Placed) : ∃ freed, allocator.bitmapPages ≤ freed ∧
      allocator.isFrameAllocated freed = true ∧ frame = allocator.frameAt freed ∧
        allocator.GivesBack (allocator.deallocateFrame frame) freed := by
  obtain ⟨freed, behind, allocated, rfl⟩ := taken
  exact ⟨freed, behind, allocated, rfl, deallocate_frame_spec placed (allocated_inside allocated)⟩

/-- Free frames and segment frames are at home. `held` are the frames of stacks
and grants, whose entries may be anything; `pages` are the segment pages. -/
structure HomeKept (root : Nat) (machine : Machine) (held : List Nat)
    (pages : List MappedPage) : Prop where
  paged : Paged root machine
  covered : ∀ idx, idx < machine.allocator.totalFrames →
    (tableOf root machine (machine.allocator.frameAt idx)).isSome
  free : ∀ idx, idx < machine.allocator.totalFrames →
    machine.allocator.isFrameAllocated idx = false →
    AtHome root machine (machine.allocator.frameAt idx)
  resting : ∀ page ∈ pages, AtHome root machine page.frame
  moved : ∀ page ∈ pages, page.va ≠ page.frame ∧ pageSize ∣ page.va ∧ page.va < 2 ^ 38
  owned : ∀ frame ∈ held ++ pages.map MappedPage.frame, Taken machine.allocator frame
  apart : ∀ frame ∈ held ++ pages.map MappedPage.frame,
    Fresh sv39Format machine.memory (kernelRoot root) frame 512
  distinct : (held ++ pages.map MappedPage.frame).Nodup

variable {root : Nat} {machine after : Machine} {held : List Nat} {pages : List MappedPage}

theorem frame_at_dvd (placed : machine.allocator.Placed) (idx : Nat) :
    pageSize ∣ machine.allocator.frameAt idx :=
  Nat.dvd_add placed.aligned (Nat.dvd_mul_left _ _)

theorem frame_at_low (paged : Paged root machine) {idx : Nat}
    (inside : idx < machine.allocator.totalFrames) :
    machine.allocator.frameAt idx < 2 ^ 38 := by
  have extent := paged.placed.extent
  have low := paged.low
  unfold frameAt
  unfold pageSize at extent ⊢
  omega

theorem taken_low (paged : Paged root machine) {frame : Nat} (taken : Taken machine.allocator frame) :
    frame < 2 ^ 38 ∧ pageSize ∣ frame := by
  obtain ⟨idx, _, allocated, same⟩ := taken
  rw [same]
  exact ⟨frame_at_low paged (allocated_inside allocated), frame_at_dvd paged.placed idx⟩

theorem frame_at_injective {allocator : FrameAllocator} {i j : Nat}
    (same : allocator.frameAt i = allocator.frameAt j) : i = j := by
  unfold frameAt pageSize at same
  omega

theorem page_eq_of_same {left right : Nat} (leftLow : left < 2 ^ 38) (rightLow : right < 2 ^ 39)
    (leftAligned : pageSize ∣ left) (rightAligned : pageSize ∣ right)
    (same : SameVpns left right) : left = right := by
  rw [same_vpns_iff (by omega) (by omega)] at same
  rw [← Nat.div_mul_cancel leftAligned, ← Nat.div_mul_cancel rightAligned, same]

/-- Addresses at which no frame is that must stay at home. -/
structure Stray (machine : Machine) (pages : List MappedPage) (virt : Nat) : Prop where
  free : ∀ idx, idx < machine.allocator.totalFrames →
    machine.allocator.isFrameAllocated idx = false → machine.allocator.frameAt idx ≠ virt
  resting : ∀ page ∈ pages, page.frame ≠ virt

theorem HomeKept.held_stray (kept : HomeKept root machine held pages) {frame : Nat}
    (mem : frame ∈ held) : Stray machine pages frame where
  free := by
    intro idx inside unused same
    obtain ⟨_, _, taken, place⟩ := kept.owned frame (mem_append_left _ mem)
    rw [place] at same
    rw [frame_at_injective same, taken] at unused
    cases unused
  resting := by
    intro page listed same
    have apart := disjoint_of_nodup_append kept.distinct
    exact apart mem (same ▸ mem_map_of_mem listed)

/-- A taken frame that held no table holds none later: tables are added in
frames that were free. -/
theorem fresh_advances (advances : Advances root machine after) {frame : Nat}
    (taken : Taken machine.allocator frame)
    (fresh : Fresh sv39Format machine.memory (kernelRoot root) frame 512) :
    Fresh sv39Format after.memory (kernelRoot root) frame 512 := by
  rintro ⟨⟩ path table fits found
  rcases advances.origin path table fits found with old | ⟨idx, free, same⟩
  · exact fresh () path table fits old
  · obtain ⟨other, _, allocated, place⟩ := taken
    have ne : idx ≠ other := by
      intro equal
      rw [equal, allocated] at free
      cases free
    have bytes : extent sv39Format path = pageSize := (by decide : 8 * 512 = pageSize)
    rw [bytes, same, place]
    unfold frameAt pageSize
    omega

section

variable (kept : HomeKept root machine held pages)
include kept

theorem HomeKept.sets {virt : Nat}
    (paged : Paged root after) (advances : Advances root machine after)
    (entries : ∀ other, ¬ SameVpns other virt → entryAt root after other = entryAt root machine other)
    (low : virt < 2 ^ 39) (aligned : pageSize ∣ virt) (stray : Stray machine pages virt) :
    HomeKept root after held pages where
  paged := paged
  covered := by
    intro idx inside
    rw [advances.region.frames] at inside
    obtain ⟨table, found⟩ := Option.isSome_iff_exists.mp (kept.covered idx inside)
    rw [advances.region.frame_at, Option.isSome_iff_exists]
    exact ⟨table, advances.kept _ table (vpns_fit _) found⟩
  free := by
    intro idx inside unused
    rw [advances.region.frames] at inside
    have was := free_before advances.keeps unused
    have elsewhere : ¬ SameVpns (machine.allocator.frameAt idx) virt := by
      intro same
      exact stray.free idx inside was (page_eq_of_same (frame_at_low kept.paged inside) low
        (frame_at_dvd kept.paged.placed idx) aligned same)
    rw [advances.region.frame_at]
    exact (entries _ elsewhere).trans (kept.free idx inside was)
  resting := by
    intro page listed
    have place := taken_low kept.paged
      (kept.owned page.frame (mem_append_right _ (mem_map_of_mem listed)))
    have elsewhere : ¬ SameVpns page.frame virt := by
      intro same
      exact stray.resting page listed (page_eq_of_same place.1 low place.2 aligned same)
    exact (entries _ elsewhere).trans (kept.resting page listed)
  moved := kept.moved
  owned := fun frame mem => (kept.owned frame mem).mono advances.region advances.keeps
  apart := fun frame mem => fresh_advances advances
    (kept.owned frame mem) (kept.apart frame mem)
  distinct := kept.distinct

theorem HomeKept.map {virt phys : Nat} {flags : Word}
    {out : Except PageTableError Unit} (low : virt < 2 ^ 39) (aligned : pageSize ∣ virt)
    (stray : Stray machine pages virt)
    (run : PageTable.map root machine virt phys flags = (after, out)) :
    HomeKept root after held pages := by
  rcases map_spec kept.paged run with ⟨_, mapped⟩ | ⟨_, failed⟩
  · exact kept.sets mapped.paged mapped.advances mapped.sets.elsewhere low aligned stray
  · exact kept.sets failed.paged failed.advances (fun other _ => failed.entries other) low aligned
      stray

theorem HomeKept.unmap {virt : Nat}
    (low : virt < 2 ^ 39) (aligned : pageSize ∣ virt) (stray : Stray machine pages virt) :
    HomeKept root (PageTable.unmap root machine virt) held pages := by
  obtain ⟨paged, advances, sets, _⟩ := unmap_spec virt kept.paged rfl
  exact kept.sets paged advances sets.elsewhere low aligned stray

/-- The identity address of a frame always has a table, so mapping it there
succeeds and takes no frame. -/
theorem HomeKept.map_held {frame : Nat} {flags : Word}
    {out : Except PageTableError Unit} (mem : frame ∈ held)
    (run : PageTable.map root machine frame frame flags = (after, out)) :
    out = .ok () ∧ HomeKept root after held pages ∧ after.allocator = machine.allocator ∧
      entryAt root after frame = PageTableEntry.set frame (toRiscvFlags flags) := by
  have taken := kept.owned frame (mem_append_left _ mem)
  have place := taken_low kept.paged taken
  obtain ⟨idx, _, allocated, same⟩ := taken
  have covered := kept.covered idx (allocated_inside allocated)
  rw [← same] at covered
  rcases map_spec kept.paged run with ⟨isOk, mapped⟩ | ⟨_, failed⟩
  · exact ⟨isOk, kept.map (by omega) place.2 (kept.held_stray mem) run, mapped.quiet covered,
      mapped.sets.here frame ⟨rfl, rfl⟩⟩
  · rw [failed.missing] at covered
    cases covered

theorem HomeKept.unmap_held {frame : Nat} (mem : frame ∈ held) :
    HomeKept root (PageTable.unmap root machine frame) held pages ∧
      (PageTable.unmap root machine frame).allocator = machine.allocator := by
  have place := taken_low kept.paged (kept.owned frame (mem_append_left _ mem))
  obtain ⟨_, _, _, quiet⟩ := unmap_spec frame kept.paged rfl
  exact ⟨kept.unmap (by omega) place.2 (kept.held_stray mem), quiet⟩

/-- `unmap` then `map` brings a held frame home, whatever its entry was. -/
theorem HomeKept.restore {frame : Nat} (mem : frame ∈ held) :
    HomeKept root (ViCell.Memory.restore root machine frame) held pages ∧
      (ViCell.Memory.restore root machine frame).allocator = machine.allocator ∧
      AtHome root (ViCell.Memory.restore root machine frame) frame := by
  obtain ⟨unmapped, quiet⟩ := kept.unmap_held mem
  obtain ⟨_, mapped, sameAllocator, entry⟩ := unmapped.map_held mem rfl
  refine ⟨mapped, sameAllocator.trans quiet, ?_⟩
  exact entry

end

theorem HomeKept.fewer (kept : HomeKept root machine held pages) {otherHeld : List Nat}
    {otherPages : List MappedPage} (heldFewer : otherHeld.Subperm held)
    (pagesFewer : otherPages.Subperm pages) : HomeKept root machine otherHeld otherPages := by
  have frames : (otherHeld ++ otherPages.map MappedPage.frame).Subperm
      (held ++ pages.map MappedPage.frame) := by
    obtain ⟨_, order, inside⟩ := pagesFewer
    exact heldFewer.append ⟨_, order.map _, inside.map _⟩
  exact {
    paged := kept.paged
    covered := kept.covered
    free := kept.free
    resting := fun page mem => kept.resting page (pagesFewer.subset mem)
    moved := fun page mem => kept.moved page (pagesFewer.subset mem)
    owned := fun frame mem => kept.owned frame (frames.subset mem)
    apart := fun frame mem => kept.apart frame (frames.subset mem)
    distinct := by
      obtain ⟨_, order, inside⟩ := frames
      exact order.nodup_iff.mp (kept.distinct.sublist inside) }

def runFrames (allocator : FrameAllocator) (start count : Nat) : List Nat :=
  (range count).map (fun i => allocator.frameAt (start + i))

theorem mem_run_frames {allocator : FrameAllocator} {start count frame : Nat} :
    frame ∈ runFrames allocator start count ↔
      ∃ idx, start ≤ idx ∧ idx < start + count ∧ frame = allocator.frameAt idx := by
  unfold runFrames
  rw [mem_map]
  constructor
  · rintro ⟨i, inside, rfl⟩
    exact ⟨start + i, by omega, by have := mem_range.mp inside; omega, rfl⟩
  · rintro ⟨idx, above, below, rfl⟩
    exact ⟨idx - start, mem_range.mpr (by omega), by congr 1; omega⟩

theorem run_frames_nodup (allocator : FrameAllocator) (start count : Nat) :
    (runFrames allocator start count).Nodup := by
  apply List.Nodup.map
  · intro i j same
    have := frame_at_injective same
    omega
  · exact nodup_range

theorem free_behind_bitmap (placed : machine.allocator.Placed) {idx : Nat}
    (free : machine.allocator.isFrameAllocated idx = false) :
    machine.allocator.bitmapPages ≤ idx := by
  by_contra reserved
  rw [placed.reserved idx (by omega)] at free
  cases free

section Take

variable {allocator : FrameAllocator} {start count : Nat}

variable (takes : machine.allocator.TakesRun allocator start count)
include takes

theorem taken_run (placed : machine.allocator.Placed) {frame : Nat}
    (mem : frame ∈ runFrames machine.allocator start count) : Taken allocator frame := by
  obtain ⟨idx, above, below, same⟩ := mem_run_frames.mp mem
  have free := takes.free idx above below
  refine ⟨idx, ?_, ?_, same.trans (takes.region.frame_at idx).symm⟩
  · rw [takes.region.pages]
    exact free_behind_bitmap placed free
  · rw [takes.taken]
    simp [above, below]

theorem run_apart {frame : Nat} (mem : frame ∈ runFrames machine.allocator start count) :
    ¬ Taken machine.allocator frame := by
  rintro ⟨other, _, taken, same⟩
  obtain ⟨idx, above, below, place⟩ := mem_run_frames.mp mem
  rw [place] at same
  rw [← frame_at_injective same, takes.free idx above below] at taken
  cases taken

theorem HomeKept.take (kept : HomeKept root machine held pages) :
    HomeKept root { machine with allocator := allocator } held pages where
  paged := ⟨takes.placed kept.paged.placed, takes.region.finish ▸ kept.paged.low,
      kept.paged.tables.mono takes.region (takes_keeps takes)⟩
  covered := by
    intro idx inside
    have covered := kept.covered idx (takes.region.frames ▸ inside)
    rw [← takes.region.frame_at idx] at covered
    exact covered
  free := by
    intro idx inside unused
    have home := kept.free idx (takes.region.frames ▸ inside)
      (free_before (takes_keeps takes) unused)
    rw [← takes.region.frame_at idx] at home
    exact home
  resting := kept.resting
  moved := kept.moved
  owned := fun frame mem => (kept.owned frame mem).mono takes.region (takes_keeps takes)
  apart := kept.apart
  distinct := kept.distinct

theorem run_fresh (paged : Paged root machine) {frame : Nat}
    (mem : frame ∈ runFrames machine.allocator start count) :
    Fresh sv39Format machine.memory (kernelRoot root) frame 512 := by
  obtain ⟨_, _, _, same⟩ := mem_run_frames.mp mem
  rw [same]
  apply paged.tables.fresh _ (fun _ => (by decide : 0 < 512)) Nat.one_pos (by decide)
  intro other first last
  exact takes.free other (by omega) (by omega)

theorem HomeKept.take_held (kept : HomeKept root machine held pages) :
    HomeKept root { machine with allocator := allocator }
      (runFrames machine.allocator start count ++ held) pages := by
  have taken := kept.take takes
  refine { taken with owned := ?_, apart := ?_, distinct := ?_ }
  · intro frame mem
    rw [append_assoc, mem_append] at mem
    rcases mem with new | old
    · exact taken_run takes kept.paged.placed new
    · exact taken.owned frame old
  · intro frame mem
    rw [append_assoc, mem_append] at mem
    rcases mem with new | old
    · exact run_fresh takes kept.paged new
    · exact taken.apart frame old
  · rw [append_assoc]
    apply List.Nodup.append (run_frames_nodup _ _ _) kept.distinct
    intro frame new old
    exact run_apart takes new (kept.owned frame old)

end Take

theorem HomeKept.give (kept : HomeKept root machine held pages) {frame : Nat}
    (taken : Taken machine.allocator frame) (home : AtHome root machine frame)
    (fresh : Fresh sv39Format machine.memory (kernelRoot root) frame 512)
    (alone : frame ∉ held ++ pages.map MappedPage.frame) :
    HomeKept root (deallocate machine frame) held pages := by
  obtain ⟨freed, behind, _, same, gives⟩ := taken.gives kept.paged.placed
  have sameFrame := gives.region.frame_at
  refine ⟨⟨gives.placed kept.paged.placed behind, ?_, ?_⟩, ?_, ?_, kept.resting, kept.moved, ?_,
    kept.apart, kept.distinct⟩
  · exact gives.region.finish ▸ kept.paged.low
  · exact kept.paged.tables.give gives (by decide) (same ▸ fresh)
  · intro idx within
    have covered := kept.covered idx (gives.region.frames ▸ within)
    rw [← sameFrame idx] at covered
    exact covered
  · intro idx within unused
    have was : idx < machine.allocator.totalFrames := gives.region.frames ▸ within
    change AtHome root machine ((machine.allocator.deallocateFrame frame).frameAt idx)
    rw [sameFrame]
    by_cases isFreed : idx = freed
    · rw [isFreed, ← same]
      exact home
    · apply kept.free idx was
      have released : (machine.allocator.deallocateFrame frame).isFrameAllocated idx = false :=
        unused
      rw [gives.taken] at released
      simpa [isFreed] using released
  · intro other mem
    obtain ⟨idx, otherBehind, otherAllocated, otherSame⟩ := kept.owned other mem
    have ne : idx ≠ freed := by
      intro equal
      rw [equal, ← same] at otherSame
      exact alone (otherSame ▸ mem)
    refine ⟨idx, ?_, ?_, ?_⟩
    · change (machine.allocator.deallocateFrame frame).bitmapPages ≤ idx
      rw [gives.region.pages]
      exact otherBehind
    · change (machine.allocator.deallocateFrame frame).isFrameAllocated idx = true
      rw [gives.taken, otherAllocated]
      simp [ne]
    · change other = (machine.allocator.deallocateFrame frame).frameAt idx
      rw [sameFrame]
      exact otherSame

theorem HomeKept.give_held {frame : Nat} (kept : HomeKept root machine (frame :: held) pages)
    (home : AtHome root machine frame) : HomeKept root (deallocate machine frame) held pages := by
  have fewer := kept.fewer (sublist_cons_self frame held).subperm (Subperm.refl pages)
  have ne := kept.distinct
  rw [cons_append, nodup_cons] at ne
  exact fewer.give (kept.owned frame (by simp)) home (kept.apart frame (by simp)) ne.1

theorem HomeKept.give_page {page : MappedPage} (kept : HomeKept root machine held (page :: pages)) :
    HomeKept root (deallocate machine page.frame) held pages := by
  have fewer := kept.fewer (Subperm.refl held) (sublist_cons_self page pages).subperm
  have ne := kept.distinct
  rw [map_cons, nodup_middle, nodup_cons] at ne
  exact fewer.give (kept.owned page.frame (by simp)) (kept.resting page (by simp))
    (kept.apart page.frame (by simp)) ne.1

def pagesFrom (base i count : Nat) : List Nat := (range' i count).map (pageAt base)

theorem pages_from_cons (base i count : Nat) :
    pagesFrom base i (count + 1) = pageAt base i :: pagesFrom base (i + 1) count := by
  unfold pagesFrom
  rw [range'_succ, map_cons]

theorem run_frames_eq {start count : Nat} (placed : machine.allocator.Placed)
    (inside : start + count ≤ machine.allocator.totalFrames) :
    pagesFrom (machine.allocator.frameIndexToAddr start) 0 count =
      runFrames machine.allocator start count := by
  unfold runFrames
  rw [range_eq_range']
  apply map_congr_left
  intro i mem
  have below := (mem_range'_1.mp mem).2
  have extent := placed.extent
  have addressable := placed.addressable
  rw [placed.frame_addr (by omega)]
  unfold pageAt usize frameAt
  rw [Nat.mod_eq_of_lt (by unfold pageSize at *; omega)]
  unfold pageSize
  omega

theorem HomeKept.map_run (kept : HomeKept root machine held pages) (flags : Word) (base count : Nat)
    {i : Nat} (members : ∀ frame ∈ pagesFrom base i count, frame ∈ held) :
    HomeKept root (mapRun root flags base i count machine).1 held pages ∧
      (mapRun root flags base i count machine).2 = count ∧
      (mapRun root flags base i count machine).1.allocator = machine.allocator := by
  induction count generalizing i machine with
  | zero => exact ⟨kept, rfl, rfl⟩
  | succ count ih =>
    rw [pages_from_cons] at members
    rcases run : PageTable.map root machine (pageAt base i) (pageAt base i) flags with
      ⟨next, out⟩
    obtain ⟨isOk, keptNext, quiet, _⟩ := kept.map_held (members _ (by simp)) run
    subst isOk
    obtain ⟨keptEnd, complete, quietEnd⟩ := ih keptNext (i := i + 1)
      (fun frame mem => members frame (mem_cons_of_mem _ mem))
    unfold mapRun
    rw [run]
    exact ⟨keptEnd, congrArg (· + 1) complete, quietEnd.trans quiet⟩

theorem HomeKept.release_run {rest : List Nat} (base count : Nat) {i : Nat}
    (kept : HomeKept root machine (pagesFrom base i count ++ rest) pages) :
    HomeKept root (releaseRun root base i count machine) rest pages := by
  induction count generalizing i machine with
  | zero => exact kept
  | succ count ih =>
    apply ih
    have mem : pageAt base i ∈ pageAt base i :: pagesFrom base (i + 1) count ++ rest := by simp
    obtain ⟨restored, _, home⟩ := kept.restore mem
    exact restored.give_held home

theorem HomeKept.release_run_frees {rest : List Nat} (base count : Nat) {i : Nat}
    (kept : HomeKept root machine (pagesFrom base i count ++ rest) pages) :
    machine.allocator.SameRegion (releaseRun root base i count machine).allocator ∧
      ∀ idx, (releaseRun root base i count machine).allocator.isFrameAllocated idx =
        (machine.allocator.isFrameAllocated idx &&
          decide (machine.allocator.frameAt idx ∉ pagesFrom base i count)) := by
  induction count generalizing i machine with
  | zero =>
    refine ⟨⟨rfl, rfl, rfl, rfl⟩, ?_⟩
    simp [releaseRun, pagesFrom]
  | succ count ih =>
    rw [pages_from_cons] at kept ⊢
    have mem : pageAt base i ∈ pageAt base i :: pagesFrom base (i + 1) count ++ rest := by simp
    obtain ⟨restored, quiet, home⟩ := kept.restore mem
    obtain ⟨freed, _, _, same, gives⟩ :=
      (kept.owned (pageAt base i) (by simp)).gives kept.paged.placed
    obtain ⟨region, frees⟩ := ih (restored.give_held home)
    unfold releaseRun
    have next : (deallocate (ViCell.Memory.restore root machine (pageAt base i))
        (pageAt base i)).allocator = machine.allocator.deallocateFrame (pageAt base i) := by
      unfold deallocate
      rw [quiet]
    rw [next] at region frees
    refine ⟨gives.region.trans region, ?_⟩
    intro idx
    have here : idx = freed ↔ machine.allocator.frameAt idx = pageAt base i := by
      rw [same]
      exact ⟨fun equal => by rw [equal], frame_at_injective⟩
    rw [frees, gives.taken, gives.region.frame_at, Bool.and_assoc, ← Bool.decide_and]
    congr 2
    rw [mem_cons, not_or, ne_eq, here]

end ViCell.Memory
