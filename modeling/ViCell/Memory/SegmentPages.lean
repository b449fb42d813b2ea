import ViCell.Memory.IdentityMap

/-!
# Loading and unloading segments

The loader maps a page only where nothing translates, so never at the address of
a frame at home. While it loads, the pages it has mapped so far stay away from
every free frame and every segment frame; that is what makes its unconditional
unmapping on a collision harmless. A finished cell's pages give no such promise
later, and there the code checks that an address still resolves to its frame.
-/

namespace ViCell.Memory

open Lib Lib.RadixTable List Option FrameAllocator PageTableEntry

variable {root : Nat} {machine after : Machine} {held : List Nat} {pages : List MappedPage}

theorem translate_home {frame : Nat} (paged : Paged root machine)
    (home : AtHome root machine frame) (low : frame < 2 ^ 38) (aligned : pageSize ∣ frame) :
    PageTable.translate root machine frame = some frame := by
  have small : Flags.kernelRwx.toNat < 2 ^ 10 := by decide
  have addr : frame < 2 ^ 64 := by omega
  have offset : frame % pageSize = 0 := Nat.mod_eq_zero_of_dvd aligned
  have leaf : (isValid (homeEntry frame) &&
      isLeaf (homeEntry frame)) = true := by
    unfold homeEntry
    rw [is_valid_set addr small, is_leaf_set addr small]
    decide
  rw [translate_spec frame paged, home, translation, if_pos leaf, offset, Nat.or_zero]
  exact congrArg some (to_phys_set addr aligned small)

variable {virt : Nat}

theorem HomeKept.untranslated_stray (kept : HomeKept root machine held pages)
    (nothing : PageTable.translate root machine virt = none) : Stray machine pages virt where
  free := by
    intro idx inside unused same
    have there := translate_home kept.paged (kept.free idx inside unused)
      (frame_at_low kept.paged inside) (frame_at_dvd kept.paged.placed idx)
    rw [same, nothing] at there
    cases there
  resting := by
    intro page listed same
    have place := taken_low kept.paged
      (kept.owned page.frame (mem_append_right _ (mem_map_of_mem listed)))
    have there := translate_home kept.paged (kept.resting page listed) place.1 place.2
    rw [same, nothing] at there
    cases there

theorem Stray.advances (stray : Stray machine pages virt)
    (region : machine.allocator.SameRegion after.allocator)
    (keeps : ∀ idx, machine.allocator.isFrameAllocated idx = true →
      after.allocator.isFrameAllocated idx = true) : Stray after pages virt where
  free := by
    intro idx inside unused same
    rw [region.frame_at] at same
    exact stray.free idx (region.frames ▸ inside) (free_before keeps unused) same
  resting := stray.resting

theorem HomeKept.unmap_own (kept : HomeKept root machine held pages) {page : MappedPage}
    (listed : page ∈ pages) : HomeKept root (CellSegments.unmapOwn root machine page) held pages := by
  unfold CellSegments.unmapOwn
  split
  next resolves =>
    obtain ⟨moved, aligned, _⟩ := kept.moved page listed
    refine kept.unmap (by omega) aligned ⟨?_, ?_⟩
    · intro idx inside unused same
      have there := translate_home kept.paged (kept.free idx inside unused)
        (frame_at_low kept.paged inside) (frame_at_dvd kept.paged.placed idx)
      rw [same, resolves] at there
      exact moved (some.inj there).symm
    · intro other otherListed same
      have place := taken_low kept.paged
        (kept.owned other.frame (mem_append_right _ (mem_map_of_mem otherListed)))
      have there := translate_home kept.paged (kept.resting other otherListed) place.1 place.2
      rw [same, resolves] at there
      exact moved (some.inj there).symm
  next => exact kept

theorem HomeKept.eager_unmap (kept : HomeKept root machine held pages) (own : List MappedPage)
    (listed : ∀ page ∈ own, page ∈ pages) :
    HomeKept root (CellSegments.eagerUnmap root own machine) held pages := by
  induction own generalizing machine with
  | nil => exact kept
  | cons page rest ih =>
    apply ih
    · exact kept.unmap_own (listed page (by simp))
    · intro other mem
      exact listed other (by simp [mem])

theorem HomeKept.drop_segments (own : List MappedPage)
    (kept : HomeKept root machine held (own ++ pages)) :
    HomeKept root (CellSegments.drop root own machine) held pages := by
  induction own generalizing machine with
  | nil => exact kept
  | cons page rest ih =>
    apply ih
    have listed : page ∈ page :: rest ++ pages := by simp
    exact (kept.unmap_own listed).give_page

/-- The pages mapped so far keep away from every frame that must be at home. -/
structure Loading (root : Nat) (machine : Machine) (held : List Nat)
    (pages loading : List MappedPage) : Prop where
  kept : HomeKept root machine held (loading ++ pages)
  avoids : ∀ page ∈ loading, Stray machine (loading ++ pages) page.va

variable {loading : List MappedPage}

theorem Stray.give {page : MappedPage} (stray : Stray machine (page :: pages) virt)
    (placed : machine.allocator.Placed) (taken : Taken machine.allocator page.frame) :
    Stray (deallocate machine page.frame) pages virt where
  free := by
    obtain ⟨freed, _, _, same, gives⟩ := taken.gives placed
    intro idx inside unused here
    have released : (machine.allocator.deallocateFrame page.frame).isFrameAllocated idx = false :=
      unused
    have addr : machine.allocator.frameAt idx = virt := (gives.region.frame_at idx).symm.trans here
    by_cases isFreed : idx = freed
    · rw [isFreed, ← same] at addr
      exact stray.resting page (by simp) addr
    · rw [gives.taken] at released
      exact stray.free idx (gives.region.frames ▸ inside) (by simpa [isFreed] using released)
        addr
  resting := fun other listed => stray.resting other (mem_cons_of_mem _ listed)

section

variable (state : Loading root machine held pages loading)
include state

theorem Loading.dropped : HomeKept root machine held pages :=
  state.kept.fewer (Subperm.refl held) (sublist_append_right loading pages).subperm

theorem Loading.unwind : HomeKept root (ElfLoader.unwind root loading machine) held pages := by
  induction loading generalizing machine with
  | nil => exact state.kept
  | cons page rest ih =>
    apply ih
    have stray := state.avoids page (by simp)
    obtain ⟨_, aligned, _⟩ := state.kept.moved page (by simp)
    have unmapped := state.kept.unmap (by omega) aligned stray
    obtain ⟨_, advances, _, _⟩ := unmap_spec page.va state.kept.paged rfl
    refine ⟨unmapped.give_page, ?_⟩
    intro other mem
    have otherStray := (state.avoids other (by simp [mem])).advances advances.region
      advances.keeps
    exact otherStray.give unmapped.paged.placed (unmapped.owned page.frame (by simp))

theorem Loading.relabel
    {label : MappedPage → MappedPage} (sameVa : ∀ page, (label page).va = page.va)
    (sameFrame : ∀ page, (label page).frame = page.frame) :
    Loading root machine held pages (loading.map label) := by
  have frames : (loading.map label ++ pages).map MappedPage.frame =
      (loading ++ pages).map MappedPage.frame := by
    rw [List.map_append, List.map_append, List.map_map]
    congr 1
    apply map_congr_left
    intro page _
    exact sameFrame page
  have known : ∀ page ∈ loading.map label ++ pages, ∃ other ∈ loading ++ pages,
      page.va = other.va ∧ page.frame = other.frame := by
    intro page listed
    rcases mem_append.mp listed with relabelled | old
    · obtain ⟨other, mem, same⟩ := mem_map.mp relabelled
      refine ⟨other, mem_append_left _ mem, ?_, ?_⟩
      · rw [← same, sameVa]
      · rw [← same, sameFrame]
    · exact ⟨page, mem_append_right _ old, rfl, rfl⟩
  refine ⟨{ state.kept with resting := ?_, moved := ?_, owned := ?_, apart := ?_, distinct := ?_ },
    ?_⟩
  · intro page listed
    obtain ⟨other, mem, _, frame⟩ := known page listed
    rw [frame]
    exact state.kept.resting other mem
  · intro page listed
    obtain ⟨other, mem, va, frame⟩ := known page listed
    rw [va, frame]
    exact state.kept.moved other mem
  · rw [frames]
    exact state.kept.owned
  · rw [frames]
    exact state.kept.apart
  · rw [frames]
    exact state.kept.distinct
  · intro page listed
    obtain ⟨other, mem, same⟩ := mem_map.mp listed
    have stray := state.avoids other mem
    rw [← same, sameVa]
    refine ⟨stray.free, ?_⟩
    intro third thirdListed
    obtain ⟨original, originalListed, _, frame⟩ := known third thirdListed
    rw [frame]
    exact stray.resting original originalListed

end

variable {flags : Word}

theorem Loading.map {phys : Nat} {out : Except PageTableError Unit}
    (state : Loading root machine held pages loading) (low : virt < 2 ^ 38)
    (aligned : pageSize ∣ virt) (stray : Stray machine (loading ++ pages) virt)
    (run : PageTable.map root machine virt phys flags = (after, out)) :
    Loading root after held pages loading := by
  have advances := map_advances state.kept.paged run
  refine ⟨state.kept.map (by omega) aligned stray run, ?_⟩
  intro page listed
  exact (state.avoids page listed).advances advances.region advances.keeps

variable {allocator : FrameAllocator} {idx : Nat}

theorem HomeKept.take_page (kept : HomeKept root machine held pages) {page : MappedPage}
    (takes : machine.allocator.TakesRun allocator idx 1)
    (here : page.frame = machine.allocator.frameAt idx) (stray : Stray machine pages page.va)
    (aligned : pageSize ∣ page.va) (low : page.va < 2 ^ 38) :
    HomeKept root { machine with allocator := allocator } held (page :: pages) := by
  have taken := kept.take takes
  have room := takes.inside
  have unused := takes.free idx (Nat.le_refl _) (Nat.lt_succ_self _)
  have mem : page.frame ∈ runFrames machine.allocator idx 1 :=
    mem_run_frames.mpr ⟨idx, Nat.le_refl _, Nat.lt_succ_self _, here⟩
  refine { taken with resting := ?_, moved := ?_, owned := ?_, apart := ?_, distinct := ?_ }
  · intro other listed
    rcases mem_cons.mp listed with same | old
    · rw [same, here]
      exact kept.free idx (by omega) unused
    · exact taken.resting other old
  · intro other listed
    rcases mem_cons.mp listed with same | old
    · rw [same]
      refine ⟨?_, aligned, low⟩
      rw [here]
      exact (stray.free idx (by omega) unused).symm
    · exact taken.moved other old
  · intro frame listed
    rw [map_cons, mem_append, mem_cons] at listed
    rcases listed with inHeld | same | inPages
    · exact taken.owned frame (mem_append_left _ inHeld)
    · rw [same]
      exact taken_run takes kept.paged.placed mem
    · exact taken.owned frame (mem_append_right _ inPages)
  · intro frame listed
    rw [map_cons, mem_append, mem_cons] at listed
    rcases listed with inHeld | same | inPages
    · exact taken.apart frame (mem_append_left _ inHeld)
    · rw [same]
      exact run_fresh takes kept.paged mem
    · exact taken.apart frame (mem_append_right _ inPages)
  · rw [map_cons, nodup_middle, nodup_cons]
    refine ⟨?_, kept.distinct⟩
    intro known
    exact run_apart takes mem (kept.owned page.frame known)

/-- What one page, one segment or the whole loader leaves behind. -/
def LoadOutcome (root : Nat) (held : List Nat) (pages : List MappedPage) (after : Machine) :
    Except ViError (List MappedPage) → Prop
  | .ok loaded => Loading root after held pages loaded
  | .error _ => HomeKept root after held pages

theorem Loading.share {page : MappedPage} {shared : Machine × List MappedPage}
    (state : Loading root machine held pages loading) (listed : page ∈ loading)
    (run : ElfLoader.sharePage root flags machine loading page = some shared) :
    Loading root shared.1 held pages shared.2 := by
  unfold ElfLoader.sharePage at run
  split at run
  next => cases run
  next phys resolves =>
    dsimp only at run
    split at run
    next =>
      cases run
      exact state
    next =>
      cases run
      obtain ⟨_, aligned, low⟩ := state.kept.moved page (by simp [listed])
      rcases mapping : PageTable.map root machine page.va phys (page.flags ||| flags) with
        ⟨mapped, out⟩
      have mappedState := state.map low aligned (state.avoids page listed) mapping
      apply mappedState.relabel
      all_goals
        intro other
        split <;> rfl

theorem Stray.take {page : MappedPage} (stray : Stray machine pages virt)
    (takes : machine.allocator.TakesRun allocator idx 1)
    (here : page.frame = machine.allocator.frameAt idx) :
    Stray { machine with allocator := allocator } (page :: pages) virt where
  free := by
    have advanced : Stray { machine with allocator := allocator } pages virt :=
      stray.advances takes.region (takes_keeps takes)
    exact advanced.free
  resting := by
    intro other listed
    rcases mem_cons.mp listed with same | old
    · have room := takes.inside
      rw [same, here]
      exact stray.free idx (by omega) (takes.free idx (Nat.le_refl _) (Nat.lt_succ_self _))
    · exact stray.resting other old

theorem Loading.take (page : MappedPage) (state : Loading root machine held pages loading)
    (takes : machine.allocator.TakesRun allocator idx 1)
    (here : page.frame = machine.allocator.frameAt idx)
    (stray : Stray machine (loading ++ pages) page.va) (aligned : pageSize ∣ page.va)
    (low : page.va < 2 ^ 38) :
    Loading root { machine with allocator := allocator } held pages (loading ++ [page]) := by
  have order : (page :: (loading ++ pages)).Perm (loading ++ [page] ++ pages) := by
    rw [append_assoc]
    exact perm_middle.symm
  have taken := state.kept.take_page takes here stray aligned low
  refine ⟨taken.fewer (Subperm.refl held) order.symm.subperm, ?_⟩
  intro other listed
  have avoids : Stray machine (loading ++ pages) other.va := by
    rcases mem_append.mp listed with old | new
    · exact state.avoids other old
    · rw [mem_singleton.mp new]
      exact stray
  have later := avoids.take takes here
  exact ⟨later.free, fun third known => later.resting third (order.mem_iff.mpr known)⟩

variable {out : Except ViError (List MappedPage)}

theorem Loading.page {current : Nat} (state : Loading root machine held pages loading)
    (aligned : pageSize ∣ current) (low : current < 2 ^ 38)
    (run : ElfLoader.loadPage root flags machine loading current = some (after, out)) :
    LoadOutcome root held pages after out := by
  unfold ElfLoader.loadPage at run
  split at run
  next page found =>
    obtain ⟨_, sharing, same⟩ := map_eq_some_iff.mp run
    cases same
    exact state.share (mem_of_find?_eq_some found) sharing
  next =>
    split at run
    next =>
      cases run
      exact state.unwind
    next nothing =>
      rw [not_isSome_iff_eq_none] at nothing
      have stray := state.kept.untranslated_stray nothing
      rcases allocated : machine.allocator.allocateFrame with ⟨allocator, handed⟩
      rw [allocated] at run
      rcases allocate_frame_spec state.kept.paged.placed allocated with
        ⟨idx, takes, isSome⟩ | ⟨unchanged, isNone, _⟩
      · have inside : idx < machine.allocator.totalFrames := by
          have room := takes.inside
          omega
        rw [state.kept.paged.placed.frame_addr inside] at isSome
        subst isSome
        simp only at run
        have taken := state.take
          { va := current, frame := machine.allocator.frameAt idx, flags := flags }
          takes rfl stray aligned low
        have avoids := taken.avoids
          { va := current, frame := machine.allocator.frameAt idx, flags := flags } (by simp)
        rcases mapping : PageTable.map root { machine with allocator := allocator } current
          (machine.allocator.frameAt idx) flags with ⟨mapped, outcome⟩
        have mappedState := taken.map low aligned avoids mapping
        have mappingHere : PageTable.map root { machine with allocator := allocator } current
          (machine.allocator.memoryStart + idx * pageSize) flags = (mapped, outcome) := mapping
        rw [mappingHere] at run
        cases outcome with
        | error =>
          cases run
          exact mappedState.dropped
        | ok =>
          cases run
          exact mappedState
      · subst unchanged isNone
        cases run
        exact state.dropped

theorem Loading.pages_loop (count : Nat) {current : Nat}
    (state : Loading root machine held pages loading) (aligned : pageSize ∣ current)
    (low : current + count * pageSize ≤ 2 ^ 38)
    (run : ElfLoader.loadPages root flags count current machine loading = some (after, out)) :
    LoadOutcome root held pages after out := by
  induction count generalizing current machine loading with
  | zero =>
    cases run
    exact state
  | succ count ih =>
    have here : current < 2 ^ 38 := by
      unfold pageSize at low
      omega
    unfold ElfLoader.loadPages at run
    split at run
    next => cases run
    next next error loadingPage =>
      cases run
      exact state.page aligned here loadingPage
    next next loaded loadingPage =>
      have nextState : Loading root next held pages loaded := state.page aligned here loadingPage
      refine ih nextState (Nat.dvd_add aligned (Nat.dvd_refl _)) ?_ run
      rw [Nat.succ_mul] at low
      omega

variable {dataLen : Nat}

theorem check_header_ok {first count : Nat} {header : ProgramHeader}
    (accepted : ElfLoader.checkHeader dataLen header = .ok (first, count)) :
    first * pageSize + count * pageSize ≤ 2 ^ 38 := by
  unfold ElfLoader.checkHeader at accepted
  split at accepted
  next => cases accepted
  next =>
    split at accepted
    next => cases accepted
    next =>
      split at accepted
      next => cases accepted
      next =>
        split at accepted
        next => cases accepted
        next =>
          split at accepted
          next => cases accepted
          next inside =>
            cases accepted
            unfold userVaddrMax at inside
            unfold pageSize
            omega

theorem Loading.headers (headers : List ProgramHeader)
    (state : Loading root machine held pages loading)
    (run : ElfLoader.loadHeaders root dataLen headers machine loading = some (after, out)) :
    LoadOutcome root held pages after out := by
  induction headers generalizing machine loading with
  | nil =>
    cases run
    exact state
  | cons header rest ih =>
    unfold ElfLoader.loadHeaders at run
    split at run
    next =>
      cases run
      exact state.dropped
    next first count accepted =>
      have low := check_header_ok accepted
      have aligned : pageSize ∣ first * pageSize := Nat.dvd_mul_left _ _
      split at run
      next => cases run
      next next error loadingPages =>
        cases run
        exact state.pages_loop count aligned low loadingPages
      next next loaded loadingPages =>
        have nextState : Loading root next held pages loaded :=
          state.pages_loop count aligned low loadingPages
        exact ih nextState run

theorem HomeKept.load_segments {headers : List ProgramHeader}
    (kept : HomeKept root machine held pages)
    (run : ElfLoader.loadSegments root dataLen headers machine = some (after, out)) :
    LoadOutcome root held pages after out := by
  have start : Loading root machine held pages [] := ⟨kept, fun page mem => absurd mem not_mem_nil⟩
  exact start.headers headers run

end ViCell.Memory
