import ViCell.Hypervisor.Registry
import ViCell.Hypervisor.Tables

/-!
# Building a VM's table

`create_vm` builds a table under a key that no registered VM uses. While it
builds, every frame it holds is one that was free when the call started; so if
it gives up, dropping the table frees no frame of another table.
-/

namespace ViCell.Hypervisor

open Lib Lib.RadixTable Memory Function List FrameAllocator

namespace Stage2Table

def frames (table : Stage2Table) : List Nat :=
  table.subFrames ++ [table.rootPa, usize (table.rootPa + pageSize)] ++
    (range table.guestRamPages).map (fun i => usize (table.guestRamPa + i * pageSize))

theorem drop_allocator (table : Stage2Table) (machine : Machine) :
    (table.drop machine).allocator = table.frames.foldl deallocateFrame machine.allocator := by
  unfold frames
  rw [foldl_append, foldl_append, foldl_map]
  rfl

end Stage2Table

structure Keeps (before after : FrameAllocator) : Prop where
  region : before.SameRegion after
  placed : after.Placed
  allocated : ∀ idx, before.isFrameAllocated idx = true → after.isFrameAllocated idx = true

def FreeIn (before : FrameAllocator) (frame : Nat) : Prop :=
  ∃ idx, idx < before.totalFrames ∧ before.isFrameAllocated idx = false ∧
    frame = before.memoryStart + idx * pageSize

variable {before after : FrameAllocator}

theorem keeps_deallocate {frame : Nat} (placed : before.Placed) (keeps : Keeps before after)
    (free : FreeIn before frame) : Keeps before (after.deallocateFrame frame) := by
  obtain ⟨idx, inside, unused, same⟩ := free
  rw [← keeps.region.frames] at inside
  rw [← keeps.region.start] at same
  subst same
  have gives := deallocate_frame_spec keeps.placed inside
  have still : ∀ other, before.isFrameAllocated other = true →
      (after.deallocateFrame (after.memoryStart + idx * pageSize)).isFrameAllocated other = true := by
    intro other taken
    have ne : other ≠ idx := by
      intro equal
      rw [equal, unused] at taken
      cases taken
    rw [gives.taken, keeps.allocated other taken]
    simp [ne]
  refine ⟨keeps.region.trans gives.region, ?_, still⟩
  apply keeps.placed.of_same gives.region
  · rw [gives.hint, gives.region.frames]
    exact keeps.placed.hint
  · intro other reserved
    rw [keeps.region.pages] at reserved
    exact still other (placed.reserved other reserved)

theorem keeps_deallocate_all (placed : before.Placed) (keeps : Keeps before after)
    (frames : List Nat) (free : ∀ frame ∈ frames, FreeIn before frame) :
    Keeps before (frames.foldl deallocateFrame after) := by
  induction frames generalizing after with
  | nil => exact keeps
  | cons frame rest ih =>
    apply ih
    · exact keeps_deallocate placed keeps (free frame (by simp))
    · intro other mem
      exact free other (by simp [mem])

variable {start count : Nat}

theorem keeps_takes {middle : FrameAllocator} (keeps : Keeps before middle)
    (takes : middle.TakesRun after start count) :
    Keeps before after where
  region := keeps.region.trans takes.region
  placed := takes.placed keeps.placed
  allocated := fun idx allocated => takes_keeps takes idx (keeps.allocated idx allocated)

theorem keeps_refl {allocator : FrameAllocator} (placed : allocator.Placed) :
    Keeps allocator allocator :=
  ⟨⟨rfl, rfl, rfl, rfl⟩, placed, fun _ taken => taken⟩

theorem free_in_keeps {frame : Nat} (keeps : Keeps before after) (free : FreeIn after frame) :
    FreeIn before frame := by
  obtain ⟨idx, inside, unused, same⟩ := free
  rw [keeps.region.frames] at inside
  rw [keeps.region.start] at same
  exact ⟨idx, inside, free_before keeps.allocated unused, same⟩

theorem free_in_run {i : Nat} (placed : before.Placed) (takes : before.TakesRun after start count)
    (inside : i < count) :
    FreeIn before (usize (before.frameIndexToAddr start + i * pageSize)) := by
  have room := takes.inside
  refine ⟨start + i, by omega, takes.free (start + i) (by omega) (by omega), ?_⟩
  rw [placed.frame_addr (by omega)]
  have extent := placed.extent
  have addressable := placed.addressable
  unfold usize pageSize at *
  omega

/-- The two pages that the hardware reads as one root: on an 8 KiB boundary, one behind the
other, and the table's own. -/
structure RootFits (before after : FrameAllocator) (table : Stage2Table) : Prop where
  aligned : 2 * pageSize ∣ table.rootPa
  owned : ∀ i < 2, table.rootPa + i * pageSize ∈ table.frames ∧
    FreeIn before (table.rootPa + i * pageSize) ∧ ¬ FreeIn after (table.rootPa + i * pageSize)

/-- The first two free frames in a row. -/
def FirstPair (allocator : FrameAllocator) (start : Nat) : Prop :=
  allocator.runFree 2 start = true ∧ ∀ earlier < start, allocator.runFree 2 earlier = false

theorem first_pair_unique {pool : FrameAllocator} {first second : Nat}
    (isFirst : FirstPair pool first) (isSecond : FirstPair pool second) :
    first = second := by
  rcases Nat.lt_trichotomy first second with before | same | behind
  · exact absurd isFirst.1 (by rw [isSecond.2 first before]; decide)
  · exact same
  · exact absurd isSecond.1 (by rw [isFirst.2 second behind]; decide)

theorem takes_not_free {idx : Nat} (takes : before.TakesRun after start count)
    (above : start ≤ idx) (below : idx < start + count) :
    ¬ FreeIn after (before.memoryStart + idx * pageSize) := by
  rintro ⟨other, -, unused, same⟩
  have here : other = idx := by
    rw [takes.region.start] at same
    unfold pageSize at same
    omega
  rw [here, takes.taken, decide_eq_true ⟨above, below⟩, Bool.or_true] at unused
  cases unused

/-- The root is where the first two free frames are, and fits exactly if these begin on an
8 KiB boundary. -/
theorem root_fits_iff {machine after : Machine} {table : Stage2Table}
    (placed : machine.allocator.Placed)
    (run : Stage2Table.new machine = some (after, some table)) :
    RootFits machine.allocator after.allocator table ↔ ∃ start, FirstPair machine.allocator start ∧
        2 * pageSize ∣ machine.allocator.memoryStart + start * pageSize := by
  unfold Stage2Table.new at run
  split at run
  next => cases run
  next => cases run
  next allocator rootPa contiguous =>
    cases run
    rcases allocate_run_spec placed (by decide) contiguous with
      ⟨start, takes, handed, first⟩ | ⟨_, failed⟩
    · have room := takes.inside
      have place : rootPa = machine.allocator.memoryStart + start * pageSize := by
        rw [Option.some.inj handed]
        exact placed.frame_addr (by omega)
      have pair : FirstPair machine.allocator start := ⟨(run_free_iff _ _ _).mpr takes.free, first⟩
      constructor
      · intro fits
        exact ⟨start, pair, place ▸ fits.aligned⟩
      · rintro ⟨other, isFirst, aligned⟩
        rw [first_pair_unique isFirst pair, ← place] at aligned
        refine ⟨aligned, ?_⟩
        intro i inside
        have page : rootPa + i * pageSize =
            machine.allocator.memoryStart + (start + i) * pageSize := by
          rw [place, Nat.add_mul, Nat.add_assoc]
        refine ⟨?_, ?_, ?_⟩
        · have extent := placed.extent
          have addressable := placed.addressable
          have whole : usize (rootPa + pageSize) = rootPa + pageSize := by
            apply Nat.mod_eq_of_lt
            unfold pageSize at *
            omega
          have either : i = 0 ∨ i = 1 := by omega
          rcases either with rfl | rfl
          · simp [Stage2Table.frames]
          · simp [Stage2Table.frames, whole]
        · exact ⟨start + i, by omega, takes.free _ (by omega) (by omega), page⟩
        · dsimp only
          rw [page]
          exact takes_not_free takes (by omega) (by omega)
    · cases failed

def oddBoard : Machine where
  allocator := .newFromMap [{ base := 0x41000000, length := 0x9000, ty := .usable }]
  memory := fun _ => 0

theorem first_root_after_boot_odd :
    ∃ after table, Stage2Table.new oddBoard = some (after, some table) ∧
      ¬ 2 * pageSize ∣ table.rootPa :=
  ⟨_, ⟨0x41001000, [], 0, 0⟩, rfl, by decide⟩

def evenBoard : Machine where
  allocator := .newFromMap [{ base := 0x41001000, length := 0x9000, ty := .usable }]
  memory := fun _ => 0

theorem even_board_root_fits : ∃ after table, Stage2Table.new evenBoard = some (after, some table) ∧
      RootFits evenBoard.allocator after.allocator table := by
  refine ⟨_, ⟨0x41002000, [], 0, 0⟩, rfl, ?_⟩
  refine (root_fits_iff (new_from_map_placed (by decide +kernel)) rfl).mpr ?_
  exact ⟨1, ⟨by decide +kernel, by decide +kernel⟩, by decide +kernel⟩

section Grown

variable {Key : Type} [DecidableEq Key]

/-- A machine in which one more table is being built under `key`. -/
structure Grown (roots : Key → Option Nat) (key : Key) (before after : Machine)
    (table : Stage2Table) : Prop where
  sound : Sound (update roots key (some table.rootPa)) after
  keeps : Keeps before.allocator after.allocator
  frames : ∀ frame ∈ table.frames, FreeIn before.allocator frame
  others : ∀ otherKey path, otherKey ≠ key → Fits s2Format path →
    reach s2Format after.memory (update roots key (some table.rootPa)) otherKey path =
      reach s2Format before.memory roots otherKey path
  leaves : ∀ otherKey ipa, otherKey ≠ key →
    leaf (update roots key (some table.rootPa)) after otherKey ipa = leaf roots before otherKey ipa

variable {roots : Key → Option Nat} {key : Key} {before after : Machine} {table : Stage2Table}

theorem new_spec (key : Key) {out : Option Stage2Table} (sound : Sound roots before)
    (run : Stage2Table.new before = some (after, out)) :
    (after = before ∧ out = none) ∨ ∃ table, out = some table ∧ Grown roots key before after table ∧
        ∀ ipa, leaf (update roots key (some table.rootPa)) after key ipa = 0 := by
  unfold Stage2Table.new at run
  split at run
  next => cases run
  next pool contiguous =>
    cases run
    rw [allocate_contiguous_none sound.placed contiguous]
    exact .inl ⟨rfl, rfl⟩
  next pool rootPa contiguous =>
    cases run
    obtain ⟨start, takes, addr⟩ := allocate_contiguous_some sound.placed contiguous
    right
    have room := takes.inside
    have place : rootPa = before.allocator.memoryStart + start * pageSize := by
      rw [addr]
      exact sound.placed.frame_addr (by omega)
    have size : 8 * s2Format.entries 0 = 2 * pageSize := by decide
    obtain ⟨fresh, tables⟩ := sound.tables.root key takes entries_positive (by decide)
      size place
    refine ⟨_, rfl, ⟨⟨takes.placed sound.placed, ?_, tables⟩, ?_, ?_, ?_, ?_⟩, ?_⟩
    · exact takes.region.finish ▸ sound.low
    · exact keeps_takes (keeps_refl sound.placed) takes
    · intro frame mem
      have listed : frame = rootPa ∨ frame = usize (rootPa + pageSize) := by
        simpa [Stage2Table.frames] using mem
      rcases listed with first | second
      · exact ⟨start, by omega, takes.free start (by omega) (by omega), first.trans place⟩
      · have free := free_in_run (i := 1) sound.placed takes (by decide)
        rw [Nat.one_mul, ← addr, ← second] at free
        exact free
    · intro otherKey path ne fits
      exact reach_root_other fresh ne fits
    · intro otherKey ipa ne
      have read := leaf_root fresh key (by decide) otherKey (fits_ipa_path ipa) rfl
        (l3_idx_lt ipa)
      rw [if_neg ne] at read
      exact read
    · intro ipa
      have read := leaf_root fresh key (by decide) key (fits_ipa_path ipa) rfl
        (l3_idx_lt ipa)
      rw [if_pos rfl] at read
      exact read

variable {middle : Machine}

/-- `carve_guest_ram`: a run of frames that were free becomes the guest's RAM. -/
theorem grown_carve {allocator : FrameAllocator} {start pages : Nat}
    (grown : Grown roots key before middle table)
    (takes : middle.allocator.TakesRun allocator start pages) :
    Grown roots key before { middle with allocator := allocator }
      { table with
        guestRamPa := middle.allocator.frameIndexToAddr start
        guestRamPages := pages } where
  sound := ⟨takes.placed grown.sound.placed, takes.region.finish ▸ grown.sound.low,
      grown.sound.tables.mono takes.region (takes_keeps takes)⟩
  keeps := keeps_takes grown.keeps takes
  frames := by
    intro frame mem
    rcases mem_append.mp mem with own | ram
    · apply grown.frames
      exact mem_append_left _ own
    · obtain ⟨_, inside, same⟩ := mem_map.mp ram
      rw [← same]
      exact free_in_keeps grown.keeps
        (free_in_run grown.sound.placed takes (mem_range.mp inside))
  others := grown.others
  leaves := grown.leaves

omit [DecidableEq Key] in
theorem frames_extends {old new : Stage2Table} {trees : Key → Option Nat}
    (extension : Extends trees key middle after old new) {frame : Nat}
    (mem : frame ∈ new.frames) : frame ∈ old.frames ∨ FreeIn middle.allocator frame := by
  unfold Stage2Table.frames at mem ⊢
  rw [extension.root, extension.ramPa, extension.ramPages, append_assoc] at mem
  rw [append_assoc]
  rcases mem_append.mp mem with sub | rest
  · rcases extension.added frame sub with known | free
    · exact .inl (mem_append_left _ known)
    · exact .inr free
  · exact .inl (mem_append_right _ rest)

theorem grown_map (describe : Nat → Word) {pages ipa hpa : Nat} {new : Stage2Table}
    {out : Except S2MapError Unit} (grown : Grown roots key before middle table)
    (ipaSmall : ipa < 2 ^ 64) (hpaSmall : hpa < 2 ^ 64)
    (run : Stage2Table.mapPages
      (fun machine table ipa hpa => table.mapLeaf machine ipa (describe hpa))
      pages ipa hpa middle table = (after, new, out)) :
    Grown roots key before after new ∧ new.guestRamPa = table.guestRamPa ∧
      new.guestRamPages = table.guestRamPages ∧
      ∀ other,
        leaf (update roots key (some new.rootPa)) after key other =
            leaf (update roots key (some table.rootPa)) middle key other ∨
          ∃ i < pages, SamePage other (usize (ipa + i * pageSize)) ∧
            leaf (update roots key (some new.rootPa)) after key other =
              describe (usize (hpa + i * pageSize)) := by
  have rooted : update roots key (some table.rootPa) key = some table.rootPa := update_self ..
  obtain ⟨sound, extension, leaves⟩ :=
    map_pages_spec describe pages grown.sound rooted ipaSmall hpaSmall run
  rw [extension.root]
  refine ⟨⟨?_, ⟨grown.keeps.region.trans extension.region, sound.placed, ?_⟩, ?_, ?_, ?_⟩,
    extension.ramPa, extension.ramPages, ?_⟩
  · rw [extension.root]
    exact sound
  · intro idx taken
    exact extension.keeps idx (grown.keeps.allocated idx taken)
  · intro frame mem
    rcases frames_extends extension mem with known | free
    · exact grown.frames frame known
    · exact free_in_keeps grown.keeps free
  · intro otherKey path ne fits
    rw [extension.root, extension.others otherKey path ne fits]
    exact grown.others otherKey path ne fits
  · intro otherKey ipa ne
    rw [extension.root, ← grown.leaves otherKey ipa ne]
    rcases leaves otherKey ipa with kept | ⟨same, _⟩
    · exact kept
    · exact absurd same ne
  · intro other
    exact (leaves key other).imp_right fun page => page.2

theorem grown_drop (grown : Grown roots key before after table) (sound : Sound roots before)
    (absent : roots key = none) :
    Sound roots (table.drop after) ∧
      ∀ otherKey ipa, leaf roots (table.drop after) otherKey ipa = leaf roots before otherKey ipa := by
  have keeps : Keeps before.allocator (table.drop after).allocator := by
    rw [Stage2Table.drop_allocator]
    exact keeps_deallocate_all sound.placed grown.keeps _ grown.frames
  have agree : ∀ otherKey, otherKey ≠ key →
      update roots key (some table.rootPa) otherKey = roots otherKey :=
    fun otherKey ne => update_of_ne ne ..
  have reached : ∀ otherKey path, Fits s2Format path →
      reach s2Format after.memory roots otherKey path =
        reach s2Format before.memory roots otherKey path := by
    intro otherKey path fits
    by_cases same : otherKey = key
    · unfold reach
      rw [same, absent]
      rfl
    · rw [← grown.others otherKey path same fits]
      unfold reach
      rw [agree otherKey same]
  refine ⟨⟨keeps.placed, keeps.region.finish ▸ sound.low, ?_, ?_⟩, ?_⟩
  · apply forest_forget grown.sound.tables.forest
    intro otherKey root found
    have ne : otherKey ≠ key := by
      intro same
      rw [same, absent] at found
      cases found
    rw [agree otherKey ne]
    exact found
  · intro otherKey path place fits found offset within
    have earlier := (reached otherKey path fits).symm.trans found
    exact byte_taken_mono keeps.region keeps.allocated
      (sound.tables.taken otherKey path place fits earlier offset within)
  · intro otherKey ipa
    by_cases same : otherKey = key
    · unfold leaf leafAt reach
      rw [same, absent]
      rfl
    · rw [← grown.leaves otherKey ipa same]
      unfold leaf leafAt reach
      rw [agree otherKey same]
      rfl

end Grown

end ViCell.Hypervisor
