import ViCell.Lib.RingWindow
import ViCell.Virtio.BlockDevice

/-!
# The two rings of a live queue

What the memory of a live queue says: the available ring holds the published heads
that are not handled yet, the used ring the last handled ones, and both indices count
modulo 2^16.  Serving a chain keeps this, provided no descriptor points into the queue
itself.
-/

namespace ViCell.Virtio

open Lib Memory List Bytes

def QueueCfg.descLength (cfg : QueueCfg) : Nat := 16 * cfg.num

def QueueCfg.availLength (cfg : QueueCfg) : Nat := 4 + 2 * cfg.num

def QueueCfg.usedLength (cfg : QueueCfg) : Nat := 4 + 8 * cfg.num

/-- A queue size the driver may choose, and three parts of memory that do not overlap. -/
@[mk_iff]
structure Layout (cfg : QueueCfg) (memory : Memory) : Prop where
  positive : 0 < cfg.num
  small : cfg.num ≤ queueSizeMax
  power : cfg.num ∣ indexModulus
  descInside : memory.Inside cfg.descGpa cfg.descLength
  availInside : memory.Inside cfg.availGpa cfg.availLength
  usedInside : memory.Inside cfg.usedGpa cfg.usedLength
  descAvail : Apart cfg.descGpa cfg.descLength cfg.availGpa cfg.availLength
  descUsed : Apart cfg.descGpa cfg.descLength cfg.usedGpa cfg.usedLength
  availUsed : Apart cfg.availGpa cfg.availLength cfg.usedGpa cfg.usedLength

instance (cfg : QueueCfg) (memory : Memory) : Decidable (Layout cfg memory) :=
  decidable_of_iff' _ (layout_iff cfg memory)

/-- The stretch keeps clear of the whole queue. -/
def Clear (cfg : QueueCfg) (address length : Nat) : Prop :=
  Apart address length cfg.descGpa cfg.descLength ∧
    Apart address length cfg.availGpa cfg.availLength ∧
    Apart address length cfg.usedGpa cfg.usedLength

instance (cfg : QueueCfg) (address length : Nat) : Decidable (Clear cfg address length) :=
  inferInstanceAs (Decidable (_ ∧ _ ∧ _))

def clearDesc (cfg : QueueCfg) : Option VirtqDesc → Bool
  | none => true
  | some desc => decide (desc.next < cfg.num ∧ Clear cfg desc.addr (max 1 desc.len))

/-- Every descriptor of the table stays in the table and points outside the queue. -/
def DescsClear (cfg : QueueCfg) (memory : Memory) : Prop :=
  ∀ cur < cfg.num, clearDesc cfg (descAt memory cfg cur) = true

instance (cfg : QueueCfg) (memory : Memory) : Decidable (DescsClear cfg memory) :=
  inferInstanceAs (Decidable (∀ cur < cfg.num, _))

def queuePlace (cfg : QueueCfg) (place : Nat) : Prop :=
  (cfg.descGpa ≤ place ∧ place < cfg.descGpa + cfg.descLength) ∨
    (cfg.availGpa ≤ place ∧ place < cfg.availGpa + cfg.availLength) ∨
    (cfg.usedGpa ≤ place ∧ place < cfg.usedGpa + cfg.usedLength)

def ringPlace (cfg : QueueCfg) (place : Nat) : Prop :=
  (cfg.availGpa ≤ place ∧ place < cfg.availGpa + cfg.availLength) ∨
    (cfg.usedGpa ≤ place ∧ place < cfg.usedGpa + cfg.usedLength)

variable {cfg : QueueCfg} {memory : Memory}

theorem write_clear {addr length : Nat} {data : List Byte} (clear : Clear cfg addr length)
    (fits : data.length ≤ length) : SameOn memory (memory.write addr data) (queuePlace cfg) := by
  refine write_same_on ?_
  intro place mem
  unfold Clear Apart at clear
  unfold queuePlace at mem
  omega

variable {other : Memory}

theorem desc_at_same (same : SameOn memory other (queuePlace cfg)) {cur : Nat}
    (inTable : cur < cfg.num) : descAt memory cfg cur = descAt other cfg cur := by
  have covers : ∀ place, cfg.descGpa + cur * 16 ≤ place → place < cfg.descGpa + cur * 16 + 16 →
      queuePlace cfg place := by
    unfold queuePlace QueueCfg.descLength
    omega
  unfold descAt Memory.read
  rw [same.content covers]
  congr 1
  exact if_congr same.inside rfl rfl

theorem walk_clear (clear : DescsClear cfg memory) (count : Nat) {cur : Nat}
    (inTable : cur < cfg.num) :
    ∀ buf ∈ walkChain memory cfg count cur, Clear cfg buf.gpa (max 1 buf.len) := by
  induction count generalizing cur with
  | zero =>
    intro buf mem
    cases mem
  | succ count ih =>
    have here := clear cur inTable
    intro buf mem
    rw [walkChain] at mem
    cases found : descAt memory cfg cur with
    | none =>
      rw [found] at mem
      cases mem
    | some =>
      rw [found] at mem here
      obtain ⟨next, apart⟩ := of_decide_eq_true here
      rcases mem_cons.mp mem with rfl | later
      · exact apart
      · split at later
        · cases later
        · exact ih next buf later

theorem blk_read_same {data : Nat → Byte} {bufs : List DescBuf}
    (clear : ∀ buf ∈ bufs, Clear cfg buf.gpa (max 1 buf.len)) (lba : Nat) :
    SameOn memory (blkRead data lba bufs memory) (queuePlace cfg) := by
  induction bufs generalizing lba memory with
  | nil => exact SameOn.refl _ _
  | cons buf bufs ih =>
    rw [blkRead]
    split
    · exact SameOn.refl _ _
    · refine SameOn.trans ?_
        (ih (fun other mem => clear other (mem_cons_of_mem _ mem)) _)
      refine write_clear (clear buf mem_cons_self) ?_
      rw [length_map, length_range]
      omega

theorem handle_same {data : Nat → Byte} {bufs : List DescBuf}
    (clear : ∀ buf ∈ bufs, Clear cfg buf.gpa (max 1 buf.len)) :
    SameOn memory (handleBlkRequest data memory bufs).2.1 (queuePlace cfg) := by
  unfold handleBlkRequest
  split
  · exact SameOn.refl _ _
  next long =>
    have nonempty : bufs ≠ [] := by
      intro isNil
      rw [isNil] at long
      exact long (by decide)
    have last : Clear cfg (bufs.getLastD ⟨0, 0, false⟩).gpa
        (max 1 (bufs.getLastD ⟨0, 0, false⟩).len) := by
      rw [getLastD_eq_getLast?, getLast?_eq_some_getLast nonempty]
      exact clear _ (getLast_mem nonempty)
    have statusSame : ∀ (was : Memory) (status : Byte), SameOn was
        (was.write (bufs.getLastD ⟨0, 0, false⟩).gpa [status]) (queuePlace cfg) :=
      fun was status => write_clear last (Nat.le_max_left 1 _)
    have dataClear : ∀ buf ∈ bufs.tail.dropLast, Clear cfg buf.gpa (max 1 buf.len) :=
      fun buf mem => clear buf (mem_of_mem_tail (mem_of_mem_dropLast mem))
    dsimp only
    split
    · exact statusSame memory 1
    · split
      · exact (blk_read_same dataClear _).trans (statusSame _ 0)
      · split
        · exact statusSame memory 0
        · split
          · exact statusSame memory 0
          · exact statusSame memory 2

def QueueCfg.availSlot (cfg : QueueCfg) (index : Nat) : Nat :=
  cfg.availGpa + (4 + index % indexModulus % cfg.num * 2)

def QueueCfg.usedSlot (cfg : QueueCfg) (index : Nat) : Nat :=
  cfg.usedGpa + (4 + index % indexModulus % cfg.num * 8)

theorem Layout.same {holds : Nat → Prop} (layout : Layout cfg memory)
    (same : SameOn memory other holds) : Layout cfg other :=
  { layout with
    descInside := same.inside.mp layout.descInside
    availInside := same.inside.mp layout.availInside
    usedInside := same.inside.mp layout.usedInside }

theorem Layout.place_lt (layout : Layout cfg memory) (index : Nat) :
    index % indexModulus % cfg.num < cfg.num := Nat.mod_lt _ layout.positive

theorem Layout.place_ne (layout : Layout cfg memory) {early late : Nat} (order : early < late)
    (near : late < early + cfg.num) :
    early % indexModulus % cfg.num ≠ late % indexModulus % cfg.num := by
  rw [Nat.mod_mod_of_dvd _ layout.power, Nat.mod_mod_of_dvd _ layout.power]
  have ne := @RingWindow.place_ne cfg.num 0 early late order near
  rwa [Nat.zero_add, Nat.zero_add] at ne

def report (cfg : QueueCfg) (memory : Memory) (usedIdx head written : Nat) : Memory :=
  (memory.write (cfg.usedGpa + (4 + usedIdx % cfg.num * 8))
    (encodeLE 4 head ++ encodeLE 4 written)).write (cfg.usedGpa + 2)
      (encodeLE 2 ((usedIdx + 1) % indexModulus))

section Report

variable {usedIdx head written : Nat}

theorem length_entry : (encodeLE 4 head ++ encodeLE 4 written).length = 8 := by
  rw [length_append, length_encode, length_encode]

theorem report_same (layout : Layout cfg memory) :
    SameOn memory (report cfg memory usedIdx head written)
      (fun place => place < cfg.usedGpa ∨ cfg.usedGpa + cfg.usedLength ≤ place) := by
  have below : usedIdx % cfg.num < cfg.num := Nat.mod_lt _ layout.positive
  refine SameOn.trans (write_same_on ?_) (write_same_on ?_)
  · intro place outside
    rw [length_entry]
    unfold QueueCfg.usedLength at outside
    omega
  · intro place outside
    rw [length_encode]
    unfold QueueCfg.usedLength at outside
    omega

theorem report_count (layout : Layout cfg memory) :
    (report cfg memory usedIdx head written).number (cfg.usedGpa + 2) 2 =
      (usedIdx + 1) % indexModulus := by
  refine number_write_same ?_ (Nat.mod_lt _ (by decide))
  have inside := layout.usedInside
  unfold Inside QueueCfg.usedLength at *
  rw [base_write, size_write]
  omega

theorem report_entry (layout : Layout cfg memory) (small : head < 256 ^ 4) :
    (report cfg memory usedIdx head written).number
      (cfg.usedGpa + (4 + usedIdx % cfg.num * 8)) 4 = head := by
  have below : usedIdx % cfg.num < cfg.num := Nat.mod_lt _ layout.positive
  unfold report
  rw [number_write_apart (by rw [length_encode]; unfold Apart; omega)]
  refine number_write_front ?_ small
  have inside := layout.usedInside
  rw [length_encode]
  unfold Inside QueueCfg.usedLength at *
  omega

theorem report_other {place : Nat} (other : place ≠ usedIdx % cfg.num) :
    (report cfg memory usedIdx head written).number (cfg.usedGpa + (4 + place * 8)) 4 =
      memory.number (cfg.usedGpa + (4 + place * 8)) 4 := by
  unfold report
  rw [number_write_apart (by rw [length_encode]; unfold Apart; omega),
    number_write_apart (by rw [length_entry]; unfold Apart; omega)]

end Report

/-- The published heads not yet handled stand in the available ring, the last handled
ones in the used ring, and the indices count them. -/
structure Rings (cfg : QueueCfg) (memory : Memory) (disk : BlkDisk)
    (published handled : List Nat) : Prop where
  layout : Layout cfg memory
  inOrder : handled <+: published
  window : published.length ≤ handled.length + cfg.num
  lastAvail : disk.lastAvail = handled.length % indexModulus
  usedIdx : disk.usedIdx = handled.length % indexModulus
  availCount : memory.number (cfg.availGpa + 2) 2 = published.length % indexModulus
  availRing : ∀ index, handled.length ≤ index → index < published.length →
    memory.number (cfg.availSlot index) 2 = published.getD index 0
  usedCount : memory.number (cfg.usedGpa + 2) 2 = handled.length % indexModulus
  usedRing : ∀ index, index < handled.length → handled.length ≤ index + cfg.num →
    memory.number (cfg.usedSlot index) 4 = handled.getD index 0
  heads : ∀ head ∈ published, head < cfg.num

namespace Rings

variable {disk : BlkDisk} {published handled : List Nat}
  (rings : Rings cfg memory disk published handled)
include rings

theorem same {other : Memory} {later : BlkDisk}
    (same : SameOn memory other (ringPlace cfg)) (lastAvail : later.lastAvail = disk.lastAvail)
    (usedIdx : later.usedIdx = disk.usedIdx) : Rings cfg other later published handled := by
  have inAvail : ∀ {offset place : Nat}, offset + 2 ≤ cfg.availLength →
      cfg.availGpa + offset ≤ place → place < cfg.availGpa + offset + 2 → ringPlace cfg place := by
    intro offset place fits low high
    unfold ringPlace
    omega
  have inUsed : ∀ {offset place width : Nat}, offset + width ≤ cfg.usedLength →
      cfg.usedGpa + offset ≤ place → place < cfg.usedGpa + offset + width →
      ringPlace cfg place := by
    intro offset place width fits low high
    unfold ringPlace
    omega
  refine { rings with
    layout := rings.layout.same same
    lastAvail := lastAvail.trans rings.lastAvail
    usedIdx := usedIdx.trans rings.usedIdx
    availCount := ?_, availRing := ?_, usedCount := ?_, usedRing := ?_ }
  · rw [← same.number (fun place low high => inAvail (by unfold QueueCfg.availLength; omega) low high)]
    exact rings.availCount
  · intro index low high
    have place := rings.layout.place_lt index
    unfold QueueCfg.availSlot
    rw [← same.number (fun place low high =>
      inAvail (by unfold QueueCfg.availLength; omega) low high)]
    exact rings.availRing index low high
  · rw [← same.number (fun place low high => inUsed (by unfold QueueCfg.usedLength; omega) low high)]
    exact rings.usedCount
  · intro index low high
    have place := rings.layout.place_lt index
    unfold QueueCfg.usedSlot
    rw [← same.number (fun place low high => inUsed (by unfold QueueCfg.usedLength; omega) low high)]
    exact rings.usedRing index low high

variable {head : Nat} {rest : List Nat}

theorem reported {written : Nat} {data : Nat → Byte}
    (isPublished : published = handled ++ head :: rest) :
    Rings cfg (report cfg memory disk.usedIdx head written)
      ⟨data, (disk.lastAvail + 1) % indexModulus, (disk.usedIdx + 1) % indexModulus⟩ published
      (handled ++ [head]) := by
  have layout := rings.layout
  have keeps := @report_same cfg memory disk.usedIdx head written layout
  have apart := layout.availUsed
  have count : (handled ++ [head]).length = handled.length + 1 := length_append
  have small : head < 256 ^ 4 := by
    have inTable := rings.heads head (by
      rw [isPublished]
      exact mem_append_right _ mem_cons_self)
    have bounded := layout.small
    unfold queueSizeMax at bounded
    omega
  have inAvail : ∀ {offset place : Nat}, offset + 2 ≤ cfg.availLength →
      cfg.availGpa + offset ≤ place → place < cfg.availGpa + offset + 2 →
      place < cfg.usedGpa ∨ cfg.usedGpa + cfg.usedLength ≤ place := by
    unfold Apart at apart
    omega
  refine {
    layout := layout.same keeps
    inOrder := ⟨rest, by rw [isPublished, append_assoc, singleton_append]⟩
    window := by rw [count]; have window := rings.window; omega
    lastAvail := by rw [count, rings.lastAvail, Nat.mod_add_mod]
    usedIdx := by rw [count, rings.usedIdx, Nat.mod_add_mod]
    availCount := ?_
    availRing := ?_
    usedCount := by rw [report_count layout, rings.usedIdx, Nat.mod_add_mod, count]
    usedRing := ?_
    heads := rings.heads }
  · rw [← keeps.number (fun place low high =>
      inAvail (by unfold QueueCfg.availLength; omega) low high)]
    exact rings.availCount
  · intro index low high
    have place := layout.place_lt index
    unfold QueueCfg.availSlot
    rw [← keeps.number (fun place low high =>
      inAvail (by unfold QueueCfg.availLength; omega) low high)]
    exact rings.availRing index (by omega) high
  · intro index low near
    rw [count] at low near
    rcases Nat.lt_succ_iff_lt_or_eq.mp low with earlier | isLast
    · have other : index % indexModulus % cfg.num ≠ disk.usedIdx % cfg.num := by
        rw [rings.usedIdx]
        exact layout.place_ne earlier (by omega)
      unfold QueueCfg.usedSlot
      rw [report_other other, getD_append _ _ _ _ earlier]
      exact rings.usedRing index earlier (by omega)
    · have isSlot : cfg.usedSlot index = cfg.usedGpa + (4 + disk.usedIdx % cfg.num * 8) := by
        rw [isLast, rings.usedIdx]
        rfl
      rw [isSlot, report_entry layout small, isLast, getD_append_right _ _ _ _ (Nat.le_refl _),
        Nat.sub_self]
      rfl

theorem serve {head : Nat} {rest heads : List Nat} (clear : DescsClear cfg memory)
    (isPublished : published = handled ++ head :: rest) :
    Rings cfg (serveHead cfg ⟨disk, memory, heads⟩ head).memory
        (serveHead cfg ⟨disk, memory, heads⟩ head).disk published (handled ++ [head]) ∧
      DescsClear cfg (serveHead cfg ⟨disk, memory, heads⟩ head).memory := by
  have inTable : head < cfg.num := rings.heads head (by
    rw [isPublished]
    exact mem_append_right _ mem_cons_self)
  have untouched := @handle_same cfg memory disk.data _ (walk_clear clear maxChain inTable)
  have between : Rings cfg _ disk published handled :=
    rings.same (untouched.mono (fun place mem => Or.inr mem)) rfl rfl
  have apartDesc := rings.layout.descUsed
  refine ⟨between.reported isPublished, ?_⟩
  have tableSame : SameOn (handleBlkRequest disk.data memory
      (walkChain memory cfg maxChain head)).2.1
      (serveHead cfg ⟨disk, memory, heads⟩ head).memory
      (fun place => place < cfg.usedGpa ∨ cfg.usedGpa + cfg.usedLength ≤ place) :=
    report_same between.layout
  intro cur below
  have covers : ∀ place, cfg.descGpa + cur * 16 ≤ place → place < cfg.descGpa + cur * 16 + 16 →
      place < cfg.usedGpa ∨ cfg.usedGpa + cfg.usedLength ≤ place := by
    unfold Apart QueueCfg.descLength at apartDesc
    omega
  have sameDesc : descAt (serveHead cfg ⟨disk, memory, heads⟩ head).memory cfg cur =
      descAt memory cfg cur := by
    rw [desc_at_same untouched below]
    unfold descAt Memory.read
    rw [tableSame.content covers]
    congr 1
    exact if_congr tableSame.inside.symm rfl rfl
  rw [sameDesc]
  exact clear cur below

theorem next_head (isPublished : published = handled ++ head :: rest) :
    disk.lastAvail ≠ published.length % indexModulus ∧
      memory.read (cfg.availGpa + (4 + disk.lastAvail % cfg.num * 2)) 2 =
        some (memory.content (cfg.availSlot handled.length) 2) ∧
      memory.number (cfg.availSlot handled.length) 2 = head := by
  have length : published.length = handled.length + (rest.length + 1) := by
    rw [isPublished, length_append, length_cons]
  have isSlot : cfg.availGpa + (4 + disk.lastAvail % cfg.num * 2) =
      cfg.availSlot handled.length := by
    rw [rings.lastAvail]
    rfl
  refine ⟨?_, ?_, ?_⟩
  · have window := rings.window
    have small := rings.layout.small
    rw [rings.lastAvail]
    unfold indexModulus queueSizeMax at *
    omega
  · rw [isSlot]
    refine read_of_inside ?_
    have inside := rings.layout.availInside
    have place := rings.layout.place_lt handled.length
    unfold Inside QueueCfg.availLength QueueCfg.availSlot at *
    omega
  · rw [rings.availRing handled.length (Nat.le_refl _) (by omega), isPublished,
      getD_append_right _ _ _ _ (Nat.le_refl _), Nat.sub_self]
    rfl

theorem drains {rest heads : List Nat} {fuel : Nat} (clear : DescsClear cfg memory)
    (isPublished : published = handled ++ rest) (enough : rest.length < fuel) :
    ∃ after, drain cfg (published.length % indexModulus) fuel ⟨disk, memory, heads⟩ = some after ∧
      after.heads = heads ++ rest ∧ Rings cfg after.memory after.disk published published := by
  induction rest generalizing memory disk handled heads fuel with
  | nil =>
    obtain ⟨fuel, rfl⟩ := Nat.exists_eq_succ_of_ne_zero (Nat.ne_of_gt enough)
    rw [append_nil] at isPublished
    subst isPublished
    refine ⟨⟨disk, memory, heads⟩, ?_, (append_nil heads).symm, rings⟩
    rw [drain, if_pos rings.lastAvail]
  | cons head rest ih =>
    obtain ⟨fuel, rfl⟩ := Nat.exists_eq_succ_of_ne_zero (Nat.ne_of_gt (Nat.zero_lt_of_lt enough))
    obtain ⟨behind, read, isHead⟩ := rings.next_head isPublished
    obtain ⟨served, stillClear⟩ := serve rings clear isPublished
    obtain ⟨after, drained, allHeads, done⟩ := @ih _ _ _ served (heads ++ [head]) _ stillClear
      (by rw [isPublished, append_assoc, singleton_append])
      (Nat.lt_of_succ_lt_succ enough)
    refine ⟨after, ?_, ?_, done⟩
    · rw [drain, if_neg behind, read]
      dsimp only
      rw [show decodeLE (memory.content (cfg.availSlot handled.length) 2) = head from isHead]
      exact drained
    · rw [allHeads, append_assoc, singleton_append]

theorem processes (clear : DescsClear cfg memory) (isPublished : published = handled ++ rest) :
    ∃ after, processNotify cfg disk memory = some after ∧ after.heads = rest ∧
      Rings cfg after.memory after.disk published published := by
  have inside : memory.Inside (cfg.availGpa + 2) 2 := by
    have inside := rings.layout.availInside
    unfold Inside QueueCfg.availLength at *
    omega
  have few : rest.length < indexModulus := by
    have window := rings.window
    have small := rings.layout.small
    rw [isPublished, length_append] at window
    unfold indexModulus
    unfold queueSizeMax at small
    omega
  obtain ⟨after, drained, isHeads, done⟩ := @drains cfg memory disk published handled rings
    rest [] indexModulus clear isPublished few
  refine ⟨after, ?_, isHeads, done⟩
  unfold processNotify
  rw [if_neg (Nat.ne_of_gt rings.layout.positive), read_of_inside inside]
  dsimp only
  rw [show decodeLE (memory.content (cfg.availGpa + 2) 2) =
    published.length % indexModulus from rings.availCount]
  exact drained

theorem publish (room : published.length < handled.length + cfg.num) (inTable : head < cfg.num) :
    Rings cfg ((memory.write (cfg.availSlot published.length) (encodeLE 2 head)).write
        (cfg.availGpa + 2) (encodeLE 2 ((published.length + 1) % indexModulus))) disk
      (published ++ [head]) handled := by
  have layout := rings.layout
  have below := layout.place_lt published.length
  have count : (published ++ [head]).length = published.length + 1 := length_append
  have keeps : SameOn memory ((memory.write (cfg.availSlot published.length)
      (encodeLE 2 head)).write (cfg.availGpa + 2)
        (encodeLE 2 ((published.length + 1) % indexModulus)))
      (fun place => place < cfg.availGpa ∨ cfg.availGpa + cfg.availLength ≤ place) := by
    refine SameOn.trans (write_same_on ?_) (write_same_on ?_)
    · intro place outside
      rw [length_encode]
      unfold QueueCfg.availLength at outside
      unfold QueueCfg.availSlot
      omega
    · intro place outside
      rw [length_encode]
      unfold QueueCfg.availLength at outside
      omega
  have apart := layout.availUsed
  have inUsed : ∀ {offset place width : Nat}, offset + width ≤ cfg.usedLength →
      cfg.usedGpa + offset ≤ place → place < cfg.usedGpa + offset + width →
      place < cfg.availGpa ∨ cfg.availGpa + cfg.availLength ≤ place := by
    intro offset place width fits low high
    unfold Apart at apart
    omega
  have inside := layout.availInside
  refine {
    layout := layout.same keeps
    inOrder := rings.inOrder.trans (prefix_append _ _)
    window := by rw [count]; omega
    lastAvail := rings.lastAvail
    usedIdx := rings.usedIdx
    availCount := ?_
    availRing := ?_
    usedCount := ?_
    usedRing := ?_
    heads := ?_ }
  · rw [count]
    refine number_write_same ?_ (Nat.mod_lt _ (by decide))
    unfold Inside QueueCfg.availLength at *
    rw [base_write, size_write]
    omega
  · intro index low high
    have place := layout.place_lt index
    rw [number_write_apart (by rw [length_encode]; unfold Apart QueueCfg.availSlot; omega)]
    rw [count] at high
    rcases Nat.lt_succ_iff_lt_or_eq.mp high with earlier | isLast
    · have other := layout.place_ne earlier (by omega)
      rw [number_write_apart (by rw [length_encode]; unfold Apart QueueCfg.availSlot; omega),
        getD_append _ _ _ _ earlier]
      exact rings.availRing index low earlier
    · rw [isLast, getD_append_right _ _ _ _ (Nat.le_refl _), Nat.sub_self]
      refine number_write_same ?_ ?_
      · unfold Inside QueueCfg.availLength QueueCfg.availSlot at *
        omega
      · have bounded := layout.small
        unfold queueSizeMax at bounded
        omega
  · rw [← keeps.number (fun place low high => inUsed (by unfold QueueCfg.usedLength; omega) low high)]
    exact rings.usedCount
  · intro index low near
    have place := layout.place_lt index
    unfold QueueCfg.usedSlot
    rw [← keeps.number (fun place low high =>
      inUsed (by unfold QueueCfg.usedLength; omega) low high)]
    exact rings.usedRing index low near
  · intro other mem
    rcases mem_append.mp mem with earlier | isLast
    · exact rings.heads other earlier
    · rw [mem_singleton.mp isLast]
      exact inTable

end Rings

end ViCell.Virtio
