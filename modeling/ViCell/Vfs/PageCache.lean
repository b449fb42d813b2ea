import ViCell.Lib.Runs
import ViCell.Lib.TreeMaps

/-!
# The sector cache of the block stream

`PageCache` keeps sectors in an ordered map beside a recency list and writes
through: a write goes into the map, marked dirty, and then every dirty sector is
written to the disk. A disk write that fails leaves its sector in the map, dirty.
-/

namespace ViCell.Vfs

open Lib TreeMaps Function List Std.TreeMap

structure Sector where
  bytes : List UInt8
  full : bytes.length = 512
  deriving DecidableEq

namespace Sector

def fill (byte : UInt8) : Sector := ⟨replicate 512 byte, length_replicate⟩

end Sector

/-- First absolute LBA of the FAT volume. -/
def fatPartBaseLba : Nat := 2048

abbrev RawDisk := Nat → Sector

/-- How the disk takes one sector write. -/
inductive WriteFate where
  | done
  | refused
  /-- The write fails and leaves something else in the sector. -/
  | torn (left : Sector)
  deriving DecidableEq

namespace WriteFate

def whole : WriteFate → Bool
  | .torn _ => false
  | _ => true

end WriteFate

namespace BlockStream

-- A sector number is a byte position over 512, so adding the base does not wrap.
def readRawSector (disk : RawDisk) (readable : Bool) (sector : Nat) : Option Sector :=
  if readable then some (disk (fatPartBaseLba + sector)) else none

def writeRawSector (disk : RawDisk) (fate : WriteFate) (sector : Nat) (data : Sector) :
    RawDisk × Bool :=
  match fate with
  | .done => (update disk (fatPartBaseLba + sector) data, true)
  | .refused => (disk, false)
  | .torn left => (update disk (fatPartBaseLba + sector) left, false)

end BlockStream

structure CachedSector where
  data : Sector
  dirty : Bool
  deriving DecidableEq

def maxCacheBytes : Nat := 4 * 1024 * 1024

structure PageCache where
  entries : Std.TreeMap Nat CachedSector
  /-- Most recently used first. -/
  lruOrder : List Nat
  totalBytes : Nat
  maxBytes : Nat

namespace PageCache

def new : PageCache := ⟨∅, [], 0, maxCacheBytes⟩

def touch (cache : PageCache) (sector : Nat) : PageCache :=
  { cache with lruOrder := sector :: cache.lruOrder.filter (fun other => other ≠ sector) }

/-- The eviction loop, over the recency list from its back. -/
def makeRoom (cache : PageCache) : List Nat → PageCache
  | [] => { cache with lruOrder := [] }
  | lru :: rest =>
    if cache.totalBytes + 512 > cache.maxBytes * 9 / 10 then
      match cache.entries[lru]? with
      | some _ =>
        makeRoom { cache with
          entries := cache.entries.erase lru
          totalBytes := cache.totalBytes - 512 } rest
      | none => makeRoom cache rest
    else { cache with lruOrder := (lru :: rest).reverse }

def insert (cache : PageCache) (sector : Nat) (data : Sector) (dirty : Bool) : PageCache :=
  match cache.entries[sector]? with
  | some held =>
    touch { cache with entries := cache.entries.insert sector ⟨data, held.dirty || dirty⟩ } sector
  | none =>
    let roomy := cache.makeRoom cache.lruOrder.reverse
    { roomy with
      entries := roomy.entries.insert sector ⟨data, dirty⟩
      lruOrder := sector :: roomy.lruOrder
      totalBytes := roomy.totalBytes + 512 }

def markClean (cache : PageCache) (sector : Nat) (entry : CachedSector) : PageCache :=
  { cache with entries := cache.entries.insert sector { entry with dirty := false } }

/-- A hit comes from the map, a miss from the disk. -/
def readSector (cache : PageCache) (disk : RawDisk) (readable : Bool) (sector : Nat) :
    PageCache × Option Sector :=
  match cache.entries[sector]? with
  | some held => (cache.touch sector, some held.data)
  | none =>
    match BlockStream.readRawSector disk readable sector with
    | none => (cache, none)
    | some data => (cache.insert sector data false, some data)

end PageCache

structure CachedBlockStream where
  disk : RawDisk
  cache : PageCache

namespace CachedBlockStream

/-- The flush loop over the remaining entries, each dirty one with the next fate. -/
def flushEntries (stream : CachedBlockStream) :
    List (Nat × CachedSector) → List WriteFate → CachedBlockStream × Bool
  | [], _ => (stream, true)
  | (sector, entry) :: rest, fates =>
    if entry.dirty then
      match BlockStream.writeRawSector stream.disk (fates.headD .done) sector entry.data with
      | (disk, true) =>
        flushEntries ⟨disk, stream.cache.markClean sector entry⟩ rest fates.tail
      | (disk, false) => (⟨disk, stream.cache⟩, false)
    else flushEntries stream rest fates

def flushDirty (stream : CachedBlockStream) (fates : List WriteFate) : CachedBlockStream × Bool :=
  stream.flushEntries stream.cache.entries.toList fates

def writeSector (stream : CachedBlockStream) (sector : Nat) (data : Sector)
    (fates : List WriteFate) : CachedBlockStream × Bool :=
  flushDirty { stream with cache := stream.cache.insert sector data true } fates

end CachedBlockStream

inductive CacheCall where
  | read (sector : Nat) (readable : Bool)
  | write (sector : Nat) (data : Sector) (fates : List WriteFate)

/-- A stream beside the data of the last write of each sector that was reported
successful; before any, what the disk held. -/
structure TracedStream where
  stream : CachedBlockStream
  reported : Nat → Sector

namespace TracedStream

def new (disk : RawDisk) : TracedStream :=
  ⟨⟨disk, PageCache.new⟩, fun sector => disk (fatPartBaseLba + sector)⟩

def answer (state : TracedStream) (sector : Nat) (readable : Bool) : Option Sector :=
  (state.stream.cache.readSector state.stream.disk readable sector).2

def step (state : TracedStream) : CacheCall → Option TracedStream
  | .read sector readable =>
    some { state with stream := { state.stream with
      cache := (state.stream.cache.readSector state.stream.disk readable sector).1 } }
  | .write sector data fates =>
    let (stream, ok) := state.stream.writeSector sector data fates
    some ⟨stream, if ok then update state.reported sector data else state.reported⟩

end TracedStream

namespace PageCache

variable {cache : PageCache} {sector other : Nat} {data : Sector} {dirty : Bool}
  {entry : CachedSector}

theorem make_room_get {order : List Nat} (held : (cache.makeRoom order).entries[other]? = some entry) :
    cache.entries[other]? = some entry := by
  induction order generalizing cache with
  | nil => exact held
  | cons lru rest ih =>
    rw [makeRoom] at held
    split at held
    · split at held
      · have was := ih held
        exact (get_erase_eq_some.mp was).2
      · exact ih held
    · exact held

theorem insert_get_self :
    (cache.insert sector data dirty).entries[sector]? =
      some ⟨data, cache.entries[sector]?.any CachedSector.dirty || dirty⟩ := by
  unfold insert
  cases held : cache.entries[sector]? with
  | some was | none => exact getElem?_insert_self

theorem insert_get_other (ne : other ≠ sector)
    (held : (cache.insert sector data dirty).entries[other]? = some entry) :
    cache.entries[other]? = some entry := by
  unfold insert at held
  cases was : cache.entries[sector]? with
  | some =>
    rw [was] at held
    rcases get_insert_eq_some.mp held with ⟨same, _⟩ | ⟨_, kept⟩
    · exact absurd same ne
    · exact kept
  | none =>
    rw [was] at held
    rcases get_insert_eq_some.mp held with ⟨same, _⟩ | ⟨_, kept⟩
    · exact absurd same ne
    · exact make_room_get kept

end PageCache

namespace CachedBlockStream

structure KeptAt (before after : CachedBlockStream) (sector : Nat) : Prop where
  disk : after.disk (fatPartBaseLba + sector) = before.disk (fatPartBaseLba + sector)
  cached : after.cache.entries[sector]? = before.cache.entries[sector]?

structure FlushedAt (after : CachedBlockStream) (sector : Nat) (entry : CachedSector) : Prop where
  disk : after.disk (fatPartBaseLba + sector) = entry.data
  cached : after.cache.entries[sector]? = some { entry with dirty := false }

theorem KeptAt.refl (stream : CachedBlockStream) (sector : Nat) : KeptAt stream stream sector :=
  ⟨rfl, rfl⟩

theorem KeptAt.trans {first second third : CachedBlockStream} {sector : Nat}
    (earlier : KeptAt first second sector) (later : KeptAt second third sector) :
    KeptAt first third sector :=
  ⟨later.disk.trans earlier.disk, later.cached.trans earlier.cached⟩

theorem written_disk (disk : RawDisk) (sector other : Nat) (data : Sector) :
    update disk (fatPartBaseLba + sector) data (fatPartBaseLba + other) =
      if other = sector then data else disk (fatPartBaseLba + other) := by
  by_cases same : other = sector
  · rw [same, update_self, if_pos rfl]
  · have apart : fatPartBaseLba + other ≠ fatPartBaseLba + sector := by omega
    rw [update_of_ne apart, if_neg same]

variable {stream : CachedBlockStream} {list : List (Nat × CachedSector)} {fates : List WriteFate}
  {sector : Nat} {entry : CachedSector} {data : Sector}

/-- What a flush does at one sector, over the rest of its loop. -/
structure FlushOutcome (stream : CachedBlockStream) (list : List (Nat × CachedSector))
    (result : CachedBlockStream × Bool) (sector : Nat) : Prop where
  either : KeptAt stream result.1 sector ∨
    ∃ entry, (sector, entry) ∈ list ∧ entry.dirty = true ∧ FlushedAt result.1 sector entry
  success : result.2 = true → ∀ entry, (sector, entry) ∈ list → entry.dirty = true →
    FlushedAt result.1 sector entry

theorem FlushOutcome.skip_clean {rest : List (Nat × CachedSector)} {first : Nat × CachedSector}
    {out : CachedBlockStream × Bool} (clean : ¬ first.2.dirty = true)
    (outcome : FlushOutcome stream rest out sector) :
    FlushOutcome stream (first :: rest) out sector := by
  constructor
  · rcases outcome.either with kept | ⟨entry, mem, dirty, flushed⟩
    · exact .inl kept
    · exact .inr ⟨entry, mem_cons_of_mem _ mem, dirty, flushed⟩
  · intro ok entry mem dirty
    rcases mem_cons.mp mem with here | later
    · rw [← here] at clean
      exact absurd dirty clean
    · exact outcome.success ok entry later dirty

theorem written_kept {first : Nat} (ne : sector ≠ first) :
    KeptAt stream ⟨update stream.disk (fatPartBaseLba + first) entry.data,
        stream.cache.markClean first entry⟩ sector := by
  have apart : ¬ compare first sector = .eq := fun equal => ne (Nat.compare_eq_eq.mp equal).symm
  exact ⟨(written_disk _ _ _ _).trans (if_neg ne), getElem?_insert.trans (if_neg apart)⟩

theorem FlushOutcome.after_write {rest : List (Nat × CachedSector)} {first : Nat}
    {out : CachedBlockStream × Bool}
    (ne : ∀ later, (first, later) ∉ rest) (dirty : entry.dirty = true)
    (outcome : FlushOutcome ⟨update stream.disk (fatPartBaseLba + first) entry.data,
        stream.cache.markClean first entry⟩
      rest out sector) :
    FlushOutcome stream ((first, entry) :: rest) out sector := by
  by_cases same : sector = first
  · subst same
    have flushed : FlushedAt out.1 sector entry := by
      rcases outcome.either with kept | ⟨later, mem, _, _⟩
      · constructor
        · exact kept.disk.trans ((written_disk _ _ _ _).trans (if_pos rfl))
        · exact kept.cached.trans getElem?_insert_self
      · exact absurd mem (ne later)
    refine ⟨.inr ⟨entry, mem_cons_self, dirty, flushed⟩, ?_⟩
    intro _ found mem _
    rcases mem_cons.mp mem with here | later
    · cases here
      exact flushed
    · exact absurd later (ne found)
  · constructor
    · rcases outcome.either with kept | ⟨found, mem, foundDirty, flushed⟩
      · exact .inl ((written_kept same).trans kept)
      · exact .inr ⟨found, mem_cons_of_mem _ mem, foundDirty, flushed⟩
    · intro ok found mem foundDirty
      rcases mem_cons.mp mem with here | later
      · cases here
        exact absurd rfl same
      · exact outcome.success ok found later foundDirty

theorem keys_nodup : (stream.cache.entries.toList.map Prod.fst).Nodup := by
  rw [map_fst_toList_eq_keys]
  have apart := @distinct_keys _ _ _ stream.cache.entries _
  exact apart.imp (fun ne same => ne (Nat.compare_eq_eq.mpr same))

theorem head_whole (whole : ∀ fate ∈ fates, fate.whole = true) {left : Sector} :
    fates.headD .done ≠ .torn left := by
  intro torn
  cases fates with
  | nil => cases torn
  | cons head tail =>
    have headWhole := whole head mem_cons_self
    rw [show head = .torn left from torn] at headWhole
    cases headWhole

theorem flush_entries_outcome (ne : (list.map Prod.fst).Nodup)
    (whole : ∀ fate ∈ fates, fate.whole = true) :
    FlushOutcome stream list (stream.flushEntries list fates) sector := by
  induction list generalizing stream fates with
  | nil => exact ⟨.inl (KeptAt.refl stream sector), fun _ _ mem => absurd mem not_mem_nil⟩
  | cons first rest ih =>
    obtain ⟨place, held⟩ := first
    obtain ⟨fresh, restDistinct⟩ := nodup_cons.mp ne
    rw [flushEntries]
    by_cases dirty : held.dirty = true
    · rw [if_pos dirty]
      have tailWhole : ∀ fate ∈ fates.tail, fate.whole = true :=
        fun fate mem => whole fate (mem_of_mem_tail mem)
      have absent : ∀ later, (place, later) ∉ rest :=
        fun later mem => fresh (mem_map.mpr ⟨_, mem, rfl⟩)
      cases fate : fates.headD .done with
      | done => exact FlushOutcome.after_write absent dirty (ih restDistinct tailWhole)
      | refused => exact ⟨.inl (KeptAt.refl stream sector), fun ok => Bool.noConfusion ok⟩
      | torn => exact absurd fate (head_whole whole)
    · rw [if_neg dirty]
      exact FlushOutcome.skip_clean dirty (ih restDistinct whole)

theorem flush_entries_failed (apart : (list.map Prod.fst).Nodup)
    (whole : ∀ fate ∈ fates, fate.whole = true) (failed : (stream.flushEntries list fates).2 = false) :
    ∃ place entry, (place, entry) ∈ list ∧ entry.dirty = true ∧
      KeptAt stream (stream.flushEntries list fates).1 place := by
  induction list generalizing stream fates with
  | nil => cases failed
  | cons first rest ih =>
    obtain ⟨place, held⟩ := first
    obtain ⟨fresh, restDistinct⟩ := nodup_cons.mp apart
    rw [flushEntries] at failed ⊢
    by_cases dirty : held.dirty = true
    · rw [if_pos dirty] at failed ⊢
      have tailWhole : ∀ fate ∈ fates.tail, fate.whole = true :=
        fun fate mem => whole fate (mem_of_mem_tail mem)
      cases fate : fates.headD .done with
      | done =>
        rw [fate] at failed
        obtain ⟨stopped, entry, mem, stoppedDirty, kept⟩ := ih restDistinct tailWhole failed
        have ne : stopped ≠ place := by
          intro same
          rw [same] at mem
          exact fresh (mem_map.mpr ⟨_, mem, rfl⟩)
        exact ⟨stopped, entry, mem_cons_of_mem _ mem, stoppedDirty, (written_kept ne).trans kept⟩
      | refused => exact ⟨place, held, mem_cons_self, dirty, KeptAt.refl stream place⟩
      | torn => exact absurd fate (head_whole whole)
    · rw [if_neg dirty] at failed ⊢
      obtain ⟨stopped, entry, mem, stoppedDirty, kept⟩ := ih restDistinct whole failed
      exact ⟨stopped, entry, mem_cons_of_mem _ mem, stoppedDirty, kept⟩

theorem flush_dirty_failed (whole : ∀ fate ∈ fates, fate.whole = true)
    (failed : (stream.flushDirty fates).2 = false) :
    ∃ place entry, stream.cache.entries[place]? = some entry ∧ entry.dirty = true ∧
      KeptAt stream (stream.flushDirty fates).1 place := by
  obtain ⟨place, entry, mem, dirty, kept⟩ := flush_entries_failed keys_nodup whole failed
  exact ⟨place, entry, mem_entries_iff.mp mem, dirty, kept⟩

end CachedBlockStream

namespace TracedStream

variable {state : TracedStream} {sector other : Nat} {entry : CachedSector}

/-- Sectors whose last write failed and whose data is still in the map. -/
def dirtySectors (state : TracedStream) : List Nat :=
  (state.stream.cache.entries.toList.filter (fun held => held.2.dirty)).map Prod.fst

theorem mem_dirty_sectors : sector ∈ state.dirtySectors ↔
      ∃ entry, state.stream.cache.entries[sector]? = some entry ∧ entry.dirty = true := by
  constructor
  · intro mem
    obtain ⟨⟨_, entry⟩, kept, rfl⟩ := mem_map.mp mem
    obtain ⟨held, dirty⟩ := mem_filter.mp kept
    exact ⟨entry, mem_entries_iff.mp held, dirty⟩
  · rintro ⟨entry, held, dirty⟩
    have listed : (sector, entry) ∈ state.stream.cache.entries.toList := mem_entries_iff.mpr held
    exact mem_map.mpr ⟨_, mem_filter.mpr ⟨listed, dirty⟩, rfl⟩

/-- The call does not meet data of a failed write: a read is of a sector that is
not dirty, a write finds no dirty sector but its own, and the disk tears nothing. -/
def MeetsNoFailure (state : TracedStream) : CacheCall → Prop
  | .read sector _ => sector ∉ state.dirtySectors
  | .write sector _ fates =>
    (∀ other ∈ state.dirtySectors, other = sector) ∧ ∀ fate ∈ fates, fate.whole = true

instance (state : TracedStream) (call : CacheCall) : Decidable (MeetsNoFailure state call) := by
  unfold MeetsNoFailure
  split <;> infer_instance

/-- The disk holds what was reported, and so does every clean entry of the map. -/
structure Coherent (state : TracedStream) : Prop where
  disk : ∀ sector, state.stream.disk (fatPartBaseLba + sector) = state.reported sector
  cached : ∀ sector entry, state.stream.cache.entries[sector]? = some entry →
    entry.dirty = false → entry.data = state.reported sector

theorem coherent_new (disk : RawDisk) : Coherent (new disk) := by
  constructor
  · exact fun _ => rfl
  · intro sector entry held
    cases held

theorem Coherent.answer_reported (coherent : Coherent state) {readable : Bool} {data : Sector}
    (clean : sector ∉ state.dirtySectors) (answered : state.answer sector readable = some data) :
    data = state.reported sector := by
  unfold answer PageCache.readSector at answered
  cases held : state.stream.cache.entries[sector]? with
  | some entry =>
    rw [held] at answered
    cases answered
    have notDirty : entry.dirty = false := by
      rw [← Bool.not_eq_true]
      exact fun dirty => clean (mem_dirty_sectors.mpr ⟨entry, held, dirty⟩)
    exact coherent.cached sector entry held notDirty
  | none =>
    rw [held] at answered
    cases readable with
    | true =>
      cases answered
      exact coherent.disk sector
    | false => cases answered

theorem Coherent.read_step (coherent : Coherent state) (readable : Bool) :
    Coherent { state with stream := { state.stream with
      cache := (state.stream.cache.readSector state.stream.disk readable sector).1 } } := by
  refine ⟨coherent.disk, ?_⟩
  intro place entry held clean
  unfold PageCache.readSector at held
  cases found : state.stream.cache.entries[sector]? with
  | some =>
    simp only [found] at held
    exact coherent.cached place entry held clean
  | none =>
    simp only [found] at held
    cases readable with
    | false => exact coherent.cached place entry held clean
    | true =>
      -- A miss: the map takes the disk's content, at the cost of older entries.
      by_cases same : place = sector
      · rw [same] at held ⊢
        have inserted := PageCache.insert_get_self.symm.trans held
        cases inserted
        exact coherent.disk sector
      · exact coherent.cached place entry (PageCache.insert_get_other same held) clean

theorem Coherent.write_step (coherent : Coherent state) {data : Sector} {fates : List WriteFate}
    (meets : MeetsNoFailure state (.write sector data fates)) {after : TracedStream}
    (ran : state.step (.write sector data fates) = some after) : Coherent after := by
  obtain ⟨ownDirty, whole⟩ := meets
  cases ran
  let inserted : CachedBlockStream :=
    { state.stream with cache := state.stream.cache.insert sector data true }
  let out := inserted.flushDirty fates
  have outcome : ∀ place, CachedBlockStream.FlushOutcome inserted inserted.cache.entries.toList
      out place := fun place => CachedBlockStream.flush_entries_outcome CachedBlockStream.keys_nodup whole
  have own : inserted.cache.entries[sector]? = some ⟨data, true⟩ := by
    rw [show inserted.cache.entries[sector]? = _ from PageCache.insert_get_self, Bool.or_true]
  -- No other sector is dirty after the insertion, so the flush leaves the others alone.
  have others : ∀ place, place ≠ sector → CachedBlockStream.KeptAt inserted out.1 place := by
    intro place ne
    rcases (outcome place).either with kept | ⟨entry, mem, dirty, _⟩
    · exact kept
    · have held := PageCache.insert_get_other ne (mem_entries_iff.mp mem)
      exact absurd (ownDirty place (mem_dirty_sectors.mpr ⟨entry, held, dirty⟩)) ne
  have elsewhere : ∀ place, place ≠ sector → ∀ reported : Sector,
      (if out.2 then update state.reported sector reported else state.reported) place =
        state.reported place := by
    intro place ne reported
    split
    · exact update_of_ne ne _ _
    · rfl
  have atOwn : (out.1.disk (fatPartBaseLba + sector) =
        (if out.2 then update state.reported sector data else state.reported) sector) ∧
      ∀ entry, out.1.cache.entries[sector]? = some entry → entry.dirty = false → entry.data =
          (if out.2 then update state.reported sector data else state.reported)
            sector := by
    cases ok : out.2 with
    | true =>
      have flushed := (outcome sector).success ok _ (mem_entries_iff.mpr own) rfl
      simp only [if_true, update_self]
      refine ⟨flushed.disk, ?_⟩
      intro entry held _
      cases flushed.cached.symm.trans held
      rfl
    | false =>
      obtain ⟨place, entry, held, dirty, kept⟩ := inserted.flush_dirty_failed whole ok
      have stopped : place = sector := by
        by_contra ne
        have was := PageCache.insert_get_other ne held
        exact ne (ownDirty place (mem_dirty_sectors.mpr ⟨entry, was, dirty⟩))
      rw [stopped] at kept
      refine ⟨kept.disk.trans (coherent.disk sector), ?_⟩
      intro entry held clean
      cases (kept.cached.trans own).symm.trans held
      cases clean
  constructor
  · intro place
    by_cases same : place = sector
    · rw [same]
      exact atOwn.1
    · exact ((others place same).disk.trans (coherent.disk place)).trans
        (elsewhere place same data).symm
  · intro place entry held clean
    by_cases same : place = sector
    · rw [same] at held ⊢
      exact atOwn.2 entry held clean
    · have was := PageCache.insert_get_other same ((others place same).cached.symm.trans held)
      exact (coherent.cached place entry was clean).trans (elsewhere place same data).symm

/-- In a run that never meets data of a failed write, a read that succeeds returns
what was last reported as written, and the disk holds it whatever the map evicted. -/
theorem reads_return_reported {disk : RawDisk}
    (reached : Reaches step MeetsNoFailure (new disk) state) :
    (∀ sector readable data, MeetsNoFailure state (.read sector readable) →
      state.answer sector readable = some data → data = state.reported sector) ∧
    ∀ sector, state.stream.disk (fatPartBaseLba + sector) = state.reported sector := by
  have coherent : Coherent state := by
    apply reached.invariant _ (coherent_new disk)
    intro before call after coherent meets stepped
    cases call with
    | read _ readable =>
      cases stepped
      exact coherent.read_step readable
    | write => exact coherent.write_step meets stepped
  exact ⟨fun _ _ _ clean answered => coherent.answer_reported clean answered, coherent.disk⟩

/-- Sector 5 is written, a second write of it is refused and then made good. -/
def refusedOnce : List CacheCall := [
  .write 5 (Sector.fill 1) [],
  .write 5 (Sector.fill 2) [.refused],
  .read 9 true,
  .write 5 (Sector.fill 3) [.done],
  .write 9 (Sector.fill 4) []]

theorem refused_once_reads_back :
    let final := finalState step (new fun _ => Sector.fill 0) refusedOnce
    MeetsNoFailure final (.read 5 true) ∧ final.answer 5 true = some (Sector.fill 3) ∧
      Sector.fill 3 = final.reported 5 := by
  intro final
  have reached : Reaches step MeetsNoFailure (new fun _ => Sector.fill 0) final :=
    reaches_final (by decide +kernel) (by decide +kernel)
  have clean : MeetsNoFailure final (.read 5 true) := by decide +kernel
  have answered : final.answer 5 true = some (Sector.fill 3) := by decide +kernel
  exact ⟨clean, answered, (reads_return_reported reached).1 5 true _ clean answered⟩

/-- A write of sector 5 succeeds, the next one fails; the read after it succeeds
and returns what the failed write held. -/
theorem failed_write_read_back :
    let start := new fun _ => Sector.fill 0
    let calls : List CacheCall := [.write 5 (Sector.fill 1) [], .write 5 (Sector.fill 2) [.refused]]
    (finalState step start calls).reported 5 = Sector.fill 1 ∧
    (finalState step start calls).answer 5 true = some (Sector.fill 2) ∧
    Sector.fill 2 ≠ Sector.fill 1 := by
  decide +kernel

end TracedStream

end ViCell.Vfs
