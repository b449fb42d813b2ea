import ViCell.Lib.Runs
import ViCell.Cells.CapTable

/-!
# Histories of the capability table

Entries are numbered in the order in which they are created. The number of an
entry outlives it, while its id comes back after `2 ^ 64 - 1` creations. A
history keeps, beside the table, how each entry was created, which number stands
behind an id, which entries were revoked, and which files are taken out.
-/

namespace ViCell.Cells

open Lib Memory List TreeMaps CapTable

structure Creation where
  id : Nat
  owner : Nat
  perms : Nat
  expiresAt : Option Nat
  grantDepth : Nat
  source : Option Nat
  deriving DecidableEq, Repr

/-- A file that `park_file` took out of the entry with this id and number. -/
structure Parked where
  id : Nat
  file : Nat
  serial : Nat
  deriving DecidableEq, Repr

structure CapHistory where
  table : CapTable
  created : List Creation
  serialOf : Nat → Nat
  revoked : List Nat
  parked : List Parked

inductive CapOp where
  | alloc (owner file perms : Nat)
  | allocWithLease (owner file perms expiresAt : Nat)
  | grantTo (now id fromCell toCell : Nat)
  | verify (now id caller : Nat)
  | parkFile (now id owner : Nat)
  | unparkFile (item : Parked)
  | revoke (id : Nat)
  | revokeAllFor (owner : Nat)
  deriving DecidableEq, Repr

namespace CapHistory

def empty : CapHistory where
  table := { entries := ∅, nextId := 1 }
  created := []
  serialOf := fun _ => 0
  revoked := []
  parked := []

def follow (history : CapHistory) (after : CapTable) : CapHistory :=
  { history with
    table := after
    revoked := history.revoked ++
      (history.table.entries.toList.filter (fun entry => (after.entries[entry.1]?).isNone)).map
        (fun entry => history.serialOf entry.1) }

def create (history : CapHistory) (after : CapTable) (creation : Creation) : CapHistory :=
  { history with
    table := after
    created := history.created ++ [creation]
    serialOf := Function.update history.serialOf creation.id history.created.length }

def alloc (history : CapHistory) (owner file perms : Nat) : CapHistory :=
  let allocated := history.table.alloc owner file perms
  history.create allocated.1
    { id := allocated.2, owner := owner, perms := perms, expiresAt := none,
      grantDepth := maxGrantDepth, source := none }

def allocWithLease (history : CapHistory) (owner file perms expiresAt : Nat) : CapHistory :=
  let allocated := history.table.allocWithLease owner file perms expiresAt
  history.create allocated.1
    { id := allocated.2, owner := owner, perms := perms, expiresAt := some expiresAt,
      grantDepth := maxGrantDepth, source := none }

def grantTo (history : CapHistory) (now id fromCell toCell : Nat) : CapHistory :=
  match history.table.entries[id]?, history.table.grantTo now id fromCell toCell with
  | some entry, (table, .ok new) =>
    history.create table
      { id := new, owner := toCell, perms := entry.perms, expiresAt := entry.expiresAt,
        grantDepth := entry.grantDepth - 1, source := some (history.serialOf id) }
  | _, (table, _) => history.follow table

def parkFile (history : CapHistory) (now id owner : Nat) : CapHistory :=
  match history.table.parkFile now id owner with
  | (table, .ok file) =>
    { history with
      table := table
      parked := { id := id, file := file, serial := history.serialOf id } :: history.parked }
  | (table, .error _) => history.follow table

/-- A file is given back under the id it was taken from, and only once. -/
def unparkFile (history : CapHistory) (item : Parked) : Option CapHistory :=
  if item ∈ history.parked then
    some { history with
      table := history.table.unparkFile item.id item.file
      parked := history.parked.erase item }
  else none

def step (history : CapHistory) : CapOp → Option CapHistory
  | .alloc owner file perms => some (history.alloc owner file perms)
  | .allocWithLease owner file perms expiresAt =>
    some (history.allocWithLease owner file perms expiresAt)
  | .grantTo now id fromCell toCell => some (history.grantTo now id fromCell toCell)
  | .verify now id caller => some (history.follow (history.table.verify now id caller).1)
  | .parkFile now id owner => some (history.parkFile now id owner)
  | .unparkFile item => history.unparkFile item
  | .revoke id => some (history.follow (history.table.revoke id))
  | .revokeAllFor owner => some (history.follow (history.table.revokeAllFor owner))

/-- The ids run through `1 .. 2 ^ 64 - 1`. -/
def idOf (serial : Nat) : Nat := serial % (2 ^ 64 - 1) + 1

/-- What the table and the records of creations have to do with each other. -/
structure Consistent (history : CapHistory) : Prop where
  nextId : history.table.nextId = idOf history.created.length
  ids : ∀ (serial : Nat) (creation : Creation), history.created[serial]? = some creation →
    creation.id = idOf serial
  /-- The number behind an id is that of its last entry. -/
  latest : ∀ (serial : Nat) (creation : Creation), history.created[serial]? = some creation →
    serial ≤ history.serialOf creation.id
  entries : ∀ (id : Nat) (entry : CapEntry), history.table.entries[id]? = some entry →
    ∃ creation, history.created[history.serialOf id]? = some creation ∧ creation.id = id ∧
      creation.owner = entry.owner ∧ creation.perms = entry.perms ∧
      creation.expiresAt = entry.expiresAt ∧ creation.grantDepth = entry.grantDepth
  /-- A delegated entry takes rights and lease over, and one level less. -/
  sources : ∀ (serial : Nat) (creation : Creation) (source : Nat),
    history.created[serial]? = some creation → creation.source = some source →
      ∃ parent, history.created[source]? = some parent ∧ creation.perms = parent.perms ∧
        creation.expiresAt = parent.expiresAt ∧ creation.grantDepth + 1 = parent.grantDepth
  roots : ∀ (serial : Nat) (creation : Creation), history.created[serial]? = some creation →
    creation.source = none → creation.grantDepth = maxGrantDepth
  live : ∀ (id : Nat) (entry : CapEntry), history.table.entries[id]? = some entry →
    history.serialOf id ∉ history.revoked
  revoked : ∀ serial ∈ history.revoked, serial < history.created.length
  parked : ∀ item ∈ history.parked, ∃ creation, history.created[item.serial]? = some creation ∧
    creation.id = item.id

theorem consistent_empty : empty.Consistent where
  nextId := rfl
  ids := by
    intro serial creation found
    cases found
  latest := by
    intro serial creation found
    cases found
  entries := by
    intro id entry found
    simp [empty] at found
  sources := by
    intro serial creation source found
    cases found
  roots := by
    intro serial creation found
    cases found
  live := by
    intro id entry found
    simp [empty] at found
  revoked := by
    intro serial mem
    cases mem
  parked := by
    intro item mem
    cases mem

theorem next_id_succ (serial : Nat) :
    (if usize (idOf serial + 1) = 0 then 1 else usize (idOf serial + 1)) = idOf (serial + 1) := by
  unfold idOf usize
  split <;> omega

theorem next_id_max (serial : Nat) : max (usize (idOf serial + 1)) 1 = idOf (serial + 1) := by
  unfold idOf usize
  omega

theorem created_append {created : List Creation} {serial : Nat} {creation new : Creation}
    (found : (created ++ [new])[serial]? = some creation) :
    created[serial]? = some creation ∨ (serial = created.length ∧ creation = new) := by
  rcases Nat.lt_or_ge serial created.length with earlier | later
  · rw [getElem?_append_left earlier] at found
    exact .inl found
  · rw [getElem?_append_right later] at found
    obtain ⟨inside, same⟩ := List.getElem?_eq_some_iff.mp found
    simp only [List.length_singleton, Nat.lt_one_iff] at inside
    right
    refine ⟨by omega, ?_⟩
    simp only [inside] at same
    exact same.symm

section Steps

variable {history : CapHistory} (consistent : history.Consistent)
include consistent

theorem Consistent.serial_lt {id : Nat} {entry : CapEntry}
    (found : history.table.entries[id]? = some entry) :
    history.serialOf id < history.created.length := by
  obtain ⟨_, record, _⟩ := consistent.entries id entry found
  exact (List.getElem?_eq_some_iff.mp record).1

theorem Consistent.serial_injective {first second : Nat}
    {left right : CapEntry} (leftFound : history.table.entries[first]? = some left)
    (rightFound : history.table.entries[second]? = some right)
    (same : history.serialOf first = history.serialOf second) : first = second := by
  obtain ⟨_, leftRecord, leftId, _⟩ := consistent.entries first left leftFound
  obtain ⟨_, rightRecord, rightId, _⟩ := consistent.entries second right rightFound
  rw [same, rightRecord] at leftRecord
  cases leftRecord
  exact leftId.symm.trans rightId

variable {after : CapTable}

theorem Consistent.move {parked : List Parked}
    (below : after.Below history.table) (nextId : after.nextId = history.table.nextId)
    (out : ∀ item ∈ parked, ∃ creation, history.created[item.serial]? = some creation ∧
      creation.id = item.id) :
    Consistent { history with table := after, parked := parked } where
  nextId := nextId.trans consistent.nextId
  ids := consistent.ids
  latest := consistent.latest
  entries := by
    intro id entry found
    obtain ⟨old, existed, same⟩ := below id entry found
    rw [same]
    exact consistent.entries id old existed
  sources := consistent.sources
  roots := consistent.roots
  live := by
    intro id entry found
    obtain ⟨old, existed, _⟩ := below id entry found
    exact consistent.live id old existed
  revoked := consistent.revoked
  parked := out

theorem Consistent.follow (below : after.Below history.table)
    (nextId : after.nextId = history.table.nextId) : (history.follow after).Consistent := by
  have moved := consistent.move below nextId consistent.parked
  refine ⟨moved.nextId, moved.ids, moved.latest, moved.entries, moved.sources, moved.roots,
    ?_, ?_, moved.parked⟩
  · intro id entry found
    obtain ⟨old, existed, _⟩ := below id entry found
    simp only [CapHistory.follow, List.mem_append, List.mem_map, List.mem_filter, not_or]
    refine ⟨consistent.live id old existed, ?_⟩
    rintro ⟨⟨other, lost⟩, ⟨mem, gone⟩, same⟩
    have isOther : other = id := consistent.serial_injective (mem_entries_iff.mp mem) existed same
    rw [isOther] at gone
    dsimp only [CapHistory.follow] at found
    rw [found] at gone
    cases gone
  · intro serial mem
    simp only [CapHistory.follow, List.mem_append, List.mem_map, List.mem_filter] at mem
    rcases mem with earlier | ⟨⟨other, lost⟩, ⟨inTable, _⟩, isSerial⟩
    · exact consistent.revoked serial earlier
    · rw [← isSerial]
      exact consistent.serial_lt (mem_entries_iff.mp inTable)

theorem Consistent.park_file (now id owner : Nat) : (history.parkFile now id owner).Consistent := by
  have below := history.table.below_park_file now id owner
  have nextId := history.table.next_id_park_file now id owner
  unfold CapHistory.parkFile
  split
  next table file out =>
    rw [out] at below nextId
    obtain ⟨_, entry, found, _⟩ := history.table.park_file_ok out
    apply consistent.move below nextId
    intro item mem
    rcases mem_cons.mp mem with isNew | earlier
    · rw [isNew]
      obtain ⟨creation, record, isId, _⟩ := consistent.entries id entry found
      exact ⟨creation, record, isId⟩
    · exact consistent.parked item earlier
  next table error out =>
    rw [out] at below nextId
    exact consistent.follow below nextId

theorem Consistent.unpark_file {item : Parked}
    {after : CapHistory} (run : history.unparkFile item = some after) : after.Consistent := by
  obtain ⟨_, same⟩ := Option.ite_none_right_eq_some.mp run
  cases same
  apply consistent.move (history.table.below_unpark_file item.id item.file)
    (history.table.next_id_unpark_file item.id item.file)
  intro other mem
  exact consistent.parked other (mem_of_mem_erase mem)

theorem Consistent.create (entry : CapEntry) {creation : Creation}
    (inserted : ∀ (id : Nat) (found : CapEntry), after.entries[id]? = some found →
      (id = history.table.nextId ∧ found = entry) ∨
        (id ≠ history.table.nextId ∧ history.table.entries[id]? = some found))
    (nextId : after.nextId = idOf (history.created.length + 1))
    (isId : creation.id = history.table.nextId)
    (record : creation.owner = entry.owner ∧ creation.perms = entry.perms ∧
      creation.expiresAt = entry.expiresAt ∧ creation.grantDepth = entry.grantDepth)
    (source : ∀ source, creation.source = some source →
      ∃ parent, history.created[source]? = some parent ∧ creation.perms = parent.perms ∧
        creation.expiresAt = parent.expiresAt ∧ creation.grantDepth + 1 = parent.grantDepth)
    (root : creation.source = none → creation.grantDepth = maxGrantDepth) :
    (history.create after creation).Consistent := by
  have kept : ∀ (serial : Nat) (old : Creation), history.created[serial]? = some old →
      (history.created ++ [creation])[serial]? = some old := by
    intro serial old found
    rw [List.getElem?_append_left (List.getElem?_eq_some_iff.mp found).1]
    exact found
  have number : ∀ id, (history.create after creation).serialOf id =
      if id = history.table.nextId then history.created.length else history.serialOf id := by
    intro id
    rw [← isId]
    exact Function.update_apply _ _ _ _
  constructor
  · simp [CapHistory.create, nextId]
  · intro serial old found
    rcases created_append found with earlier | ⟨isLast, isNew⟩
    · exact consistent.ids serial old earlier
    · rw [isNew, isLast, isId, consistent.nextId]
  · intro serial old found
    rw [number]
    rcases created_append found with earlier | ⟨isLast, isNew⟩
    · split
      · exact Nat.le_of_lt (List.getElem?_eq_some_iff.mp earlier).1
      · exact consistent.latest serial old earlier
    · rw [isNew, if_pos isId, isLast]
  · intro id found has
    rw [number]
    rcases inserted id found has with ⟨isNext, isEntry⟩ | ⟨other, existed⟩
    · rw [if_pos isNext]
      refine ⟨creation, ?_, isId.trans isNext.symm, ?_⟩
      · simp [CapHistory.create]
      · rw [isEntry]
        exact record
    · rw [if_neg other]
      obtain ⟨old, recorded, rest⟩ := consistent.entries id found existed
      exact ⟨old, kept _ _ recorded, rest⟩
  · intro serial old from_ found isSource
    rcases created_append found with earlier | ⟨_, isNew⟩
    · obtain ⟨parent, recorded, rest⟩ := consistent.sources serial old from_ earlier isSource
      exact ⟨parent, kept _ _ recorded, rest⟩
    · rw [isNew] at isSource ⊢
      obtain ⟨parent, recorded, rest⟩ := source from_ isSource
      exact ⟨parent, kept _ _ recorded, rest⟩
  · intro serial old found noSource
    rcases created_append found with earlier | ⟨_, isNew⟩
    · exact consistent.roots serial old earlier noSource
    · rw [isNew] at noSource ⊢
      exact root noSource
  · intro id found has
    rw [number]
    rcases inserted id found has with ⟨isNext, _⟩ | ⟨other, existed⟩
    · rw [if_pos isNext]
      exact fun mem => absurd (consistent.revoked _ mem) (Nat.lt_irrefl _)
    · rw [if_neg other]
      exact consistent.live id found existed
  · intro serial mem
    have earlier := consistent.revoked serial mem
    simp only [CapHistory.create, length_append]
    omega
  · intro item mem
    obtain ⟨old, recorded, isItem⟩ := consistent.parked item mem
    exact ⟨old, kept _ _ recorded, isItem⟩

theorem Consistent.alloc (owner file perms : Nat) :
    (history.alloc owner file perms).Consistent := by
  apply consistent.create ⟨owner, some file, perms, none, maxGrantDepth⟩
  · intro id found has
    rcases get_insert_eq_some.mp has with ⟨isNext, isEntry⟩ | kept
    · exact .inl ⟨isNext, isEntry.symm⟩
    · exact .inr kept
  · rw [← next_id_succ, ← consistent.nextId]
    rfl
  · rfl
  · exact ⟨rfl, rfl, rfl, rfl⟩
  · intro source isSource
    cases isSource
  · exact fun _ => rfl

theorem Consistent.alloc_with_lease (owner file perms expiresAt : Nat) :
    (history.allocWithLease owner file perms expiresAt).Consistent := by
  unfold CapHistory.allocWithLease
  rw [history.table.alloc_with_lease_eq]
  apply consistent.create ⟨owner, some file, perms, some expiresAt, maxGrantDepth⟩
  · intro id found has
    rcases get_insert_eq_some.mp has with ⟨isNext, isEntry⟩ | ⟨other, kept⟩
    · exact .inl ⟨isNext, isEntry.symm⟩
    · rcases get_insert_eq_some.mp kept with ⟨isNext, _⟩ | kept
      · exact absurd isNext other
      · exact .inr kept
  · rw [← next_id_succ, ← consistent.nextId]
    rfl
  · rfl
  · exact ⟨rfl, rfl, rfl, rfl⟩
  · intro source isSource
    cases isSource
  · exact fun _ => rfl

theorem Consistent.grant_to (now id fromCell toCell : Nat) :
    (history.grantTo now id fromCell toCell).Consistent := by
  unfold CapHistory.grantTo
  cases out : history.table.grantTo now id fromCell toCell with
  | mk table outcome =>
    cases outcome with
    | error =>
      obtain ⟨below, nextId⟩ := history.table.grant_to_error out
      cases history.table.entries[id]? with
      | none => exact consistent.follow below nextId
      | some => exact consistent.follow below nextId
    | ok =>
      obtain ⟨_, entry, found, pos, isNew, isTable⟩ := history.table.grant_to_ok out
      rw [found]
      rw [isNew, isTable]
      apply consistent.create
      · intro place other has
        rcases get_insert_eq_some.mp has with ⟨isNext, isEntry⟩ | kept
        · exact .inl ⟨isNext, isEntry.symm⟩
        · exact .inr kept
      · rw [← next_id_max, ← consistent.nextId]
      · rfl
      · exact ⟨rfl, rfl, rfl, rfl⟩
      · intro source isSource
        cases isSource
        obtain ⟨parent, recorded, _, _, perms, lease, depth⟩ := consistent.entries id entry found
        refine ⟨parent, recorded, perms.symm, lease.symm, ?_⟩
        rw [depth]
        exact Nat.succ_pred_eq_of_ne_zero pos
      · exact fun noSource => nomatch noSource

theorem step_consistent {op : CapOp} {after : CapHistory} (ran : history.step op = some after) :
    after.Consistent := by
  cases op with
  | alloc owner file perms =>
    cases ran
    exact consistent.alloc owner file perms
  | allocWithLease owner file perms expiresAt =>
    cases ran
    exact consistent.alloc_with_lease owner file perms expiresAt
  | grantTo now id fromCell toCell =>
    cases ran
    exact consistent.grant_to now id fromCell toCell
  | verify now id caller =>
    cases ran
    exact consistent.follow (history.table.below_verify now id caller)
      (history.table.next_id_verify now id caller)
  | parkFile now id owner =>
    cases ran
    exact consistent.park_file now id owner
  | unparkFile => exact consistent.unpark_file ran
  | revoke id =>
    cases ran
    exact consistent.follow (history.table.below_revoke id) rfl
  | revokeAllFor owner =>
    cases ran
    exact consistent.follow (history.table.below_revoke_all_for owner) rfl

end Steps

/-- The entry with this number was delegated so many times over. -/
inductive Delegated (created : List Creation) : Nat → Nat → Prop
  | root {serial : Nat} {creation : Creation} (found : created[serial]? = some creation)
      (own : creation.source = none) : Delegated created serial 0
  | next {serial source length : Nat} {creation : Creation}
      (found : created[serial]? = some creation) (from_ : creation.source = some source)
      (before : Delegated created source length) : Delegated created serial (length + 1)

variable {history : CapHistory}

theorem Consistent.depth_left (consistent : history.Consistent) {serial length : Nat}
    (chain : Delegated history.created serial length) :
    ∀ creation, history.created[serial]? = some creation →
      creation.grantDepth + length = maxGrantDepth := by
  induction chain with
  | root found own =>
    intro creation isCreation
    rw [found] at isCreation
    cases isCreation
    exact consistent.roots _ _ found own
  | next found from_ _ ih =>
    intro creation isCreation
    rw [found] at isCreation
    cases isCreation
    obtain ⟨parent, recorded, _, _, _⟩ := consistent.sources _ _ _ found from_
    have left := ih parent recorded
    omega

theorem Consistent.chain_le (consistent : history.Consistent) {serial length : Nat}
    (chain : Delegated history.created serial length) : length ≤ 4 := by
  have bounded : ∀ creation, history.created[serial]? = some creation → length ≤ 4 := by
    intro creation found
    have left := consistent.depth_left chain creation found
    have depth : maxGrantDepth = 4 := rfl
    omega
  cases chain with
  | root found own | next found from_ was => exact bounded _ found

theorem Consistent.parked_entry (consistent : history.Consistent) {item : Parked}
    (mem : item ∈ history.parked) (recent : history.created.length ≤ item.serial + (2 ^ 64 - 1))
    {entry : CapEntry} (found : history.table.entries[item.id]? = some entry) :
    history.serialOf item.id = item.serial := by
  obtain ⟨old, oldRecord, oldId⟩ := consistent.parked item mem
  obtain ⟨creation, record, isId, _⟩ := consistent.entries item.id entry found
  have later : item.serial ≤ history.serialOf item.id := by
    rw [← oldId]
    exact consistent.latest item.serial old oldRecord
  have bounded := consistent.serial_lt found
  have oldNumber := consistent.ids item.serial old oldRecord
  have number := consistent.ids (history.serialOf item.id) creation record
  have sameId : idOf item.serial = idOf (history.serialOf item.id) :=
    (oldNumber.symm.trans oldId).trans (isId.symm.trans number)
  unfold idOf at sameId
  omega

/-- In every history, calls succeed only on entries that were not revoked, that
the caller owns and whose lease runs; entries keep their rights and lease, and a
delegated entry has those of its source; chains end after four delegations; and
as long as fewer than `2 ^ 64 - 1` entries were created since the entry a file was
taken from, the file goes back to that entry or nowhere. -/
theorem capability_histories_sound {ops : List CapOp} {history : CapHistory}
    (executed : runEvents step empty ops = some history) :
    (∀ now id caller after, history.table.verify now id caller = (after, .ok ()) →
      history.table.Accessible now id caller ∧ history.serialOf id ∉ history.revoked) ∧
    (∀ now id caller after file, history.table.parkFile now id caller = (after, .ok file) →
      history.table.Accessible now id caller ∧ history.serialOf id ∉ history.revoked) ∧
    (∀ now id caller target after new,
      history.table.grantTo now id caller target = (after, .ok new) →
        history.table.Accessible now id caller ∧ history.serialOf id ∉ history.revoked) ∧
    (∀ (id : Nat) (entry : CapEntry), history.table.entries[id]? = some entry →
      ∃ creation, history.created[history.serialOf id]? = some creation ∧
        creation.perms = entry.perms ∧ creation.expiresAt = entry.expiresAt) ∧
    (∀ (serial : Nat) (creation : Creation) (source : Nat),
      history.created[serial]? = some creation → creation.source = some source →
        ∃ parent, history.created[source]? = some parent ∧ creation.perms = parent.perms ∧
          creation.expiresAt = parent.expiresAt) ∧
    (∀ serial length, Delegated history.created serial length → length ≤ 4) ∧
    ∀ item ∈ history.parked, history.created.length ≤ item.serial + (2 ^ 64 - 1) →
      ∀ entry, history.table.entries[item.id]? = some entry →
        history.serialOf item.id = item.serial := by
  have consistent : history.Consistent := run_invariant Consistent
    (fun _ _ _ held stepped => step_consistent held stepped) executed consistent_empty
  have unrevoked : ∀ {now id caller : Nat}, history.table.Accessible now id caller →
      history.serialOf id ∉ history.revoked := by
    rintro now id caller ⟨entry, found, _⟩
    exact consistent.live id entry found
  refine ⟨?_, ?_, ?_, ?_, ?_, ?_, ?_⟩
  · intro now id caller after result
    have accessible := history.table.accessible_of_verify result
    exact ⟨accessible, unrevoked accessible⟩
  · intro now id caller after file result
    have accessible := (history.table.park_file_ok result).1
    exact ⟨accessible, unrevoked accessible⟩
  · intro now id caller target after new result
    have accessible := (history.table.grant_to_ok result).1
    exact ⟨accessible, unrevoked accessible⟩
  · intro id entry found
    obtain ⟨creation, record, _, _, perms, lease, _⟩ := consistent.entries id entry found
    exact ⟨creation, record, perms, lease⟩
  · intro serial creation source found from_
    obtain ⟨parent, record, perms, lease, _⟩ :=
      consistent.sources serial creation source found from_
    exact ⟨parent, record, perms, lease⟩
  · intro serial length chain
    exact consistent.chain_le chain
  · intro item member recent entry found
    exact consistent.parked_entry member recent found

/-- A leased file is delegated twice and taken out, and the middle entry revoked. -/
def delegationRun : List CapOp :=
  [.allocWithLease 1 5 3 90, .grantTo 10 1 1 2, .grantTo 20 2 2 3, .parkFile 30 1 1, .revoke 2]

theorem delegation_run_sound : ∃ history, runEvents step empty delegationRun = some history ∧
      history.parked = [⟨1, 5, 0⟩] ∧ history.created.length = 3 ∧
      (history.table.entries[1]?).isSome = true ∧
      (∀ serial length, Delegated history.created serial length → length ≤ 4) ∧
      history.serialOf 1 = 0 := by
  have evaluated : (runEvents step empty delegationRun).map (fun history =>
      (history.parked, history.created.length, (history.table.entries[1]?).isSome)) =
      some ([⟨1, 5, 0⟩], 3, true) := by
    decide +kernel
  obtain ⟨history, executed, values⟩ := Option.map_eq_some_iff.mp evaluated
  obtain ⟨parked, rest⟩ := Prod.mk.inj values
  obtain ⟨length, present⟩ := Prod.mk.inj rest
  obtain ⟨_, _, _, _, _, chains, returned⟩ := capability_histories_sound executed
  obtain ⟨entry, found⟩ := Option.isSome_iff_exists.mp present
  refine ⟨history, executed, parked, length, present, chains, ?_⟩
  refine returned ⟨1, 5, 0⟩ ?_ ?_ entry found
  · rw [parked]
    exact mem_singleton_self _
  · rw [length]
    decide

theorem run_allocs (count : Nat) : ∀ history : CapHistory, history.table.nextId + count < 2 ^ 64 →
    ∃ after, runEvents step history (List.replicate count (.alloc 2 9 7)) = some after ∧
      after.table.nextId = history.table.nextId + count ∧ after.parked = history.parked ∧
      after.created.length = history.created.length + count := by
  induction count with
  | zero =>
    intro history _
    exact ⟨history, rfl, rfl, rfl, rfl⟩
  | succ count ih =>
    intro history small
    have moved : (history.alloc 2 9 7).table.nextId = history.table.nextId + 1 := by
      have next : usize (history.table.nextId + 1) = history.table.nextId + 1 := by
        unfold usize
        omega
      simp [alloc, create, CapTable.alloc, next]
    have longer : (history.alloc 2 9 7).created.length = history.created.length + 1 := by
      simp [alloc, create]
    obtain ⟨after, ran, nextId, parked, length⟩ := ih (history.alloc 2 9 7) (by rw [moved]; omega)
    refine ⟨after, ran, ?_, parked, ?_⟩
    · omega
    · omega

theorem alloc_entry (history : CapHistory) (owner file perms : Nat) :
    (history.alloc owner file perms).serialOf history.table.nextId = history.created.length ∧
    (history.alloc owner file perms).table.entries[history.table.nextId]? =
      some ⟨owner, some file, perms, none, CapTable.maxGrantDepth⟩ := by
  all_goals simp [alloc, create, CapTable.alloc]

/-- A file is taken out of the first entry, whose id then comes round again. -/
def wrappedRun : List CapOp :=
  [.alloc 1 5 7, .parkFile 0 1 1] ++
    (replicate (2 ^ 64 - 3) (.alloc 2 9 7) ++ [.alloc 2 9 7, .alloc 2 9 7])

/-- The file taken from the first cell's entry goes into the second cell's entry. -/
theorem parked_file_returns_to_other_entry :
    ∃ history, runEvents step empty wrappedRun = some history ∧
      ⟨1, 5, 0⟩ ∈ history.parked ∧ history.serialOf 1 ≠ 0 ∧
      ∃ after entry, step history (.unparkFile ⟨1, 5, 0⟩) = some after ∧
        after.table.entries[1]? = some entry ∧ entry.owner = 2 ∧ entry.file = some 5 := by
  have evaluated : (runEvents step empty [.alloc 1 5 7, .parkFile 0 1 1]).map (fun history =>
      (history.table.nextId, history.parked, history.created.length)) =
      some (2, [⟨1, 5, 0⟩], 1) := by
    decide +kernel
  obtain ⟨first, executed, values⟩ := Option.map_eq_some_iff.mp evaluated
  obtain ⟨nextId, rest⟩ := Prod.mk.inj values
  obtain ⟨parked, length⟩ := Prod.mk.inj rest
  obtain ⟨second, allocated, nextId', parked', length'⟩ :=
    run_allocs (2 ^ 64 - 3) first (by rw [nextId]; decide)
  have wrapped : (second.alloc 2 9 7).table.nextId = 1 := by
    have next : usize (second.table.nextId + 1) = 0 := by
      rw [nextId', nextId]
      decide
    simp [alloc, create, CapTable.alloc, next]
  have number : (second.alloc 2 9 7).created.length = 2 ^ 64 - 1 := by
    have longer : (second.alloc 2 9 7).created.length = second.created.length + 1 := by
      simp [alloc, create]
    rw [longer, length', length]
    decide
  obtain ⟨serial, found⟩ := (second.alloc 2 9 7).alloc_entry 2 9 7
  rw [wrapped] at serial found
  have stillParked : ⟨1, 5, 0⟩ ∈ ((second.alloc 2 9 7).alloc 2 9 7).parked := by
    have same : ((second.alloc 2 9 7).alloc 2 9 7).parked = second.parked := rfl
    rw [same, parked', parked]
    exact List.mem_singleton_self _
  refine ⟨(second.alloc 2 9 7).alloc 2 9 7, ?_, stillParked, ?_, ?_⟩
  · unfold wrappedRun
    rw [run_append, executed, Option.bind_some, run_append, allocated]
    rfl
  · rw [serial, number]
    decide
  · refine ⟨_, ⟨2, some 5, 7, none, CapTable.maxGrantDepth⟩, if_pos stillParked, ?_, rfl, rfl⟩
    simp [CapTable.unparkFile, found]

end CapHistory

end ViCell.Cells
