import ViCell.Lib.Bytes
import ViCell.Lib.TreeMaps
import ViCell.Vfs.Dispatch

/-!
# Handing the quota table to a new version

`serialize_state` and `deserialize_state` of `manager.rs`. Records are applied while
the bytes are read, and the version field is not looked at.
-/

namespace ViCell.Vfs

open Lib.Bytes Lib.TreeMaps List

inductive TransferError where
  | invalidArgument
  | invalidInput
  deriving DecidableEq, Repr

namespace QuotaTracker

def entryCount (quota : QuotaTracker) : Nat := quota.used.size

def allEntries (quota : QuotaTracker) : List (Nat × Nat) := quota.used.toList

def restore (quota : QuotaTracker) (owner bytes : Nat) : QuotaTracker :=
  { quota with used := quota.used.insert owner bytes }

end QuotaTracker

namespace VfsManager

def vfsSchemaVersion : Nat := 1

def stateSize (vfs : VfsManager) : Nat := 4 + 4 + vfs.quota.entryCount * 16

def encodeEntry (entry : Nat × Nat) : List (BitVec 8) := encodeLE 8 entry.1 ++ encodeLE 8 entry.2

/-- The bytes written into a buffer of `room` bytes; the count is cast to 32 bits. -/
def serializeState (vfs : VfsManager) (room : Nat) : Except TransferError (List (BitVec 8)) :=
  if room < vfs.stateSize then .error .invalidArgument
  else .ok (encodeLE 4 vfsSchemaVersion ++ (encodeLE 4 vfs.quota.allEntries.length ++
    vfs.quota.allEntries.flatMap encodeEntry))

def restoreEntries : Nat → List (BitVec 8) → QuotaTracker → Except TransferError Unit × QuotaTracker
  | 0, _, quota => (.ok (), quota)
  | count + 1, bytes, quota =>
    if bytes.length < 16 then (.error .invalidInput, quota)
    else restoreEntries count (bytes.drop 16)
      (quota.restore (decodeLE (bytes.take 8)) (decodeLE ((bytes.drop 8).take 8)))

def deserializeState (vfs : VfsManager) (bytes : List (BitVec 8)) :
    Except TransferError Unit × VfsManager :=
  if bytes.length < 8 then (.error .invalidInput, vfs)
  else
    let result := restoreEntries (decodeLE ((bytes.drop 4).take 4)) (bytes.drop 8) vfs.quota
    (result.1, { vfs with quota := result.2 })

/-- The records that are announced and complete. -/
def records : Nat → List (BitVec 8) → List (Nat × Nat)
  | 0, _ => []
  | count + 1, bytes =>
    if bytes.length < 16 then []
    else (decodeLE (bytes.take 8), decodeLE ((bytes.drop 8).take 8)) ::
      records count (bytes.drop 16)

def recordsOf (bytes : List (BitVec 8)) : List (Nat × Nat) :=
  records (decodeLE ((bytes.drop 4).take 4)) (bytes.drop 8)

def applyAll (quota : QuotaTracker) (entries : List (Nat × Nat)) : QuotaTracker :=
  entries.foldl (fun tracker entry => tracker.restore entry.1 entry.2) quota

theorem restore_entries_quota (count : Nat) (bytes : List (BitVec 8)) (quota : QuotaTracker) :
    (restoreEntries count bytes quota).2 = applyAll quota (records count bytes) := by
  induction count generalizing bytes quota with
  | zero => rfl
  | succ count ih =>
    rw [restoreEntries, records]
    split
    · rfl
    · exact ih _ _

theorem apply_all_used (quota : QuotaTracker) (entries : List (Nat × Nat)) (id : Nat) :
    (applyAll quota entries).used[id]? = (entries.reverse.lookup id).or quota.used[id]? := by
  induction entries using reverseRecOn with
  | nil => rfl
  | append_singleton front last ih =>
    obtain ⟨owner, bytes⟩ := last
    have ran : (applyAll quota (front ++ [(owner, bytes)])).used =
        (applyAll quota front).used.insert owner bytes := by
      unfold applyAll
      rw [foldl_append]
      rfl
    rw [ran, Std.TreeMap.getElem?_insert, ih, reverse_append, reverse_singleton,
      singleton_append, lookup_cons]
    by_cases same : owner = id
    · simp [same]
    · have other : (id == owner) = false := by simpa using Ne.symm same
      simp [same, other]

theorem records_encode (entries : List (Nat × Nat))
    (wide : ∀ entry ∈ entries, entry.1 < 2 ^ 64 ∧ entry.2 < 2 ^ 64) (quota : QuotaTracker) :
    records entries.length (entries.flatMap encodeEntry) = entries ∧
      (restoreEntries entries.length (entries.flatMap encodeEntry) quota).1 = .ok () := by
  induction entries generalizing quota with
  | nil => exact ⟨rfl, rfl⟩
  | cons entry rest ih =>
    obtain ⟨ids, used⟩ := wide entry mem_cons_self
    have later := fun quota => ih (fun other mem => wide other (mem_cons_of_mem _ mem)) quota
    have whole : (entry :: rest).flatMap encodeEntry =
        encodeLE 8 entry.1 ++ (encodeLE 8 entry.2 ++ rest.flatMap encodeEntry) := by
      rw [flatMap_cons, encodeEntry, append_assoc]
    have long : ¬ (encodeLE 8 entry.1 ++ (encodeLE 8 entry.2 ++ rest.flatMap encodeEntry)).length
        < 16 := by
      rw [length_append, length_append, length_encode, length_encode]
      omega
    rw [whole, length_cons, records, restoreEntries, if_neg long, decode_field 8 entry.1 _ ids,
      drop_field 8 _ 8 _ (by decide), drop_field 8 _ 16 _ (by decide)]
    simp only [Nat.reduceSub, drop_zero]
    rw [decode_field 8 entry.2 _ used, drop_field 8 _ 8 _ (by decide)]
    simp only [Nat.reduceSub, drop_zero]
    exact ⟨by rw [(later quota).1], (later _).2⟩

theorem lookup_entries (quota : QuotaTracker) (id : Nat) :
    quota.allEntries.reverse.lookup id = quota.used[id]? := by
  unfold QuotaTracker.allEntries
  cases found : quota.used[id]? with
  | none =>
    rw [lookup_eq_none_iff]
    intro entry mem
    rw [mem_reverse, mem_entries_iff] at mem
    rw [bne_iff_ne]
    rintro rfl
    cases found.symm.trans mem
  | some used =>
    have mem : (id, used) ∈ quota.used.toList := mem_entries_iff.mpr found
    obtain ⟨front, back, split⟩ := append_of_mem mem
    have ne := quota.used.distinct_keys_toList
    rw [split, pairwise_append, pairwise_cons] at ne
    rw [lookup_eq_some_iff]
    refine ⟨back.reverse, front.reverse, by simp [split], ?_⟩
    intro later listed
    rw [bne_iff_ne]
    rintro rfl
    exact ne.2.1.1 later (mem_reverse.mp listed) Std.ReflCmp.compare_self

theorem deserialize_records (vfs : VfsManager) (bytes : List (BitVec 8)) (id : Nat) :
    (vfs.deserializeState bytes).2.quota.used[id]? =
      ((recordsOf bytes).reverse.lookup id).or vfs.quota.used[id]? := by
  unfold deserializeState
  split
  · have cut : bytes.drop 8 = [] := drop_eq_nil_of_le (by omega)
    have none : recordsOf bytes = [] := by
      rw [recordsOf, cut]
      cases decodeLE ((bytes.drop 4).take 4) <;> rfl
    rw [none]
    rfl
  · rw [← apply_all_used, recordsOf, ← restore_entries_quota]

theorem read_serialized {vfs receiver : VfsManager} {room : Nat} {bytes : List (BitVec 8)}
    (few : vfs.quota.entryCount < 2 ^ 32)
    (wide : ∀ entry ∈ vfs.quota.allEntries, entry.1 < 2 ^ 64 ∧ entry.2 < 2 ^ 64)
    (written : vfs.serializeState room = .ok bytes) :
    recordsOf bytes = vfs.quota.allEntries ∧ (receiver.deserializeState bytes).1 = .ok () := by
  unfold serializeState at written
  split_ifs at written
  cases written
  have long : 8 ≤ (encodeLE 4 vfsSchemaVersion ++ (encodeLE 4 vfs.quota.allEntries.length ++
      vfs.quota.allEntries.flatMap encodeEntry)).length := by
    rw [length_append, length_append, length_encode, length_encode]
    omega
  have count : vfs.quota.allEntries.length < 256 ^ 4 := by
    rw [QuotaTracker.allEntries, Std.TreeMap.length_toList]
    exact few
  unfold recordsOf deserializeState
  rw [drop_field 4 _ 4 _ (by decide), drop_field 4 _ 8 _ (by decide)]
  simp only [Nat.reduceSub, drop_zero]
  rw [decode_field 4 _ _ count, drop_field 4 _ 4 _ (by decide)]
  exact records_encode vfs.quota.allEntries wide receiver.quota

/-- A restored cell has its serialised record. Any other string, rejected or not, leaves
its complete records behind. -/
theorem quota_transfer (vfs receiver : VfsManager) (bytes : List (BitVec 8)) :
    (∀ room, vfs.quota.entryCount < 2 ^ 32 →
      (∀ entry ∈ vfs.quota.allEntries, entry.1 < 2 ^ 64 ∧ entry.2 < 2 ^ 64) →
      vfs.serializeState room = .ok bytes →
      (receiver.deserializeState bytes).1 = .ok () ∧
        ∀ id : Nat, (receiver.deserializeState bytes).2.quota.used[id]? =
          (vfs.quota.used[id]?).or receiver.quota.used[id]?) ∧
    ∀ id : Nat, (receiver.deserializeState bytes).2.quota.used[id]? =
      ((recordsOf bytes).reverse.lookup id).or receiver.quota.used[id]? := by
  refine ⟨?_, deserialize_records receiver bytes⟩
  intro room few wide written
  obtain ⟨same, accepted⟩ := @read_serialized vfs receiver room bytes few wide written
  refine ⟨accepted, ?_⟩
  intro id
  rw [deserialize_records, same, lookup_entries]

/-- Cells 3 and 9 have records, the receiver one for cell 9. -/
theorem two_records_transferred :
    let vfs := { VfsManager.new none none none with
      quota := (QuotaTracker.new.charge 3 5).charge 9 70 }
    let receiver := { VfsManager.new none none none with quota := QuotaTracker.new.charge 9 1 }
    ∃ bytes, vfs.serializeState 40 = .ok bytes ∧
      (receiver.deserializeState bytes).1 = .ok () ∧
        ∀ id : Nat, (receiver.deserializeState bytes).2.quota.used[id]? =
          (vfs.quota.used[id]?).or receiver.quota.used[id]? := by
  intro vfs receiver
  obtain ⟨bytes, written⟩ : ∃ bytes, vfs.serializeState 40 = .ok bytes := ⟨_, rfl⟩
  exact ⟨bytes, written, (quota_transfer vfs receiver bytes).1 40 (by decide +kernel)
    (by decide +kernel) written⟩

/-- The second of two announced records is missing; the first is kept. -/
theorem rejected_record_kept :
    let vfs := VfsManager.new none none none
    let result := vfs.deserializeState (encodeLE 4 1 ++ encodeLE 4 2 ++ encodeEntry (7, 5))
    result.1 = .error .invalidInput ∧ vfs.quota.used[7]? = none ∧
      result.2.quota.used[7]? = some 5 := by
  decide +kernel

end VfsManager

end ViCell.Vfs
