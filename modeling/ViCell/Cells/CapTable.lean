import ViCell.Lib.TreeMaps
import ViCell.Cells.Tables

/-!
# What the calls on file capabilities do to the table

Apart from `alloc` and `grant_to`, which add an entry, a call removes entries or
moves a file in or out of one. Checks and moves look at one entry only.
-/

namespace ViCell.Cells

open Lib Memory

/-- Every entry of `after` was there before, but for its file. -/
def CapTable.Below (after before : CapTable) : Prop :=
  ∀ (id : Nat) (entry : CapEntry), after.entries[id]? = some entry →
    ∃ old, before.entries[id]? = some old ∧ entry = { old with file := entry.file }

namespace CapTable

variable (table : CapTable)

theorem Below.refl : table.Below table := fun _ entry found => ⟨entry, found, rfl⟩

theorem below_revoke (id : Nat) : (table.revoke id).Below table := by
  intro other entry found
  exact ⟨entry, (TreeMaps.get_erase_eq_some.mp found).2, rfl⟩

theorem below_revoke_all_for (owner : Nat) : (table.revokeAllFor owner).Below table := by
  intro id entry found
  exact ⟨entry, (TreeMaps.get_filter_eq_some.mp found).1, rfl⟩

theorem verify_cases (now id caller : Nat) : (table.verify now id caller).1 = table ∨
      (table.verify now id caller).1 = table.revoke id := by
  unfold verify
  split
  · exact .inl rfl
  · split
    · split
      · split
        · exact .inr rfl
        · exact .inl rfl
      · exact .inl rfl
    · exact .inl rfl

theorem below_verify (now id caller : Nat) : (table.verify now id caller).1.Below table := by
  rcases table.verify_cases now id caller with same | revoked
  · rw [same]
    exact Below.refl table
  · rw [revoked]
    exact table.below_revoke id

variable {id : Nat}

theorem below_insert {old : CapEntry} (found : table.entries[id]? = some old) (file : Option Nat) :
    CapTable.Below { table with entries := table.entries.insert id { old with file := file } }
      table := by
  intro other entry has
  rcases TreeMaps.get_insert_eq_some.mp has with ⟨same, isEntry⟩ | ⟨_, kept⟩
  · rw [same, ← isEntry]
    exact ⟨old, found, rfl⟩
  · exact ⟨entry, kept, rfl⟩

theorem Below.trans {first second third : CapTable} (later : third.Below second)
    (earlier : second.Below first) : third.Below first := by
  intro id entry found
  obtain ⟨middle, has, fromMiddle⟩ := later id entry found
  obtain ⟨old, existed, fromOld⟩ := earlier id middle has
  refine ⟨old, existed, ?_⟩
  rw [fromMiddle, fromOld]

@[simp] theorem next_id_verify (now id caller : Nat) :
    (table.verify now id caller).1.nextId = table.nextId := by
  rcases table.verify_cases now id caller with same | revoked
  · rw [same]
  · rw [revoked]
    rfl

@[simp] theorem next_id_park_file (now id owner : Nat) :
    (table.parkFile now id owner).1.nextId = table.nextId := by
  have verified := table.next_id_verify now id owner
  unfold parkFile
  split
  next checked error out =>
    rw [out] at verified
    exact verified
  next checked out =>
    rw [out] at verified
    split
    next => exact verified
    next =>
      split
      next => exact verified
      next => exact verified

@[simp] theorem next_id_unpark_file (id file : Nat) :
    (table.unparkFile id file).nextId = table.nextId := by
  unfold unparkFile
  split <;> rfl

theorem below_park_file (now id owner : Nat) : (table.parkFile now id owner).1.Below table := by
  have verified := table.below_verify now id owner
  unfold parkFile
  split
  next checked error out =>
    rw [out] at verified
    exact verified
  next checked out =>
    rw [out] at verified
    split
    next => exact verified
    next entry found =>
      split
      next => exact verified
      next => exact (checked.below_insert found none).trans verified

theorem below_unpark_file (id file : Nat) : (table.unparkFile id file).Below table := by
  unfold unparkFile
  split
  next => exact Below.refl table
  next entry found => exact table.below_insert found (some file)

theorem alloc_with_lease_eq (owner file perms expiresAt : Nat) :
    table.allocWithLease owner file perms expiresAt =
      ({ (table.alloc owner file perms).1 with
          entries := (table.alloc owner file perms).1.entries.insert table.nextId
            { owner := owner, file := some file, perms := perms, expiresAt := some expiresAt,
              grantDepth := maxGrantDepth } }, table.nextId) := by
  have found : (table.alloc owner file perms).1.entries[(table.alloc owner file perms).2]? =
      some { owner := owner, file := some file, perms := perms, expiresAt := none,
             grantDepth := maxGrantDepth } :=
    Std.TreeMap.getElem?_insert_self
  unfold allocWithLease
  dsimp only
  rw [found]
  rfl

theorem verify_result_congr {left right : CapTable} (same : left.entries[id]? = right.entries[id]?)
    (now caller : Nat) : (left.verify now id caller).2 = (right.verify now id caller).2 := by
  unfold verify
  rw [same]
  split
  · rfl
  · split
    · split
      · split <;> rfl
      · rfl
    · rfl

variable {now : Nat}

theorem verify_ok {caller : Nat} {checked : CapTable}
    (out : table.verify now id caller = (checked, .ok ())) : checked = table := by
  unfold verify at out
  split at out
  · cases out
  · split at out
    · split at out
      · split at out
        · cases out
        · cases out
          rfl
      · cases out
        rfl
    · cases out

/-- The caller owns the entry, and its lease has not run out. -/
def Accessible (now id caller : Nat) : Prop :=
  ∃ entry, table.entries[id]? = some entry ∧ entry.owner = caller ∧
    ∀ expiry, entry.expiresAt = some expiry → now < expiry

theorem accessible_of_verify {caller : Nat} {checked : CapTable}
    (out : table.verify now id caller = (checked, .ok ())) : table.Accessible now id caller := by
  unfold verify at out
  split at out
  next => cases out
  next entry found =>
    split at out
    next owned =>
      refine ⟨entry, found, owned, ?_⟩
      intro expiry lease
      rw [lease] at out
      dsimp only at out
      split at out
      next => cases out
      next running => exact Nat.lt_of_not_le running
    next => cases out

variable {after : CapTable}

theorem park_file_ok {owner file : Nat} (out : table.parkFile now id owner = (after, .ok file)) :
    table.Accessible now id owner ∧
      ∃ entry, table.entries[id]? = some entry ∧ entry.file = some file := by
  unfold parkFile at out
  split at out
  next => cases out
  next checked verified =>
    have same := table.verify_ok verified
    subst same
    refine ⟨checked.accessible_of_verify verified, ?_⟩
    split at out
    next => cases out
    next entry found =>
      split at out
      next => cases out
      next inside has =>
        cases out
        exact ⟨entry, found, has⟩

theorem grant_to_ok {fromCell toCell new : Nat}
    (out : table.grantTo now id fromCell toCell = (after, .ok new)) :
    table.Accessible now id fromCell ∧
      ∃ entry, table.entries[id]? = some entry ∧ entry.grantDepth ≠ 0 ∧ new = table.nextId ∧
        after = { entries := table.entries.insert table.nextId
                    { owner := toCell, file := none, perms := entry.perms,
                      expiresAt := entry.expiresAt, grantDepth := entry.grantDepth - 1 }
                  nextId := max (usize (table.nextId + 1)) 1 } := by
  unfold grantTo at out
  split at out
  next => cases out
  next checked verified =>
    have same := table.verify_ok verified
    subst same
    refine ⟨checked.accessible_of_verify verified, ?_⟩
    split at out
    next => cases out
    next entry found =>
      split at out
      next => cases out
      next pos =>
        cases out
        exact ⟨entry, found, pos, rfl, rfl⟩

theorem grant_to_error {fromCell toCell : Nat} {error : ViError}
    (out : table.grantTo now id fromCell toCell = (after, .error error)) :
    after.Below table ∧ after.nextId = table.nextId := by
  have below := table.below_verify now id fromCell
  have nextId := table.next_id_verify now id fromCell
  unfold grantTo at out
  split at out
  next checked denied verified =>
    cases out
    rw [verified] at below nextId
    exact ⟨below, nextId⟩
  next checked verified =>
    rw [verified] at below nextId
    split at out
    next =>
      cases out
      exact ⟨below, nextId⟩
    next =>
      split at out
      next =>
        cases out
        exact ⟨below, nextId⟩
      next => cases out

theorem park_file_result_congr {left right : CapTable}
    (same : left.entries[id]? = right.entries[id]?) (now owner : Nat) :
    (left.parkFile now id owner).2 = (right.parkFile now id owner).2 := by
  have checks := verify_result_congr same now owner
  unfold parkFile
  cases leftRun : left.verify now id owner with
  | mk _ leftResult =>
    cases rightRun : right.verify now id owner with
    | mk =>
      rw [leftRun, rightRun] at checks
      subst checks
      cases leftResult with
      | error => rfl
      | ok =>
        rw [left.verify_ok leftRun, right.verify_ok rightRun]
        dsimp only
        rw [same]
        split
        · rfl
        · split <;> rfl

end CapTable

end ViCell.Cells
