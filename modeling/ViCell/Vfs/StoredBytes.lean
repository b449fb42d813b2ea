import ViCell.Vfs.DiskLibraries

/-!
# What requests store and remove

Every operation of a backend that succeeds exchanges at most one file of its volume
for another, by every measure of the files that requests wrote.
-/

namespace ViCell.Vfs

open Lib Option FileTree

/-- What a file counts when only the files that a request wrote do. -/
def requested (file : StoredFile) : Nat := if file.writer = none then 0 else file.size

def measured (size : StoredFile → Nat) (files : List StoredFile) : Nat := (files.map size).sum

section Measures

variable {size large : StoredFile → Nat} {files others : List StoredFile}

theorem measured_append :
    measured size (files ++ others) = measured size files + measured size others := by
  simp [measured]

theorem measured_perm (same : files.Perm others) : measured size files = measured size others :=
  (same.map size).sum_eq

theorem measured_le (less : size ≤ large) : measured size files ≤ measured large files :=
  List.sum_le_sum (fun file _ => less file)

end Measures

/-- One file is gone and one is new, or none. -/
def Exchanges (tree after : Tree) (old new : Option StoredFile) : Prop :=
  ∀ size ≤ requested, measured size after.contents + measured size old.toList =
    measured size tree.contents + measured size new.toList

variable {tree after : Tree} {old new : Option StoredFile}

theorem Exchanges.of_perm (same : (after.contents ++ old.toList).Perm (new.toList ++ tree.contents)) :
    Exchanges tree after old new := by
  intro size _
  have sums := @measured_perm size _ _ same
  rw [measured_append, measured_append] at sums
  omega

theorem Exchanges.refl (tree : Tree) : Exchanges tree tree none none := fun _ _ => rfl

theorem Exchanges.after_same {middle : Tree} (first : Exchanges tree middle none none)
    (second : Exchanges middle after old new) : Exchanges tree after old new := by
  intro size less
  have same : measured size middle.contents = measured size tree.contents := first size less
  rw [second size less, same]

theorem Exchanges.trans {middle : Tree} {between : Option StoredFile}
    (first : Exchanges tree middle old between) (second : Exchanges middle after between new) :
    Exchanges tree after old new := by
  intro size less
  have left := first size less
  have right := second size less
  omega

variable {path : List Text}

theorem file_at_content (tree : Tree) (path : List Text) :
    fileAt tree path = (tree.lookup path).bind FileNode.content := by
  unfold fileAt
  cases tree.lookup path with
  | none => rfl
  | some node =>
    cases node with
    | file => rfl
    | dir => rfl

theorem write_exchanges {file : StoredFile} (written : tree.writeFile path file = some after) :
    Exchanges tree after (fileAt tree path) (some file) := by
  rw [file_at_content]
  exact .of_perm (contents_write_file written)

theorem same_files_exchanges (same : after.files.Perm tree.files) :
    Exchanges tree after none none :=
  .of_perm (by simpa [contents] using same.map Prod.snd)

theorem make_dir_exchanges (made : tree.makeDir path = some after) :
    Exchanges tree after none none :=
  same_files_exchanges (by rw [files_make_dir made])

theorem remove_exchanges (removed : tree.remove path = some after) :
    Exchanges tree after (fileAt tree path) none := by
  rw [file_at_content]
  exact .of_perm (contents_remove removed)

theorem file_at_dir (isDir : tree.lookup path = some .dir) : fileAt tree path = none := by
  unfold fileAt
  rw [isDir]

theorem remove_dir_exchanges (removed : removeDir tree path = some after) :
    Exchanges tree after none none := by
  unfold removeDir at removed
  split at removed
  · next isDir =>
    have exchanged := remove_exchanges removed
    rw [file_at_dir isDir] at exchanged
    exact exchanged
  · cases removed

theorem remove_file_exchanges (removed : removeFile tree path = some after) :
    Exchanges tree after (fileAt tree path) none := by
  unfold removeFile at removed
  split at removed
  · cases removed
  · exact remove_exchanges removed

/-- A call that succeeds exchanges these files. -/
def Outcome (tree : Tree) (result : Tree × Bool) (old new : Option StoredFile) : Prop :=
  result.2 = true → Exchanges tree result.1 old new

theorem Outcome.settled {out : Option Tree}
    (exchanged : ∀ after, out = some after → Exchanges tree after old new) :
    Outcome tree (settle tree out) old new := by
  cases out with
  | none => exact nofun
  | some after => exact fun _ => exchanged after rfl

namespace RamFs

theorem target_eq {path : Text} {parts : List Text} (cut : target path = some parts) :
    parts = components path := by
  obtain ⟨⟨_, _⟩, split, rfl⟩ := map_eq_some_iff.mp cut
  exact (components_split_parent_name split).symm

variable (tree : Tree) (path : Text)

theorem write_node_outcome (file : StoredFile) :
    Outcome tree (writeNode tree path file) (read tree path) (some file) := by
  apply Outcome.settled
  intro after written
  obtain ⟨_, cut, written⟩ := bind_eq_some_iff.mp written
  rw [target_eq cut] at written
  exact write_exchanges written

theorem write_outcome (file : StoredFile) :
    Outcome tree (write tree path file) (read tree path) (some file) := by
  unfold write
  split
  · exact write_node_outcome tree path file
  · exact nofun

theorem append_outcome (file : StoredFile) : Outcome tree (append tree path file) (read tree path)
      (some { file with data := ((read tree path).map StoredFile.data).getD [] ++ file.data }) := by
  unfold append
  split
  · exact write_node_outcome tree path _
  · exact nofun

theorem mkdir_outcome : Outcome tree (mkdir tree path) none none := by
  apply Outcome.settled
  intro after made
  obtain ⟨_, _, made⟩ := bind_eq_some_iff.mp made
  exact make_dir_exchanges made

theorem rmdir_outcome : Outcome tree (rmdir tree path) none none := by
  apply Outcome.settled
  intro after removed
  obtain ⟨_, _, removed⟩ := bind_eq_some_iff.mp removed
  exact remove_dir_exchanges removed

theorem unlink_outcome : Outcome tree (unlink tree path) (read tree path) none := by
  apply Outcome.settled
  intro after removed
  obtain ⟨_, cut, removed⟩ := bind_eq_some_iff.mp removed
  rw [target_eq cut] at removed
  exact remove_file_exchanges removed

end RamFs

namespace Lfs

variable {lib : Libraries} (laws : LfsLaws lib) (tree : Tree) (path : Text)

/-- The file that a path names. -/
def held : Option StoredFile :=
  (relPath lib path).bind (fun rel => fileAt tree (laws.place rel))

variable {tree path}

theorem change_done {act : Text → Tree × Bool} (done : (change lib tree path act).2 = true) :
    ∃ rel, relPath lib path = some rel ∧ change lib tree path act = act rel := by
  unfold change at done ⊢
  split at done
  · cases done
  · next rel found => exact ⟨rel, found, rfl⟩

theorem change_outcome {act : Text → Tree × Bool}
    (acts : ∀ rel, relPath lib path = some rel → Outcome tree (act rel) old new) :
    Outcome tree (change lib tree path act) old new := by
  intro done
  obtain ⟨rel, found, changed⟩ := change_done done
  rw [changed] at done ⊢
  exact acts rel found done

theorem held_eq {rel : Text} (found : relPath lib path = some rel) :
    held laws tree path = fileAt tree (laws.place rel) := by
  unfold held
  rw [found]
  rfl

variable (tree path)

theorem write_outcome (file : StoredFile) :
    Outcome tree (write lib tree path file) (held laws tree path) (some file) := by
  apply change_outcome
  intro rel found done
  rw [held_eq laws found]
  exact write_exchanges (laws.write_all_done (Prod.ext rfl done))

theorem append_outcome (file : StoredFile) :
    Outcome tree (append lib tree path file) (held laws tree path)
      (some { file with
        data := ((held laws tree path).map StoredFile.data).getD [] ++ file.data }) := by
  apply change_outcome
  intro rel found done
  rw [held_eq laws found]
  exact write_exchanges (laws.write_all_done (Prod.ext rfl done))

include laws in
theorem mkdir_outcome : Outcome tree (mkdir lib tree path) none none := by
  apply change_outcome
  intro rel _ done
  exact same_files_exchanges (laws.create_dir_all_done (Prod.ext rfl done))

theorem metadata_is_dir {rel : Text} (isDir : Bool)
    (shown : (lib.lfsMetadata tree rel).map Prod.snd = some isDir) :
    ∃ node, tree.lookup (laws.place rel) = some node ∧ node.isDir = isDir := by
  rw [laws.metadata, Option.map_map] at shown
  exact map_eq_some_iff.mp shown

include laws in
theorem rmdir_outcome : Outcome tree (rmdir lib tree path) none none := by
  apply change_outcome
  intro rel _
  split
  · next shown =>
    intro done
    obtain ⟨node, found, isDir⟩ := metadata_is_dir laws tree true shown
    have exchanged := remove_exchanges (laws.remove_dir_done (Prod.ext rfl done))
    cases node with
    | file => cases isDir
    | dir =>
      rw [file_at_dir found] at exchanged
      exact exchanged
  · exact nofun

theorem unlink_outcome : Outcome tree (unlink lib tree path) (held laws tree path) none := by
  apply change_outcome
  intro rel found
  split
  · intro done
    rw [held_eq laws found]
    exact remove_exchanges (laws.remove_done (Prod.ext rfl done))
  · exact nofun

end Lfs

end ViCell.Vfs
