import ViCell.Vfs.RecursiveRemoval

/-!
# Quotas over runs of requests

From boot on, whatever the cells ask for: the recorded usage is the size of the
files that requests stored, as long as every request keeps to the sender's files
and none fails half-way.
-/

namespace ViCell.Vfs

open Lib Option FileTree

namespace VfsManager

variable {lib : Libraries}

/-- Nothing that the disks hold at boot was written by a request. -/
structure FoundAtBoot (laws : Documented lib) (fat lfs srv : Option Tree) : Prop where
  unwritten : ∀ file ∈ (new fat lfs srv).stored, file.writer = none
  consistent : ∀ tree ∈ fat, laws.fat.Consistent tree

theorem measured_unwritten {files : List StoredFile}
    (unwritten : ∀ file ∈ files, file.writer = none) : measured requested files = 0 := by
  apply List.sum_eq_zero
  intro _ listed
  obtain ⟨file, mem, rfl⟩ := List.mem_map.mp listed
  exact if_pos (unwritten file mem)

theorem FoundAtBoot.accounted {laws : Documented lib} {fat lfs srv : Option Tree}
    (found : FoundAtBoot laws fat lfs srv) : Accounted laws (new fat lfs srv) where
  sane backend tree mounted := by
    cases backend with
    | fat => exact found.consistent tree mounted
    | srv =>
      exact measured_unwritten (fun file mem => found.unwritten file (stored_of_mem mounted mem))
    | ram | lfs | boot => trivial
  used cell := by
    have less := @measured_le _ _ (new fat lfs srv).stored (by_writer_le cell)
    rw [measured_unwritten found.unwritten] at less
    exact (Nat.le_zero.mp less).symm
  total := (measured_unwritten found.unwritten).symm
  bounded cell := Nat.zero_le _

theorem serve_accounted {laws : Documented lib} {vfs after : VfsManager} {call : VfsCall}
    (sound : Accounted laws vfs) (met : AccountedCall laws vfs call)
    (served : serve lib vfs call = some after) : Accounted laws after := by
  have repending : ∀ pending, Accounted laws { vfs with pending := pending } := fun _ =>
    ⟨sound.sane, sound.used, sound.total, sound.bounded⟩
  cases served
  obtain ⟨sender, request, faulty⟩ := call
  -- A request that changes files is served by the libraries as documented.
  have usual : faulty.isNone = true → faulty.getD lib = lib := by
    intro none
    rw [isNone_iff_eq_none.mp none]
    rfl
  cases request with
  | malformed | listDir path | readGrant shared | writeGrant shared bytes => exact sound
  | getFile path | stat path =>
    unfold handleRequest
    dsimp only
    split <;> exact sound
  | write =>
    obtain ⟨⟨none, clean⟩, own, plain⟩ := met
    rw [usual none]
    exact write_accounted sound plain own clean
  | append =>
    obtain ⟨⟨none, clean⟩, own, plain⟩ := met
    rw [usual none]
    exact append_accounted sound plain own clean
  | mkdir =>
    obtain ⟨⟨none, clean⟩, plain⟩ := met
    rw [usual none]
    exact mkdir_accounted sound plain clean
  | rmdir =>
    obtain ⟨⟨none, clean⟩, plain⟩ := met
    rw [usual none]
    exact rmdir_accounted sound plain clean
  | unlink =>
    obtain ⟨⟨none, clean⟩, own, plain⟩ := met
    rw [usual none]
    exact unlink_accounted sound plain own clean
  | rmdirRecursive =>
    obtain ⟨⟨none, clean⟩, own⟩ := met
    rw [usual none]
    exact rmdir_recursive_accounted sound own clean
  | readAsync => exact repending _
  | poll =>
    unfold handleRequest
    dsimp only
    split
    · exact repending _
    · exact sound

theorem empty_found_at_boot :
    FoundAtBoot literalDocumented (some empty) (some empty) none where
  unwritten := by decide +kernel
  consistent _ _ := trivial

def bookkeepingCalls : List VfsCall := [
  ⟨5, .write "/tmp/a".toList [1, 2, 3], none⟩,
  ⟨5, .write "/tmp/a".toList [1], none⟩,
  ⟨6, .mkdir "/data/d".toList, none⟩,
  ⟨6, .append "/data/d/f".toList [1, 2], none⟩,
  ⟨7, .write "/mnt/sd/m/n".toList [1, 2, 3, 4], none⟩,
  ⟨7, .rmdirRecursive "/mnt/sd/m".toList, none⟩,
  ⟨6, .write "/data/d/g".toList [9], none⟩,
  ⟨5, .unlink "/tmp/a".toList, none⟩]

def bookkept : VfsManager :=
  finalState (serve literalNames) (new (some empty) (some empty) none) bookkeepingCalls

end VfsManager

end ViCell.Vfs
