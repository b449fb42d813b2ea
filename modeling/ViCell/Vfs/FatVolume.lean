import ViCell.Vfs.StoredBytes

/-!
# Files on the FAT volume

What a path names depends on how the library reads the names on the way. The
requests follow the same names one by one, so a write exchanges the file that the
path named before.
-/

namespace ViCell.Vfs

open Lib List Option FileTree

theorem NoDots.entry {path part : Text} (noDots : NoDots path) (mem : part ∈ components path) :
    EntryName part :=
  ⟨components_plain path part mem, fun same => noDots.1 (same ▸ mem),
    fun same => noDots.2 (same ▸ mem)⟩

theorem EntryName.no_dots {name : Text} (entry : EntryName name) : NoDots name := by
  unfold NoDots
  rw [components_name entry.1]
  exact ⟨fun mem => entry.2.1 (mem_singleton.mp mem).symm,
    fun mem => entry.2.2 (mem_singleton.mp mem).symm⟩

theorem NoDots.child {path name : Text} (noDots : NoDots path) (entry : EntryName name) :
    NoDots (path ++ '/' :: name) := by
  unfold NoDots at noDots ⊢
  rw [components_child entry.1]
  simp [noDots, entry.2.1.symm, entry.2.2.symm]

namespace Fat

variable {lib : Libraries} {laws : FatLaws lib} {tree after : Tree} {dir : List Text} {name : Text}

theorem lookup_below_missing {path : List Text} (gone : tree.lookup path = none) :
    tree.lookup (path ++ [name]) = none := by
  by_contra has
  obtain ⟨node, found⟩ := ne_none_iff_exists'.mp has
  have parent := lookup_parent ((lookup_eq_some (by simp) node).mp found)
  rw [dropLast_concat, gone] at parent
  cases parent

theorem make_dir_empty {path : List Text} (made : tree.makeDir path = some after) (name : Text) :
    after.lookup (path ++ [name]) = none := by
  have gone : tree.lookup path = none := by
    unfold makeDir at made
    split at made
    · next placed => exact placed.2.2
    · cases made
  rw [lookup_make_dir made, if_neg (by simp)]
  exact lookup_below_missing gone

theorem file_at_missing {path : List Text} (gone : tree.lookup path = none) :
    fileAt tree path = none := by
  unfold fileAt
  rw [gone]

theorem file_at_written {path : List Text} {file : StoredFile}
    (written : tree.writeFile path file = some after) : fileAt after path = some file := by
  unfold fileAt
  rw [lookup_write_file written, if_pos rfl]

section Find

variable (laws) {path : Text} {place parts : List Text}

theorem open_file_held (noDots : NoDots path)
    (found : laws.find tree dir (components path) = some place) :
    (lib.fatOpenFile tree dir path).bind (fileAt tree) = fileAt tree place := by
  rw [laws.open_file noDots, found]
  cases held : fileAt tree place with
  | none => rw [filter_some, held]; rfl
  | some => rw [filter_some, held]; exact held

include laws in
theorem open_file_some (noDots : NoDots path) (opened : lib.fatOpenFile tree dir path = some place) :
    ∃ file, fileAt tree place = some file := by
  rw [laws.open_file noDots] at opened
  exact isSome_iff_exists.mp (filter_eq_some_iff.mp opened).2

theorem find_in_empty (entry : EntryName name) (empty : ∀ name, tree.lookup (dir ++ [name]) = none) :
    laws.find tree dir [name] = none := by
  cases found : laws.find tree dir [name] with
  | none => rfl
  | some =>
    obtain ⟨stored, rfl, has⟩ := laws.find_name entry found
    exact absurd (empty stored) has

theorem find_last (entries : ∀ part ∈ parts, EntryName part) (below : parts ≠ [])
    (found : laws.find tree dir parts = some place) (isDir : tree.lookup place = some .dir) :
    laws.find tree dir (parts ++ [name]) = laws.find tree place [name] := by
  induction parts generalizing dir with
  | nil => exact absurd rfl below
  | cons part rest ih =>
    have entry := entries part mem_cons_self
    rw [cons_append, laws.find_cons entry (by simp)]
    by_cases last : rest = []
    · rw [last] at found ⊢
      rw [found, filter_some, if_pos (decide_eq_true isDir)]
      rfl
    · rw [laws.find_cons entry last] at found
      obtain ⟨inner, entered, lower⟩ := bind_eq_some_iff.mp found
      rw [entered]
      exact ih (fun other mem => entries other (mem_cons_of_mem _ mem)) last lower

end Find

section Chain

variable {parts final : List Text} {made : Tree}

section

variable (entries : ∀ part ∈ parts, EntryName part)
include entries

theorem chain_consistent (consistent : laws.Consistent tree) :
    laws.Consistent (ensureDirChain lib tree dir parts).1 := by
  induction parts generalizing tree dir with
  | nil => exact consistent
  | cons part rest ih =>
    have kept := @laws.create_dir_consistent tree dir part (entries part mem_cons_self) consistent
    unfold ensureDirChain
    cases created : lib.fatCreateDir tree dir part with
    | mk after next =>
      rw [created] at kept
      cases next with
      | none => exact kept
      | some => exact ih (fun other mem => entries other (mem_cons_of_mem _ mem)) kept

variable (ended : ensureDirChain lib tree dir parts = (made, some final))
include laws ended

theorem chain_from_empty (empty : ∀ name, tree.lookup (dir ++ [name]) = none) :
    Exchanges tree made none none ∧ ∀ name, made.lookup (final ++ [name]) = none := by
  induction parts generalizing tree dir with
  | nil =>
    cases ended
    exact ⟨Exchanges.refl _, empty⟩
  | cons part rest ih =>
    have entry := entries part mem_cons_self
    unfold ensureDirChain at ended
    cases created : lib.fatCreateDir tree dir part with
    | mk _ next =>
      rw [created] at ended
      cases next with
      | none => cases ended
      | some =>
        have closed : lib.fatOpenDir tree dir part = none := by
          rw [laws.open_dir entry.no_dots, components_name entry.1, find_in_empty laws entry empty]
          rfl
        have makes := laws.create_dir_new entry closed created
        obtain ⟨files, last⟩ := ih (fun other mem => entries other (mem_cons_of_mem _ mem))
          ended (make_dir_empty makes)
        exact ⟨(make_dir_exchanges makes).after_same files, last⟩

/-- A chain that creates nothing ends where the path leads; otherwise it ends in a
new directory. -/
theorem chain_walk :
    (made = tree ∧ ∀ name, laws.find tree dir (parts ++ [name]) = laws.find tree final [name]) ∨
    ((∀ name, laws.find tree dir (parts ++ [name]) = none) ∧ Exchanges tree made none none ∧
      ∀ name, made.lookup (final ++ [name]) = none) := by
  induction parts generalizing dir with
  | nil =>
    cases ended
    exact Or.inl ⟨rfl, fun _ => rfl⟩
  | cons part rest ih =>
    have entry := entries part mem_cons_self
    have others : ∀ other ∈ rest, EntryName other :=
      fun other mem => entries other (mem_cons_of_mem _ mem)
    have enters : ∀ name, laws.find tree dir (part :: rest ++ [name]) =
        (lib.fatOpenDir tree dir part).bind (fun inner => laws.find tree inner (rest ++ [name])) := by
      intro name
      rw [cons_append, laws.find_cons entry (by simp), laws.open_dir entry.no_dots,
        components_name entry.1]
    unfold ensureDirChain at ended
    simp only [enters]
    cases opened : lib.fatOpenDir tree dir part with
    | some next =>
      rw [laws.create_dir_open entry opened] at ended
      exact ih others ended
    | none =>
      cases created : lib.fatCreateDir tree dir part with
      | mk _ next =>
        rw [created] at ended
        cases next with
        | none => cases ended
        | some =>
          have makes := laws.create_dir_new entry opened created
          obtain ⟨files, last⟩ :=
            @chain_from_empty lib laws _ _ _ _ _ others ended (make_dir_empty makes)
          exact Or.inr ⟨fun _ => rfl, (make_dir_exchanges makes).after_same files, last⟩

theorem chain_exchanges : Exchanges tree made none none := by
  rcases @chain_walk lib laws _ _ _ _ _ entries ended with ⟨rfl, _⟩ | ⟨_, files, _⟩
  · exact Exchanges.refl _
  · exact files

end

include laws in
/-- What the directory at the end of the chain holds under the name is what the path
named at the start. -/
theorem held_in_chain {rel : Text} (noDots : NoDots rel) (cut : components rel = parts ++ [name])
    (ended : ensureDirChain lib tree [] parts = (made, some final)) :
    (lib.fatOpenFile made final name).bind (fileAt made) =
      (lib.fatOpenFile tree [] rel).bind (fileAt tree) := by
  have entry : EntryName name := noDots.entry (by rw [cut]; simp)
  have entries : ∀ part ∈ parts, EntryName part :=
    fun part mem => noDots.entry (by rw [cut]; exact mem_append_left _ mem)
  rw [laws.open_file noDots, cut, laws.open_file entry.no_dots, components_name entry.1]
  rcases @chain_walk lib laws _ _ _ _ _ entries ended with ⟨rfl, walked⟩ | ⟨lost, _, empty⟩
  · rw [walked]
  · rw [lost, find_in_empty laws entry empty]
    rfl

end Chain

theorem components_split_last {parent : Text} (cut : splitLast rel = (parent, name))
    (named : name ≠ []) : components rel = components parent ++ [name] := by
  unfold splitLast at cut
  cases found : splitAtLast rel with
  | none =>
    rw [found] at cut
    cases cut
    rw [components_name ⟨named, split_at_last_none found⟩]
    rfl
  | some =>
    rw [found] at cut
    cases cut
    obtain ⟨same, free⟩ := split_at_last_some found
    rw [same, components_child ⟨named, free⟩]

/-- The volume stays consistent, and a request that succeeds exchanges the one file. -/
def Served (laws : FatLaws lib) (tree : Tree) (result : Tree × Bool) (old new : Option StoredFile) :
    Prop :=
  laws.Consistent result.1 ∧ Outcome tree result old new

theorem overwritten_empty (writer : Option Nat) (file : StoredFile) :
    overwritten ⟨[], writer⟩ file 0 = file := by
  simp [overwritten]

theorem overwritten_end (old file : StoredFile) :
    overwritten old file old.size = { file with data := old.data ++ file.data } := by
  simp [overwritten, StoredFile.size]

section InDirectory

variable {made : Tree} (consistent : laws.Consistent made) (entry : EntryName name)
include consistent entry

/-- Whether or not there was something to remove, no file has the name afterwards. -/
theorem remove_clears (dir : List Text) :
    laws.Consistent (lib.fatRemove made dir name).1 ∧
      lib.fatOpenFile (lib.fatRemove made dir name).1 dir name = none ∧
      Exchanges made (lib.fatRemove made dir name).1
        ((lib.fatOpenFile made dir name).bind (fileAt made)) none := by
  have kept := @laws.remove_consistent made dir name entry.no_dots consistent
  cases removal : lib.fatRemove made dir name with
  | mk cleared done =>
    rw [removal] at kept
    refine ⟨kept, ?_⟩
    cases done with
    | true =>
      obtain ⟨place, found, removed⟩ := laws.remove_done entry.no_dots removal
      rw [open_file_held laws entry.no_dots found, laws.open_file entry.no_dots,
        components_name entry.1, laws.removed_missing consistent entry removal]
      exact ⟨rfl, remove_exchanges removed⟩
    | false =>
      obtain rfl := laws.remove_failed entry.no_dots removal
      have missing : lib.fatOpenFile cleared dir name = none := by
        cases opened : lib.fatOpenFile cleared dir name with
        | none => rfl
        | some =>
          have removes := laws.remove_file entry.no_dots opened
          rw [removal] at removes
          cases removes
      rw [missing]
      exact ⟨rfl, Exchanges.refl _⟩

theorem create_served {dir : List Text} {writer : Option Nat} {file : StoredFile}
    {place : List Text} {created : Tree} (missing : lib.fatOpenFile made dir name = none)
    (creation : lib.fatCreateFile made dir name writer = (created, some place)) :
    Served laws made (lib.fatWriteAll created place 0 file) none (some file) := by
  have kept := @laws.create_file_consistent made dir name writer entry consistent
  rw [creation] at kept
  refine ⟨laws.write_all_consistent kept, ?_⟩
  intro done
  obtain ⟨free, added⟩ := laws.create_file_new entry missing creation
  have isFile := file_at_written added
  have first := write_exchanges added
  have second := write_exchanges (laws.write_all_done isFile (Prod.ext rfl done))
  rw [file_at_missing free] at first
  rw [isFile, overwritten_empty] at second
  exact first.trans second

theorem replace_served (dir : List Text) (file : StoredFile) :
    Served laws made (replaceIn lib made dir name file)
      ((lib.fatOpenFile made dir name).bind (fileAt made)) (some file) := by
  obtain ⟨kept, missing, removed⟩ := remove_clears consistent entry dir
  unfold replaceIn
  cases creation : lib.fatCreateFile (lib.fatRemove made dir name).1 dir name file.writer with
  | mk created place =>
    cases place with
    | none =>
      have createdKept := @laws.create_file_consistent _ dir name file.writer entry kept
      rw [creation] at createdKept
      exact ⟨createdKept, nofun⟩
    | some =>
      obtain ⟨stays, outcome⟩ := create_served kept entry missing creation
      exact ⟨stays, fun done => removed.trans (outcome done)⟩

theorem extend_served (dir : List Text) (file : StoredFile) :
    Served laws made (extendIn lib made dir name file)
      ((lib.fatOpenFile made dir name).bind (fileAt made))
      (some { file with data := (((lib.fatOpenFile made dir name).bind (fileAt made)).map
        StoredFile.data).getD [] ++ file.data }) := by
  unfold extendIn
  cases opened : lib.fatOpenFile made dir name with
  | some place =>
    obtain ⟨old, isFile⟩ := open_file_some laws entry.no_dots opened
    dsimp only
    rw [laws.seek_end isFile, bind_some, isFile]
    refine ⟨laws.write_all_consistent consistent, ?_⟩
    intro done
    have written := write_exchanges (laws.write_all_done isFile (Prod.ext rfl done))
    rw [isFile, overwritten_end] at written
    exact written
  | none =>
    dsimp only
    cases creation : lib.fatCreateFile made dir name file.writer with
    | mk created place =>
      cases place with
      | none =>
        have kept := @laws.create_file_consistent made dir name file.writer entry consistent
        rw [creation] at kept
        exact ⟨kept, nofun⟩
      | some =>
        have isFile := file_at_written (laws.create_file_new entry opened creation).2
        dsimp only
        rw [laws.seek_end isFile]
        exact create_served consistent entry opened creation

end InDirectory

theorem in_parent_served {rel : Text} (noDots : NoDots rel) (consistent : laws.Consistent tree)
    {act : Tree → List Text → Text → Tree × Bool} (new : Option StoredFile → Option StoredFile)
    (acts : ∀ made dir name, laws.Consistent made → EntryName name →
      Served laws made (act made dir name) ((lib.fatOpenFile made dir name).bind (fileAt made))
        (new ((lib.fatOpenFile made dir name).bind (fileAt made)))) :
    Served laws tree (inParent lib tree rel act) ((lib.fatOpenFile tree [] rel).bind (fileAt tree))
      (new ((lib.fatOpenFile tree [] rel).bind (fileAt tree))) := by
  unfold inParent
  cases cut : splitLast rel with
  | mk parent name =>
    dsimp only
    split
    · exact ⟨consistent, nofun⟩
    · next isName =>
      have parts := components_split_last cut isName
      have entries : ∀ part ∈ components parent, EntryName part :=
        fun part mem => noDots.entry (by rw [parts]; exact mem_append_left _ mem)
      have kept := @chain_consistent lib laws tree [] _ entries consistent
      cases ended : ensureDirChain lib tree [] (components parent) with
      | mk made last =>
        rw [ended] at kept
        cases last with
        | none => exact ⟨kept, nofun⟩
        | some final =>
          have held := @held_in_chain lib laws _ _ _ _ _ _ noDots parts ended
          obtain ⟨stays, outcome⟩ := acts made final name kept (noDots.entry (by rw [parts]; simp))
          rw [held] at outcome
          exact ⟨stays, fun done =>
            (@chain_exchanges lib laws _ _ _ _ _ entries ended).after_same (outcome done)⟩

theorem rel_components {path : Text} (found : relNonempty path = some rel) :
    components path = ["mnt".toList, "sd".toList] ++ components rel := by
  obtain ⟨cut, _⟩ := filter_eq_some_iff.mp found
  obtain ⟨_, first, second⟩ := bind_eq_some_iff.mp cut
  obtain ⟨_, rfl, isMount⟩ := dropPrefix?_eq_some_iff.mp first
  obtain ⟨_, rfl, isSlash⟩ := dropPrefix?_eq_some_iff.mp second
  rw [eq_of_beq isMount, eq_of_beq isSlash]
  exact components_append_slash "/mnt/sd".toList rel

theorem rel_no_dots {path rel : Text} (found : relNonempty path = some rel) (noDots : NoDots path) :
    NoDots rel := by
  unfold NoDots at noDots
  rw [rel_components found] at noDots
  exact ⟨fun mem => noDots.1 (mem_append_right _ mem), fun mem => noDots.2 (mem_append_right _ mem)⟩

theorem dot_dot_mem {rel : Text} : hasDotDot rel = true ↔ dotDot ∈ components rel := by
  unfold hasDotDot components
  simp [dotDot]

/-- The file that a path names. -/
def held (lib : Libraries) (tree : Tree) (path : Text) : Option StoredFile :=
  (openFile lib tree path).bind (fileAt tree)

theorem held_eq {path rel : Text} (found : relNonempty path = some rel) :
    held lib tree path = (lib.fatOpenFile tree [] rel).bind (fileAt tree) := by
  unfold held openFile
  rw [found]
  rfl

section Requests

variable {path : Text} (noDots : NoDots path) (consistent : laws.Consistent tree)
include noDots consistent

theorem write_served (file : StoredFile) :
    Served laws tree (write lib tree path file) (held lib tree path) (some file) := by
  unfold write
  cases found : relNonempty path with
  | none => exact ⟨consistent, nofun⟩
  | some rel =>
    rw [held_eq found]
    exact in_parent_served (rel_no_dots found noDots) consistent (fun _ => some file)
      (fun made dir name kept entry => replace_served kept entry dir file)

theorem append_served (file : StoredFile) :
    Served laws tree (append lib tree path file) (held lib tree path)
      (some { file with
        data := ((held lib tree path).map StoredFile.data).getD [] ++ file.data }) := by
  unfold append
  cases found : relNonempty path with
  | none => exact ⟨consistent, nofun⟩
  | some rel =>
    dsimp only
    split
    · exact ⟨consistent, nofun⟩
    · rw [held_eq found]
      exact in_parent_served (rel_no_dots found noDots) consistent
        (fun old => some { file with data := (old.map StoredFile.data).getD [] ++ file.data })
        (fun made dir name kept entry => extend_served kept entry dir file)

theorem mkdir_served : Served laws tree (mkdir lib tree path) none none := by
  unfold mkdir
  cases found : relNonempty path with
  | none => exact ⟨consistent, nofun⟩
  | some rel =>
    have entries : ∀ part ∈ components rel, EntryName part :=
      fun part mem => (rel_no_dots found noDots).entry mem
    refine ⟨chain_consistent entries consistent, ?_⟩
    intro done
    obtain ⟨final, ended⟩ := isSome_iff_exists.mp done
    exact @chain_exchanges lib laws _ _ _ _ _ entries (Prod.ext rfl ended)

theorem removal_served {rel : Text} {old : Option StoredFile} (found : relNonempty path = some rel)
    (was : ∀ place, laws.find tree [] (components rel) = some place → fileAt tree place = old) :
    Served laws tree (lib.fatRemove tree [] rel) old none := by
  have inside := rel_no_dots found noDots
  refine ⟨laws.remove_consistent inside consistent, ?_⟩
  intro done
  obtain ⟨place, named, removed⟩ := laws.remove_done inside (Prod.ext rfl done)
  rw [← was place named]
  exact remove_exchanges removed

theorem rmdir_served : Served laws tree (rmdir lib tree path) none none := by
  unfold rmdir
  cases found : relNonempty path with
  | none => exact ⟨consistent, nofun⟩
  | some rel =>
    dsimp only
    split
    · exact ⟨consistent, nofun⟩
    · next guarded =>
      apply removal_served noDots consistent found
      intro place named
      apply file_at_dir
      by_contra notDir
      apply guarded
      rw [laws.open_dir (rel_no_dots found noDots), named]
      simp [notDir]

theorem unlink_served : Served laws tree (unlink lib tree path) (held lib tree path) none := by
  unfold unlink
  cases found : relNonempty path with
  | none => exact ⟨consistent, nofun⟩
  | some rel =>
    dsimp only
    split
    · exact ⟨consistent, nofun⟩
    · apply removal_served noDots consistent found
      intro place named
      rw [held_eq found, open_file_held laws (rel_no_dots found noDots) named]

end Requests

end Fat

end ViCell.Vfs
