import ViCell.Vfs.Dispatch

/-!
# What the disk libraries document

The FAT and littlefs libraries are not part of the service. What its requests rely on
is stated here, for calls during which no disk access fails: a path is read name by
name, a name that was listed is found, and a call that succeeds did to the volume
what it says.
-/

namespace ViCell.Vfs

open Lib Option FileTree

/-- No entry for a directory itself or its parent is on the path. -/
def NoDots (path : Text) : Prop := dot ∉ components path ∧ dotDot ∉ components path

instance (path : Text) : Decidable (NoDots path) := inferInstanceAs (Decidable (_ ∧ _))

def EntryName (name : Text) : Prop := PlainName name ∧ name ≠ dot ∧ name ≠ dotDot

instance (name : Text) : Decidable (EntryName name) := inferInstanceAs (Decidable (_ ∧ _))

/-- Nodes are gone, and nothing else has changed. -/
def Shrinks (tree after : Tree) : Prop :=
  ∀ path, after.lookup path ≠ none → after.lookup path = tree.lookup path

/-- The file after these bytes are written at an offset. -/
def overwritten (old file : StoredFile) (offset : Nat) : StoredFile :=
  { file with
    data := old.data.take offset ++ file.data ++ old.data.drop (offset + file.data.length) }

/-- A listing: what is there, in some order, after entries that no listing shows. -/
def Lists (tree : Tree) (dir : List Text) (entries : List (Option (Text × Bool))) : Prop :=
  ∃ own items : List (Text × Bool), (∀ entry ∈ own, Fat.named entry = false) ∧
    items.Perm (dirEntries tree dir) ∧ entries = (own ++ items).map some

structure FatLaws (lib : Libraries) where
  /-- The node that names lead to from a directory. -/
  find : Tree → List Text → List Text → Option (List Text)
  /-- The library tells the names in each directory apart. -/
  Consistent : Tree → Prop
  find_name : ∀ {tree dir name place}, EntryName name → find tree dir [name] = some place →
    ∃ stored, place = dir ++ [stored] ∧ tree.lookup place ≠ none
  find_cons : ∀ {tree dir name rest}, EntryName name → rest ≠ [] → find tree dir (name :: rest) =
    ((find tree dir [name]).filter (fun place => decide (tree.lookup place = some .dir))).bind
      (fun inner => find tree inner rest)
  find_listed : ∀ {tree dir name}, Consistent tree → EntryName name →
    tree.lookup (dir ++ [name]) ≠ none → find tree dir [name] = some (dir ++ [name])
  find_kept : ∀ {tree after parts place}, Consistent tree → (∀ part ∈ parts, EntryName part) →
    Shrinks tree after → find tree [] parts = some place → after.lookup place ≠ none →
      find after [] parts = some place
  open_file : ∀ {tree dir path}, NoDots path → lib.fatOpenFile tree dir path =
    (find tree dir (components path)).filter (fun place => (fileAt tree place).isSome)
  open_dir : ∀ {tree dir path}, NoDots path → lib.fatOpenDir tree dir path =
    (find tree dir (components path)).filter (fun place => decide (tree.lookup place = some .dir))
  iter : ∀ {tree dir}, Consistent tree → (∀ child ∈ tree.children dir, EntryName child.1) →
    Lists tree dir (lib.fatIter tree dir)
  iter_plain : ∀ {tree dir entry}, Consistent tree → some entry ∈ lib.fatIter tree dir →
    PlainName entry.1
  seek_end : ∀ {tree place file}, fileAt tree place = some file →
    lib.fatSeekEnd tree place = some file.size
  remove_done : ∀ {tree after dir path}, NoDots path →
    lib.fatRemove tree dir path = (after, true) →
      ∃ place, find tree dir (components path) = some place ∧ tree.remove place = some after
  remove_failed : ∀ {tree after dir path}, NoDots path →
    lib.fatRemove tree dir path = (after, false) → after = tree
  remove_file : ∀ {tree dir path place}, NoDots path →
    lib.fatOpenFile tree dir path = some place → (lib.fatRemove tree dir path).2 = true
  removed_missing : ∀ {tree after dir name}, Consistent tree → EntryName name →
    lib.fatRemove tree dir name = (after, true) → find after dir [name] = none
  remove_consistent : ∀ {tree dir path}, NoDots path → Consistent tree →
    Consistent (lib.fatRemove tree dir path).1
  create_dir_open : ∀ {tree dir name place}, EntryName name →
    lib.fatOpenDir tree dir name = some place →
      lib.fatCreateDir tree dir name = (tree, some place)
  create_dir_new : ∀ {tree after dir name place}, EntryName name →
    lib.fatOpenDir tree dir name = none →
      lib.fatCreateDir tree dir name = (after, some place) → tree.makeDir place = some after
  create_dir_consistent : ∀ {tree dir name}, EntryName name → Consistent tree →
    Consistent (lib.fatCreateDir tree dir name).1
  create_file_new : ∀ {tree after dir name place writer}, EntryName name →
    lib.fatOpenFile tree dir name = none →
      lib.fatCreateFile tree dir name writer = (after, some place) →
        tree.lookup place = none ∧ tree.writeFile place ⟨[], writer⟩ = some after
  create_file_consistent : ∀ {tree dir name writer}, EntryName name → Consistent tree →
    Consistent (lib.fatCreateFile tree dir name writer).1
  write_all_done : ∀ {tree after place offset file old}, fileAt tree place = some old →
    lib.fatWriteAll tree place offset file = (after, true) →
      tree.writeFile place (overwritten old file offset) = some after
  write_all_consistent : ∀ {tree place offset file}, Consistent tree →
    Consistent (lib.fatWriteAll tree place offset file).1

structure LfsLaws (lib : Libraries) where
  /-- Where a path leads. -/
  place : Text → List Text
  place_child : ∀ {path name}, EntryName name → place (path ++ '/' :: name) = place path ++ [name]
  read_dir : ∀ {tree path}, tree.lookup (place path) = some .dir →
    ∃ entries, lib.lfsReadDir tree path = some entries ∧ Lists tree (place path) entries
  metadata : ∀ tree path, lib.lfsMetadata tree path = (tree.lookup (place path)).map
    (fun node => (node.weight StoredFile.size, node.isDir))
  write_all_done : ∀ {tree after path atEnd file},
    lib.lfsWriteAll tree path atEnd file = (after, true) → tree.writeFile (place path)
      { file with data :=
        (if atEnd then ((fileAt tree (place path)).map StoredFile.data).getD [] else []) ++
          file.data } = some after
  create_dir_all_done : ∀ {tree after path}, lib.lfsCreateDirAll tree path = (after, true) →
    after.files.Perm tree.files
  remove_dir_done : ∀ {tree after path}, lib.lfsRemoveDir tree path = (after, true) →
    tree.remove (place path) = some after
  remove_done : ∀ {tree after path}, lib.lfsRemove tree path = (after, true) →
    tree.remove (place path) = some after
  remove_dir_all_done : ∀ {tree after path}, lib.lfsRemoveDirAll tree path = (after, true) →
    place path ≠ [] ∧ tree.lookup (place path) = some .dir ∧ after = tree.removeTree (place path)

structure Documented (lib : Libraries) where
  fat : FatLaws lib
  lfs : LfsLaws lib

section Literal

variable (tree : Tree)

/-- Names match as they are written. -/
def literalFind (dir parts : List Text) : Option (List Text) :=
  (some (dir ++ parts)).filter (fun place => (tree.lookup place).isSome)

def literalOpenDir (dir : List Text) (path : Text) : Option (List Text) :=
  (literalFind tree dir (components path)).filter
    (fun place => decide (tree.lookup place = some .dir))

def literalOpenFile (dir : List Text) (path : Text) : Option (List Text) :=
  (literalFind tree dir (components path)).filter (fun place => (fileAt tree place).isSome)

/-- What is there is opened, what is not is put there. -/
def openOrAdd (found : Option (List Text)) (place : List Text) (added : Option Tree) :
    Tree × Option (List Text) :=
  match found with
  | some place => (tree, some place)
  | none => (added.getD tree, added.map (fun _ => place))

end Literal

def literalNames : Libraries where
  fatOpenDir := literalOpenDir
  fatOpenFile := literalOpenFile
  fatIter tree dir :=
    ((dirEntries tree dir).filter (fun entry => decide (PlainName entry.1))).map some
  fatSeekEnd tree place := (fileAt tree place).map StoredFile.size
  fatReadToEnd tree place := ((fileAt tree place).map StoredFile.data).getD []
  fatRemove tree dir path := settle tree ((literalFind tree dir (components path)).bind tree.remove)
  fatCreateDir tree dir name :=
    openOrAdd tree (literalOpenDir tree dir name) (dir ++ [name]) (tree.makeDir (dir ++ [name]))
  fatCreateFile tree dir name writer := openOrAdd tree (literalOpenFile tree dir name)
    (dir ++ [name]) (tree.writeFile (dir ++ [name]) ⟨[], writer⟩)
  fatWriteAll tree place offset file := settle tree ((fileAt tree place).bind
    (fun old => tree.writeFile place (overwritten old file offset)))
  lfsPathBuf _ := true
  lfsReadDir tree path := if tree.lookup (components path) = some .dir then
    some ((dirEntries tree (components path)).map some) else none
  lfsMetadata tree path := (tree.lookup (components path)).map
    (fun node => (node.weight StoredFile.size, node.isDir))
  lfsReadToEnd tree path := (fileAt tree (components path)).map StoredFile.data
  lfsWriteAll tree path atEnd file := settle tree (tree.writeFile (components path)
    { file with data :=
      (if atEnd then ((fileAt tree (components path)).map StoredFile.data).getD [] else []) ++
        file.data })
  lfsCreateDirAll tree path := settle tree (tree.makeDir (components path))
  lfsRemoveDir tree path := settle tree (tree.remove (components path))
  lfsRemove tree path := settle tree (tree.remove (components path))
  lfsRemoveDirAll tree path :=
    if components path ≠ [] ∧ tree.lookup (components path) = some .dir then
      (tree.removeTree (components path), true)
    else (tree, false)
  srvFails := false
  bootEntries _ := []
  bootStat _ := none
  bootRead _ := []

theorem settle_done {tree after : Tree} {result : Option Tree}
    (done : settle tree result = (after, true)) : result = some after := by
  cases result with
  | none => cases done
  | some => exact congrArg some (Prod.mk.inj done).1

variable {tree : Tree} {dir : List Text}

theorem literal_find_iff {parts place : List Text} :
    literalFind tree dir parts = some place ↔ place = dir ++ parts ∧ tree.lookup place ≠ none := by
  unfold literalFind
  rw [filter_eq_some_iff, isSome_iff_ne_none, some.injEq, eq_comm]

theorem literal_find_cons {name : Text} {rest : List Text} (more : rest ≠ []) :
    literalFind tree dir (name :: rest) = ((literalFind tree dir [name]).filter
      (fun place => decide (tree.lookup place = some .dir))).bind
        (fun inner => literalFind tree inner rest) := by
  apply Option.ext
  intro place
  rw [literal_find_iff, bind_eq_some_iff]
  constructor
  · rintro ⟨rfl, has⟩
    obtain ⟨node, found⟩ := ne_none_iff_exists'.mp has
    have isDir : tree.lookup (dir ++ [name]) = some .dir :=
      lookup_of_mem (prefix_is_dir (by simp) ((lookup_eq_some (by simp) node).mp found)
        ⟨rest, by simp⟩ (by simpa using Ne.symm more))
    refine ⟨dir ++ [name], filter_eq_some_iff.mpr ⟨literal_find_iff.mpr ⟨rfl, ?_⟩, ?_⟩, ?_⟩
    · rw [isDir]
      exact nofun
    · exact decide_eq_true isDir
    · exact literal_find_iff.mpr ⟨by simp, has⟩
  · rintro ⟨inner, entered, lower⟩
    obtain ⟨rfl, _⟩ := literal_find_iff.mp (filter_eq_some_iff.mp entered).1
    obtain ⟨rfl, has⟩ := literal_find_iff.mp lower
    exact ⟨by simp, has⟩

theorem open_or_add_new {found : Option (List Text)} {place other : List Text}
    {added : Option Tree} {after : Tree} (missing : found = none)
    (made : openOrAdd tree found place added = (after, some other)) :
    other = place ∧ added = some after := by
  subst missing
  cases added with
  | none => cases made
  | some =>
    cases made
    exact ⟨rfl, rfl⟩

def literalFat : FatLaws literalNames where
  find := literalFind
  Consistent _ := True
  find_name _ found := ⟨_, literal_find_iff.mp found⟩
  find_cons _ more := literal_find_cons more
  find_listed _ _ has := literal_find_iff.mpr ⟨rfl, has⟩
  find_kept _ _ _ found has := literal_find_iff.mpr ⟨(literal_find_iff.mp found).1, has⟩
  open_file _ := rfl
  open_dir _ := rfl
  iter {tree dir} _ named := by
    refine ⟨[], dirEntries tree dir, nofun, List.Perm.refl _, ?_⟩
    change List.map some (List.filter _ _) = _
    rw [List.filter_eq_self.mpr]
    · rfl
    · intro entry mem
      obtain ⟨child, isChild, rfl⟩ := List.mem_map.mp mem
      exact decide_eq_true (named child isChild).1
  iter_plain _ mem := by
    obtain ⟨_, listed, same⟩ := List.mem_map.mp mem
    cases same
    simpa using (List.mem_filter.mp listed).2
  seek_end has := congrArg (Option.map StoredFile.size) has
  remove_done _ done := bind_eq_some_iff.mp (settle_done done)
  remove_failed {tree after dir path} _ failed := by
    change settle tree _ = _ at failed
    cases removed : (literalFind tree dir (components path)).bind tree.remove with
    | none =>
      rw [removed] at failed
      exact (Prod.mk.inj failed).1.symm
    | some =>
      rw [removed] at failed
      cases failed
  remove_file {tree dir path place} _ opened := by
    obtain ⟨found, isFile⟩ := filter_eq_some_iff.mp opened
    have notDir : tree.lookup place ≠ some .dir := by
      intro isDir
      unfold fileAt at isFile
      rw [isDir] at isFile
      cases isFile
    have below : place ≠ [] := by
      rintro rfl
      exact notDir lookup_root
    obtain ⟨_, removed⟩ := remove_removable below (literal_find_iff.mp found).2
      (childless_of_not_dir notDir)
    change (settle tree ((literalFind tree dir (components path)).bind tree.remove)).2 = true
    rw [found, bind_some, removed]
    rfl
  removed_missing {tree after dir name} _ entry done := by
    obtain ⟨place, found, removed⟩ := bind_eq_some_iff.mp (settle_done done)
    obtain ⟨rfl, _⟩ := literal_find_iff.mp found
    rw [components_name entry.1] at removed
    cases again : literalFind after dir [name] with
    | none => rfl
    | some =>
      obtain ⟨rfl, has⟩ := literal_find_iff.mp again
      rw [lookup_remove removed, if_pos rfl] at has
      exact absurd rfl has
  remove_consistent _ _ := trivial
  create_dir_open _ found := by
    change openOrAdd _ _ _ _ = _
    rw [show literalOpenDir _ _ _ = _ from found]
    rfl
  create_dir_new {tree _ dir name _} _ missing made := by
    obtain ⟨rfl, added⟩ := open_or_add_new missing made
    exact added
  create_dir_consistent _ _ := trivial
  create_file_new {tree _ dir name _ writer} entry missing made := by
    obtain ⟨rfl, added⟩ := open_or_add_new missing made
    refine ⟨?_, added⟩
    cases held : tree.lookup (dir ++ [name]) with
    | none => rfl
    | some node =>
      cases node with
      | dir =>
        unfold writeFile at added
        rw [dif_neg (fun placed => placed.2.2 held)] at added
        cases added
      | file =>
        have opened : literalOpenFile tree dir name = some (dir ++ [name]) := by
          unfold literalOpenFile
          rw [components_name entry.1, literal_find_iff.mpr ⟨rfl, by rw [held]; exact nofun⟩]
          simp [fileAt, held]
        cases opened.symm.trans missing
  create_file_consistent _ _ := trivial
  write_all_done {tree after place offset file old} has done := by
    have written := settle_done done
    rw [has] at written
    exact written
  write_all_consistent _ := trivial

def literalLfs : LfsLaws literalNames where
  place := components
  place_child entry := components_child entry.1
  read_dir {tree path} isDir := by
    refine ⟨_, if_pos isDir, [], dirEntries tree (components path), nofun, List.Perm.refl _, rfl⟩
  metadata _ _ := rfl
  write_all_done done := settle_done done
  create_dir_all_done done := by
    rw [files_make_dir (settle_done done)]
  remove_dir_done done := settle_done done
  remove_done done := settle_done done
  remove_dir_all_done {tree after path} done := by
    change (if _ then _ else _) = _ at done
    split at done
    · next isDir => exact ⟨isDir.1, isDir.2, (Prod.mk.inj done).1.symm⟩
    · cases done

def literalDocumented : Documented literalNames := ⟨literalFat, literalLfs⟩

end ViCell.Vfs
