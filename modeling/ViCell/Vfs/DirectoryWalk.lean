import ViCell.Vfs.FatVolume

/-!
# The walk before a recursive removal

`collect_dir_bytes` learns what a directory holds from the text of its listing.
When every listing fits its buffer, no name breaks its line and the tree is not too
deep, the walk counts exactly the files below.
-/

namespace ViCell.Vfs

open Lib List Option FileTree StoredFile

def lineOf (entry : Text × Bool) : Text :=
  (if entry.2 then "d:".toList else "f:".toList) ++ entry.1

theorem listing_whole (capacity : Nat) (entries : List (Text × Bool)) (pos : Nat)
    (fits : pos + (entries.map (fun entry => byteLength (entryLine entry))).sum ≤ capacity) :
    listing capacity pos entries = entries.flatMap entryLine := by
  induction entries generalizing pos with
  | nil => rfl
  | cons entry rest ih =>
    rw [map_cons, sum_cons] at fits
    unfold listing
    rw [if_neg (by omega), ih _ (by omega)]
    rfl

def isNewline (symbol : Char) : Bool := symbol == '\n'

theorem line_unbroken {entry : Text × Bool} (unbroken : '\n' ∉ entry.1) :
    (lineOf entry).splitOnP isNewline = [lineOf entry] := by
  apply splitOnP_eq_singleton
  intro symbol mem
  unfold isNewline
  rw [beq_eq_false_iff_ne]
  rintro rfl
  rcases mem_append.mp mem with tag | name
  · revert tag
    split <;> decide
  · exact unbroken name

theorem listing_lines {entries : List (Text × Bool)}
    (unbroken : ∀ entry ∈ entries, '\n' ∉ entry.1) :
    (entries.flatMap entryLine).splitOnP isNewline = entries.map lineOf ++ [[]] := by
  induction entries with
  | nil => rfl
  | cons entry rest ih =>
    have cut : (entry :: rest).flatMap entryLine =
        lineOf entry ++ '\n' :: rest.flatMap entryLine := by
      rw [flatMap_cons]
      unfold entryLine
      rw [append_assoc]
      rfl
    rw [cut, splitOnP_append_cons _ _ rfl, line_unbroken (unbroken entry mem_cons_self),
      ih (fun other mem => unbroken other (mem_cons_of_mem _ mem))]
    rfl

theorem line_bytes (sizeOf below : Text → Nat) (base : Text) (entry : Text × Bool) :
    VfsManager.lineBytes sizeOf below base (lineOf entry) =
      if entry.2 then below (base ++ '/' :: entry.1) else sizeOf (base ++ '/' :: entry.1) := by
  obtain ⟨name, isDir⟩ := entry
  unfold VfsManager.lineBytes lineOf
  cases isDir with
  | true =>
    have notFile : ("d:".toList ++ name).dropPrefix? "f:".toList = none := by
      simp [dropPrefix?]
    have isDir : ("d:".toList ++ name).dropPrefix? "d:".toList = some name :=
      dropPrefix?_append_of_beq name (by decide)
    rw [if_pos rfl, if_pos rfl, notFile, isDir]
  | false =>
    have isFile : ("f:".toList ++ name).dropPrefix? "f:".toList = some name :=
      dropPrefix?_append_of_beq name (by decide)
    rw [if_neg Bool.false_ne_true, if_neg Bool.false_ne_true, isFile]

variable {lib : Libraries}

theorem collect_level {vfs : VfsManager} {path : Text} (depth : Nat) {entries : List (Text × Bool)}
    (listed : vfs.listDir lib path 512 = entries.flatMap entryLine)
    (unbroken : ∀ entry ∈ entries, '\n' ∉ entry.1) (trimmed : trimEnd path = path) :
    vfs.collectDirBytes lib (depth + 1) path =
      (entries.map (fun entry => if entry.2
        then vfs.collectDirBytes lib depth (path ++ '/' :: entry.1)
        else vfs.fileSize lib (path ++ '/' :: entry.1))).sum := by
  have lines : (vfs.listDir lib path 512).splitOnP (fun symbol => symbol == '\n') =
      entries.map lineOf ++ [[]] := by
    rw [listed]
    exact listing_lines unbroken
  rw [VfsManager.collectDirBytes, lines, trimmed, List.map_append, List.sum_append, List.map_map]
  have last : ([[]].map (VfsManager.lineBytes (vfs.fileSize lib)
      (vfs.collectDirBytes lib depth) path)).sum = 0 := rfl
  apply congrArg sum
  apply map_congr_left
  intro entry _
  exact line_bytes _ _ path entry

/-- A volume as the walk sees it: how long a listing can get, and which nodes have a
path that the library accepts. -/
structure View where
  tree : Tree
  capacity : Nat
  fits : List Text → Bool

/-- A name that survives listing and being looked up again. -/
def ShownName (name : Text) : Prop := EntryName name ∧ '\n' ∉ name

instance (name : Text) : Decidable (ShownName name) := inferInstanceAs (Decidable (_ ∧ _))

/-- A path goes on with these names. -/
def trail (names : List Text) : Text := names.flatMap (fun part => '/' :: part)

theorem trail_concat (names : List Text) (name : Text) :
    trail (names ++ [name]) = trail names ++ '/' :: name := by
  unfold trail
  rw [flatMap_append, flatMap_singleton]

def lfsView (laws : LfsLaws lib) (tree : Tree) (rel : Text) : View :=
  ⟨tree, 512, fun key => lib.lfsPathBuf (rel ++ trail (key.drop (laws.place rel).length))⟩

/-- The path, as text, names this place of the volume. -/
inductive Leads (laws : Documented lib) (vfs : VfsManager) : View → Text → List Text → Prop where
  | ram (rest : Text) : Leads laws vfs ⟨vfs.ram, 480, fun _ => true⟩ ("/tmp/".toList ++ rest)
      (components ("/tmp/".toList ++ rest))
  | lfs (tree : Tree) (rest : Text) (names : List Text) (mounted : vfs.lfs = some tree)
      (noUp : hasDotDot ('/' :: (rest ++ trail names)) = false)
      (accepted : lib.lfsPathBuf ('/' :: (rest ++ trail names)) = true)
      (leads : laws.lfs.place ('/' :: (rest ++ trail names)) =
        laws.lfs.place ('/' :: rest) ++ names) :
      Leads laws vfs (lfsView laws.lfs tree ('/' :: rest))
        ("/data/".toList ++ (rest ++ trail names)) (laws.lfs.place ('/' :: rest) ++ names)
  | fat (tree : Tree) (rest : Text) (place : List Text) (mounted : vfs.fat = some tree)
      (consistent : laws.fat.Consistent tree) (noDots : NoDots rest) (below : components rest ≠ [])
      (found : laws.fat.find tree [] (components rest) = some place) :
      Leads laws vfs ⟨tree, 512, fun _ => true⟩ ("/mnt/sd/".toList ++ rest) place

theorem trim_end_child (front : Text) {name : Text} (plain : PlainName name) :
    trimEnd (front ++ '/' :: name) = front ++ '/' :: name := by
  obtain ⟨init, symbol, rfl⟩ := (eq_nil_or_concat' name).resolve_left plain.1
  have notSlash : ¬ isSlash symbol = true := by
    intro slash
    have same : symbol = '/' := by simpa [isSlash] using slash
    exact plain.2 (by simp [same])
  have whole : front ++ '/' :: (init ++ [symbol]) = (front ++ '/' :: init) ++ [symbol] := by simp
  rw [whole]
  exact rdropWhile_concat_neg _ _ _ notSlash

theorem lfs_rel_path (rest : Text) : Lfs.relPath lib ("/data/".toList ++ rest) =
    if hasDotDot ('/' :: rest) ∨ lib.lfsPathBuf ('/' :: rest) = false then none
    else some ('/' :: rest) := by
  have cut : ("/data/".toList ++ rest).dropPrefix? Backend.lfs.mountPoint = some ('/' :: rest) :=
    drop_append "/data".toList ('/' :: rest)
  unfold Lfs.relPath
  rw [cut, getD_some]
  rfl

theorem lfs_rel_path_some {rest rel : Text}
    (relative : Lfs.relPath lib ("/data/".toList ++ rest) = some rel) :
    rel = '/' :: rest ∧ hasDotDot ('/' :: rest) = false ∧ lib.lfsPathBuf ('/' :: rest) = true := by
  rw [lfs_rel_path] at relative
  split at relative
  · cases relative
  · next accepted =>
    cases relative
    exact ⟨rfl, by simpa using accepted⟩

theorem fat_rel_path {rest : Text} (below : components rest ≠ []) :
    Fat.relNonempty ("/mnt/sd/".toList ++ rest) = some rest ∧
      Fat.relAllowRoot ("/mnt/sd/".toList ++ rest) = rest ∧ rest ≠ [] := by
  have nonempty : rest ≠ [] := by
    rintro rfl
    exact below rfl
  have cut : ("/mnt/sd/".toList ++ rest).dropPrefix? Backend.fat.mountPoint =
      some ("/".toList ++ rest) :=
    drop_append "/mnt/sd".toList ("/".toList ++ rest)
  have slash : ("/".toList ++ rest).dropPrefix? "/".toList = some rest := drop_append _ rest
  refine ⟨?_, ?_, nonempty⟩
  · unfold Fat.relNonempty
    rw [cut, bind_some, slash]
    simp [nonempty]
  · unfold Fat.relAllowRoot
    rw [cut, getD_some]
    dsimp only
    rw [slash]
    rfl

theorem Lists.shown {tree : Tree} {dir : List Text} {entries : List (Option (Text × Bool))}
    (lists : Lists tree dir entries) (named : ∀ child ∈ tree.children dir, EntryName child.1) :
    ∃ items, items.Perm (dirEntries tree dir) ∧ entries.takeWhile Option.isSome = entries ∧
      entries.reduceOption.filter Fat.named = items ∧
      entries.reduceOption.filter (fun entry => !entry.1.isEmpty && Fat.named entry) = items := by
  obtain ⟨own, items, dots, shuffled, rfl⟩ := lists
  have shows : ∀ entry ∈ items, entry.1 ≠ [] ∧ Fat.named entry = true := by
    intro entry mem
    obtain ⟨child, isChild, rfl⟩ := mem_map.mp (shuffled.mem_iff.mp mem)
    obtain ⟨plain, notDot, notDotDot⟩ := named child isChild
    exact ⟨plain.1, by simp [Fat.named, notDot, notDotDot]⟩
  have kept (keep : Text × Bool → Bool) (drops : ∀ entry ∈ own, keep entry = false)
      (keeps : ∀ entry ∈ items, keep entry = true) :
      ((own ++ items).map some).reduceOption.filter keep = items := by
    have values : ((own ++ items).map some).reduceOption = own ++ items := by
      unfold reduceOption
      rw [filterMap_map]
      exact filterMap_some
    rw [values, filter_append, filter_eq_nil_iff.mpr (fun entry mem => by simp [drops entry mem]),
      filter_eq_self.mpr keeps, nil_append]
  refine ⟨items, shuffled, ?_, kept _ dots (fun entry mem => (shows entry mem).2),
    kept _ (fun entry mem => by simp [dots entry mem]) (fun entry mem => ?_)⟩
  · exact takeWhile_eq_self_iff.mpr (fun entry mem => by
      obtain ⟨_, _, rfl⟩ := mem_map.mp mem
      rfl)
  · simp [shows entry mem]

section Leads

variable {laws : Documented lib} {vfs : VfsManager} {view : View} {path : Text} {place : List Text}

section

variable (leads : Leads laws vfs view path place)
include leads

theorem Leads.child {name : Text} (entry : EntryName name)
    (isDir : view.tree.lookup place = some .dir)
    (has : view.tree.lookup (place ++ [name]) ≠ none) (fits : view.fits (place ++ [name]) = true) :
    Leads laws vfs view (path ++ '/' :: name) (place ++ [name]) := by
  cases leads with
  | ram rest =>
    rw [← components_child entry.1, append_assoc]
    exact Leads.ram (rest ++ '/' :: name)
  | lfs tree rest names mounted noUp _ leads =>
    have longer : rest ++ trail (names ++ [name]) = rest ++ trail names ++ '/' :: name := by
      rw [trail_concat, append_assoc]
    have text : '/' :: (rest ++ trail (names ++ [name])) =
        '/' :: (rest ++ trail names) ++ '/' :: name := by
      rw [longer]
      rfl
    have path : "/data/".toList ++ (rest ++ trail names) ++ '/' :: name =
        "/data/".toList ++ (rest ++ trail (names ++ [name])) := by
      rw [longer, append_assoc]
    rw [path, append_assoc]
    refine Leads.lfs tree rest (names ++ [name]) mounted ?_ ?_ ?_
    · rw [Bool.eq_false_iff, Ne, Fat.dot_dot_mem] at noUp ⊢
      rw [text, components_child entry.1]
      simp [noUp, entry.2.2.symm]
    · simpa [lfsView] using fits
    · rw [text, laws.lfs.place_child entry, leads, append_assoc]
  | fat tree rest place mounted consistent noDots below found =>
    rw [append_assoc]
    refine Leads.fat tree _ _ mounted consistent (noDots.child entry) ?_ ?_
    · rw [components_child entry.1]
      simp
    · rw [components_child entry.1,
        Fat.find_last laws.fat (fun part mem => noDots.entry mem) below found isDir]
      exact laws.fat.find_listed consistent entry has

theorem Leads.list (isDir : view.tree.lookup place = some .dir)
    (named : ∀ child ∈ view.tree.children place, EntryName child.1) :
    ∃ entries, entries.Perm (dirEntries view.tree place) ∧
      vfs.listDir lib path 512 = listing view.capacity 0 entries := by
  cases leads with
  | ram rest =>
    refine ⟨_, perm_insertionSort (fun first second => first.1 ≤ second.1) _, ?_⟩
    change RamFs.list vfs.ram _ 512 = _
    unfold RamFs.list
    rw [if_pos isDir]
    rfl
  | lfs tree rest names mounted noUp accepted leads =>
    dsimp only [lfsView] at isDir named ⊢
    rw [← leads] at isDir named ⊢
    obtain ⟨_, read, lists⟩ := laws.lfs.read_dir isDir
    obtain ⟨items, shuffled, _, _, shown⟩ := lists.shown named
    refine ⟨items, shuffled, ?_⟩
    change (vfs.lfs.map (fun tree => Lfs.list lib tree _ 512)).getD [] = _
    rw [mounted, map_some, getD_some]
    unfold Lfs.list
    rw [lfs_rel_path, if_neg (by simp [noUp, accepted]), bind_some, read]
    dsimp only
    rw [shown]
  | fat tree rest place mounted consistent noDots below found =>
    obtain ⟨items, shuffled, whole, shown, _⟩ := (laws.fat.iter consistent named).shown named
    have opened : lib.fatOpenDir tree [] rest = some place := by
      rw [laws.fat.open_dir noDots, found]
      simp [isDir]
    obtain ⟨_, relative, nonempty⟩ := fat_rel_path below
    refine ⟨items, shuffled, ?_⟩
    change (vfs.fat.map (fun tree => Fat.list lib tree _ 512)).getD [] = _
    rw [mounted, map_some, getD_some]
    unfold Fat.list
    rw [relative]
    dsimp only
    rw [if_neg nonempty, opened]
    dsimp only
    rw [whole, shown]

theorem Leads.size {file : StoredFile} (isFile : view.tree.lookup place = some (.file file)) :
    vfs.fileSize lib path = file.size := by
  have held : fileAt view.tree place = some file := by
    unfold fileAt
    rw [isFile]
  cases leads with
  | ram rest =>
    change ((RamFs.read vfs.ram _).map StoredFile.size).getD 0 = _
    unfold RamFs.read
    rw [held]
    rfl
  | lfs tree rest names mounted noUp accepted leads =>
    change ((vfs.lfs.bind (fun tree => Lfs.stat lib tree _)).map Prod.fst).getD 0 = _
    dsimp only [lfsView] at isFile
    rw [mounted, bind_some]
    unfold Lfs.stat
    rw [lfs_rel_path, if_neg (by simp [noUp, accepted]), bind_some, laws.lfs.metadata, leads, isFile]
    rfl
  | fat tree rest place mounted consistent noDots below found =>
    change (vfs.fat.map (fun tree => Fat.fileSize lib tree _)).getD 0 = _
    rw [mounted, map_some, getD_some]
    unfold Fat.fileSize Fat.openFile
    rw [(fat_rel_path below).1, bind_some, laws.fat.open_file noDots, found, filter_some, held,
      isSome_some, if_pos rfl, bind_some, laws.fat.seek_end held]
    rfl

end

def listingBytes (tree : Tree) (dir : List Text) : Nat :=
  ((dirEntries tree dir).map (fun entry => byteLength (entryLine entry))).sum

/-- A node below the target that the walk comes across as it is: a file of the
sender, or a directory whose listing fits. -/
def InView (view : View) (sender : Nat) (target : List Text)
    (entry : List Text × FileNode StoredFile) : Prop :=
  (∀ name ∈ entry.1.drop target.length, ShownName name) ∧ view.fits entry.1 = true ∧
    entry.1.length ≤ target.length + 32 ∧
    match entry.2 with
    | .file file => file.writer = some sender
    | .dir => listingBytes view.tree entry.1 ≤ view.capacity

instance (view : View) (sender : Nat) (target : List Text)
    (entry : List Text × FileNode StoredFile) : Decidable (InView view sender target entry) := by
  unfold InView
  cases entry.2 <;> infer_instance

def Walkable (view : View) (sender : Nat) (target : List Text) : Prop :=
  ∀ entry ∈ view.tree.entries, target <+: entry.1 → InView view sender target entry

instance (view : View) (sender : Nat) (target : List Text) : Decidable (Walkable view sender target) :=
  inferInstanceAs (Decidable (∀ entry ∈ view.tree.entries, _ → _))

theorem measured_under_dir {tree : Tree} (isDir : tree.lookup place = some .dir) :
    measured size (tree.filesUnder place) = ((tree.children place).map
      (fun child => measured size (tree.filesUnder (place ++ [child.1])))).sum := by
  rw [measured_perm (files_under_dir isDir)]
  unfold measured
  rw [map_flatMap, flatMap_def, sum_flatten, List.map_map]
  rfl

section Count

variable {sender : Nat} {target : List Text} {name : Text} {node : FileNode StoredFile}

section

variable (walkable : Walkable view sender target)
include walkable

theorem Walkable.child_shown (inside : target <+: place)
    (mem : (name, node) ∈ view.tree.children place) :
    ShownName name ∧ view.fits (place ++ [name]) = true ∧ place.length + 1 ≤ target.length + 32 := by
  have entry := mem_children.mp mem
  obtain ⟨shown, fits, short, _⟩ := walkable _ entry (inside.trans (prefix_append place [name]))
  rw [length_append] at short
  refine ⟨shown name ?_, fits, short⟩
  rw [drop_append_of_le_length inside.length_le]
  simp

theorem Walkable.bottom (inside : target <+: place) (deep : place.length = target.length + 32) :
    view.tree.children place = [] := by
  apply eq_nil_iff_forall_not_mem.mpr
  rintro ⟨name, node⟩ mem
  have short := (walkable.child_shown inside mem).2.2
  omega

theorem collect_counts (depth : Nat) {path : Text} {place : List Text}
    (leads : Leads laws vfs view path place) (trimmed : trimEnd path = path)
    (inside : target <+: place) (below : place ≠ []) (isDir : view.tree.lookup place = some .dir)
    (level : place.length + depth = target.length + 32) :
    vfs.collectDirBytes lib depth path = measured size (view.tree.filesUnder place) := by
  induction depth generalizing path place with
  | zero =>
    rw [measured_under_dir isDir, walkable.bottom inside level]
    rfl
  | succ depth ih =>
    obtain ⟨entries, shuffled, listed⟩ := leads.list isDir
      (fun child mem => (walkable.child_shown inside mem).1.1)
    have whole : 0 + (entries.map (fun entry => byteLength (entryLine entry))).sum ≤
        view.capacity := by
      rw [Nat.zero_add, (shuffled.map _).sum_eq]
      exact (walkable _ (mem_of_dir below isDir) inside).2.2.2
    rw [listing_whole _ _ _ whole] at listed
    have unbroken : ∀ entry ∈ entries, '\n' ∉ entry.1 := by
      intro entry mem
      obtain ⟨⟨name, node⟩, child, rfl⟩ := mem_map.mp (shuffled.mem_iff.mp mem)
      exact (walkable.child_shown inside child).1.2
    rw [collect_level depth listed unbroken trimmed, (shuffled.map _).sum_eq,
      measured_under_dir isDir]
    unfold dirEntries
    rw [List.map_map]
    apply congrArg List.sum
    apply map_congr_left
    rintro ⟨name, node⟩ mem
    obtain ⟨shown, fits, _⟩ := walkable.child_shown inside mem
    have found := lookup_of_mem (mem_children.mp mem)
    have lower : Leads laws vfs view (path ++ '/' :: name) (place ++ [name]) :=
      leads.child shown.1 isDir (by rw [found]; exact nofun) fits
    cases node with
    | file =>
      have notDir : view.tree.lookup (place ++ [name]) ≠ some .dir := by
        rw [found]
        exact nofun
      rw [measured_perm (files_under_childless (childless_of_not_dir notDir)), found]
      exact lower.size found
    | dir =>
      have deeper : (place ++ [name]).length + depth = target.length + 32 := by
        rw [length_append, length_singleton]
        omega
      exact ih lower (trim_end_child path shown.1.1) (inside.trans (prefix_append place [name]))
        (by simp) found deeper

theorem Walkable.own : ∀ file ∈ view.tree.filesUnder target, file.writer = some sender := by
  intro file mem
  obtain ⟨key, inside, entry⟩ := mem_files_under.mp mem
  exact (walkable _ entry inside).2.2.2

end

end Count

end Leads

end ViCell.Vfs
