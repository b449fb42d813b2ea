import Mathlib

/-!
# File trees

A finite tree of files and directories, kept as the list of its nodes with
their paths. The root is a directory that is not listed. Every node hangs in a
directory of the tree, so that a path leads somewhere only if all of its prefixes
do.
-/

namespace ViCell.Lib

open List Option Prod

inductive FileNode (Content : Type) where
  | file (content : Content)
  | dir
  deriving DecidableEq, Repr

namespace FileNode

variable {Content : Type}

def isDir : FileNode Content → Bool
  | .file _ => false
  | .dir => true

instance decidableIsDir (node : Option (FileNode Content)) : Decidable (node = some .dir) :=
  match node with
  | none => isFalse nofun
  | some (.file _) => isFalse nofun
  | some .dir => isTrue rfl

instance decidableIsNone (node : Option (FileNode Content)) : Decidable (node = none) :=
  match node with
  | none => isTrue rfl
  | some _ => isFalse nofun

def content : FileNode Content → Option Content
  | .file content => some content
  | .dir => none

def weight (size : Content → Nat) : FileNode Content → Nat
  | .file content => size content
  | .dir => 0

end FileNode

structure FileTree (Name Content : Type) where
  entries : List (List Name × FileNode Content)
  distinct : (entries.map fst).Nodup
  closed : ∀ entry ∈ entries, entry.1 ≠ [] ∧
    (entry.1.dropLast = [] ∨ (entry.1.dropLast, FileNode.dir) ∈ entries)

namespace FileTree

variable {Name Content : Type} [DecidableEq Name]

def empty : FileTree Name Content where
  entries := []
  distinct := nodup_nil
  closed := by
    intro entry member
    cases member

def lookup (tree : FileTree Name Content) (path : List Name) : Option (FileNode Content) :=
  if path = [] then some .dir
  else (tree.entries.find? (fun entry => decide (entry.1 = path))).map snd

omit [DecidableEq Name] in
theorem entry_unique {entries : List (List Name × FileNode Content)}
    (ne : (entries.map fst).Nodup) {path : List Name}
    {first second : FileNode Content} (left : (path, first) ∈ entries)
    (right : (path, second) ∈ entries) : first = second := by
  have same := inj_on_of_nodup_map ne left right rfl
  exact congrArg snd same

theorem find_entry {entries : List (List Name × FileNode Content)}
    (ne : (entries.map fst).Nodup) (path : List Name) (node : FileNode Content) :
    (entries.find? (fun entry => decide (entry.1 = path))).map snd = some node ↔
      (path, node) ∈ entries := by
  constructor
  · intro found
    obtain ⟨⟨key, value⟩, isEntry, same⟩ := map_eq_some_iff.mp found
    have key_eq : key = path := by simpa using find?_some isEntry
    have value_eq : value = node := same
    rw [← key_eq, ← value_eq]
    exact mem_of_find?_eq_some isEntry
  · intro mem
    cases found : entries.find? (fun entry => decide (entry.1 = path)) with
    | none =>
      have differs := find?_eq_none.mp found (path, node) mem
      simp at differs
    | some entry =>
      obtain ⟨key, value⟩ := entry
      have key_eq : key = path := by simpa using find?_some found
      have other := mem_of_find?_eq_some found
      rw [key_eq] at other
      rw [map_some, entry_unique ne other mem]

variable {tree after : FileTree Name Content} {path : List Name}

theorem lookup_root : tree.lookup [] = some .dir := if_pos rfl

theorem lookup_eq_some (below : path ≠ []) (node : FileNode Content) :
    tree.lookup path = some node ↔ (path, node) ∈ tree.entries := by
  unfold lookup
  rw [if_neg below]
  exact find_entry tree.distinct path node

variable {node : FileNode Content}

theorem lookup_of_mem (mem : (path, node) ∈ tree.entries) : tree.lookup path = some node :=
  (lookup_eq_some (tree.closed _ mem).1 node).mpr mem

theorem lookup_parent (mem : (path, node) ∈ tree.entries) :
    tree.lookup path.dropLast = some .dir := by
  rcases (tree.closed _ mem).2 with top | inside
  · have root : path.dropLast = [] := top
    rw [root]
    exact lookup_root
  · exact lookup_of_mem inside

theorem mem_of_dir (below : path ≠ []) (found : tree.lookup path = some .dir) :
    (path, FileNode.dir) ∈ tree.entries :=
  (lookup_eq_some below .dir).mp found

/-- What is left when some nodes are taken out, with everything below them. -/
def keep (tree : FileTree Name Content) (stays : List Name → Bool)
    (upward : ∀ entry ∈ tree.entries, stays entry.1 = true → entry.1.dropLast ≠ [] →
      stays entry.1.dropLast = true) : FileTree Name Content where
  entries := tree.entries.filter (fun entry => stays entry.1)
  distinct := tree.distinct.sublist (filter_sublist.map fst)
  closed := by
    intro entry member
    obtain ⟨inside, kept⟩ := mem_filter.mp member
    obtain ⟨below, parent⟩ := tree.closed entry inside
    refine ⟨below, ?_⟩
    rcases parent with top | parent
    · exact Or.inl top
    · by_cases top : entry.1.dropLast = []
      · exact Or.inl top
      · exact Or.inr (mem_filter.mpr ⟨parent, upward entry inside kept top⟩)

/-- One node is added under a path that is free, in an existing directory. -/
def add (tree : FileTree Name Content) (path : List Name) (node : FileNode Content)
    (below : path ≠ []) (parent : tree.lookup path.dropLast = some .dir)
    (free : ∀ other, (path, other) ∉ tree.entries) : FileTree Name Content where
  entries := (path, node) :: tree.entries
  distinct := by
    rw [map_cons, nodup_cons]
    refine ⟨?_, tree.distinct⟩
    intro member
    obtain ⟨⟨key, other⟩, inside, same⟩ := mem_map.mp member
    have key_eq : key = path := same
    rw [key_eq] at inside
    exact free other inside
  closed := by
    intro entry member
    rcases mem_cons.mp member with new | old
    · subst new
      refine ⟨below, ?_⟩
      by_cases top : path.dropLast = []
      · exact Or.inl top
      · exact Or.inr (mem_cons_of_mem _ (mem_of_dir top parent))
    · obtain ⟨otherBelow, otherParent⟩ := tree.closed entry old
      exact ⟨otherBelow, otherParent.imp id (mem_cons_of_mem _)⟩

variable {other : List Name}

theorem lookup_keep {stays : List Name → Bool} (upward) (below : other ≠ []) :
    (tree.keep stays upward).lookup other = if stays other then tree.lookup other else none := by
  apply ext
  intro node
  rw [lookup_eq_some below]
  change (other, node) ∈ tree.entries.filter _ ↔ _
  rw [mem_filter, ← lookup_eq_some below]
  by_cases kept : stays other = true
  · simp [kept]
  · simp [kept]

theorem lookup_keep_unless {stays : List Name → Bool} (upward) (below : other ≠ []) {gone : Prop}
    [Decidable gone] (drops : stays other = !decide gone) :
    (tree.keep stays upward).lookup other = if gone then none else tree.lookup other := by
  rw [lookup_keep _ below, drops]
  by_cases isGone : gone
  · simp [isGone]
  · simp [isGone]

theorem lookup_add (below parent free) (other : List Name) :
    (tree.add path node below parent free).lookup other =
      if other = path then some node else tree.lookup other := by
  by_cases root : other = []
  · have apart : other ≠ path := by
      intro same
      exact below (same.symm.trans root)
    rw [if_neg apart, root, lookup_root, lookup_root]
  · apply ext
    intro found
    rw [lookup_eq_some root]
    change (other, found) ∈ (path, node) :: tree.entries ↔ _
    by_cases same : other = path
    · subst same
      rw [if_pos rfl, mem_cons]
      constructor
      · rintro (new | old)
        · rw [(Prod.mk.inj new).2]
        · exact absurd old (free found)
      · intro isNode
        exact Or.inl (by rw [some.inj isNode])
    · rw [if_neg same, mem_cons, lookup_eq_some root]
      constructor
      · rintro (new | old)
        · exact absurd (Prod.mk.inj new).1 same
        · exact old
      · exact Or.inr

/-- One node is taken out that has nothing below it. -/
def without (tree : FileTree Name Content) (path : List Name)
    (leaf : ∀ entry ∈ tree.entries, entry.1.dropLast = path → path = []) :
    FileTree Name Content :=
  tree.keep (fun other => decide (other ≠ path)) (by
    intro entry member _ below
    rw [decide_eq_true_iff]
    intro same
    exact below (same.trans (leaf entry member same)))

theorem childless_of_not_dir (notDir : tree.lookup path ≠ some .dir) :
    ∀ entry ∈ tree.entries, entry.1.dropLast ≠ path := by
  intro entry mem same
  have parent : tree.lookup entry.1.dropLast = some .dir := lookup_parent mem
  rw [same] at parent
  exact notDir parent

theorem leaf_of_not_dir (notDir : tree.lookup path ≠ some .dir) :
    ∀ entry ∈ tree.entries, entry.1.dropLast = path → path = [] := by
  intro entry mem same
  exact absurd same (childless_of_not_dir notDir entry mem)

theorem lookup_without (leaf) (below : other ≠ []) :
    (tree.without path leaf).lookup other = if other = path then none else tree.lookup other :=
  lookup_keep_unless _ below (by simp)

theorem without_free (leaf) (node : FileNode Content) :
    (path, node) ∉ (tree.without path leaf).entries := by
  intro mem
  have stays := (mem_filter.mp mem).2
  simp at stays

omit [DecidableEq Name] in
theorem dropLast_ne (below : path ≠ []) : path.dropLast ≠ path := by
  intro same
  have shorter := congrArg length same
  rw [length_dropLast] at shorter
  have pos := length_pos_iff.mpr below
  omega

theorem lookup_without_parent (below : path ≠ []) (leaf) :
    (tree.without path leaf).lookup path.dropLast = tree.lookup path.dropLast := by
  by_cases top : path.dropLast = []
  · rw [top, lookup_root, lookup_root]
  · rw [lookup_without leaf top, if_neg (dropLast_ne below)]

def writeFile (tree : FileTree Name Content) (path : List Name) (content : Content) :
    Option (FileTree Name Content) :=
  if placed : path ≠ [] ∧ tree.lookup path.dropLast = some .dir ∧ tree.lookup path ≠ some .dir then
    some ((tree.without path (leaf_of_not_dir placed.2.2)).add path (.file content) placed.1
      ((lookup_without_parent placed.1 _).trans placed.2.1) (without_free _))
  else none

def makeDir (tree : FileTree Name Content) (path : List Name) : Option (FileTree Name Content) :=
  if placed : path ≠ [] ∧ tree.lookup path.dropLast = some .dir ∧ tree.lookup path = none then
    some (tree.add path .dir placed.1 placed.2.1 (by
      intro other member
      have found := lookup_of_mem member
      rw [placed.2.2] at found
      cases found))
  else none

def remove (tree : FileTree Name Content) (path : List Name) : Option (FileTree Name Content) :=
  if removable : path ≠ [] ∧ tree.lookup path ≠ none ∧
      ∀ entry ∈ tree.entries, entry.1.dropLast ≠ path then
    some (tree.without path (fun entry member same => absurd same (removable.2.2 entry member)))
  else none

/-- A node is removed with everything below it. -/
def removeTree (tree : FileTree Name Content) (path : List Name) : FileTree Name Content :=
  tree.keep (fun other => !path.isPrefixOf other) (by
    intro entry member stays _
    rw [Bool.not_eq_true', Bool.eq_false_iff] at stays ⊢
    intro inside
    apply stays
    rw [List.isPrefixOf_iff_prefix] at inside ⊢
    exact inside.trans (List.dropLast_prefix entry.1))

theorem lookup_write_file {content : Content} (written : tree.writeFile path content = some after)
    (other : List Name) :
    after.lookup other = if other = path then some (.file content) else tree.lookup other := by
  unfold writeFile at written
  split at written
  · cases written
    rw [lookup_add]
    by_cases same : other = path
    · rw [if_pos same, if_pos same]
    · rw [if_neg same, if_neg same]
      by_cases root : other = []
      · rw [root, lookup_root, lookup_root]
      · rw [lookup_without _ root, if_neg same]
  · cases written

theorem remove_removable (below : path ≠ []) (has : tree.lookup path ≠ none)
    (childless : ∀ entry ∈ tree.entries, entry.1.dropLast ≠ path) :
    ∃ after, tree.remove path = some after :=
  ⟨_, dif_pos ⟨below, has, childless⟩⟩

theorem lookup_make_dir (made : tree.makeDir path = some after) (other : List Name) :
    after.lookup other = if other = path then some .dir else tree.lookup other := by
  unfold makeDir at made
  split at made
  · cases made
    exact lookup_add _ _ _ other
  · cases made

theorem lookup_remove (removed : tree.remove path = some after) (other : List Name) :
    after.lookup other = if other = path then none else tree.lookup other := by
  unfold remove at removed
  split at removed
  · next removable =>
    cases removed
    by_cases root : other = []
    · have apart : other ≠ path := by
        intro same
        exact removable.1 (same.symm.trans root)
      rw [if_neg apart, root, lookup_root, lookup_root]
    · exact lookup_without _ root
  · cases removed

theorem lookup_remove_tree (below : other ≠ []) :
    (tree.removeTree path).lookup other = if path <+: other then none else tree.lookup other :=
  lookup_keep_unless _ below (by simp [← isPrefixOf_iff_prefix])

/-- The files, without the directories they are in. -/
def files (tree : FileTree Name Content) : List (List Name × Content) :=
  tree.entries.filterMap (fun entry => entry.2.content.map (Prod.mk entry.1))

def contents (tree : FileTree Name Content) : List Content := tree.files.map snd

/-- The files at a path and below it. -/
def filesUnder (tree : FileTree Name Content) (path : List Name) : List Content :=
  (tree.files.filter (fun file => path.isPrefixOf file.1)).map snd

def children (tree : FileTree Name Content) (path : List Name) : List (Name × FileNode Content) :=
  tree.entries.filterMap (fun entry =>
    if entry.1.dropLast = path then entry.1.getLast?.map (fun name => (name, entry.2)) else none)

section Files

variable {content : Content}

omit [DecidableEq Name] in
theorem mem_files : (path, content) ∈ tree.files ↔ (path, .file content) ∈ tree.entries := by
  unfold files
  rw [mem_filterMap]
  constructor
  · rintro ⟨⟨key, node⟩, mem, shown⟩
    cases node with
    | file =>
      cases shown
      exact mem
    | dir => cases shown
  · intro mem
    exact ⟨_, mem, rfl⟩

theorem mem_files_under :
    content ∈ tree.filesUnder path ↔ ∃ key, path <+: key ∧ (key, .file content) ∈ tree.entries := by
  unfold filesUnder
  simp [mem_files, and_comm]

omit [DecidableEq Name] in
theorem files_distinct : tree.files.Nodup := by
  apply (Nodup.of_map _ tree.distinct).filterMap
  rintro ⟨_, first⟩ ⟨_, second⟩ _ left right
  cases first with
  | file =>
    cases left
    cases second with
    | file =>
      cases right
      rfl
    | dir => cases right
  | dir => cases left

omit [DecidableEq Name] in
theorem files_keep {stays : List Name → Bool} (upward) :
    (tree.keep stays upward).files = tree.files.filter (fun file => stays file.1) := by
  unfold files keep
  rw [filterMap_filter, filter_filterMap]
  congr 1
  funext ⟨key, node⟩
  cases node with
  | file => by_cases kept : stays key <;> simp [FileNode.content, kept, Option.filter_some]
  | dir => simp [FileNode.content]

theorem files_make_dir (made : tree.makeDir path = some after) : after.files = tree.files := by
  unfold makeDir at made
  split at made
  · cases made
    rfl
  · cases made

end Files

section Below

variable {key : List Name} {name : Name}

theorem prefix_is_dir {upper : List Name} (below : upper ≠ []) :
    ∀ {node : FileNode Content}, (path, node) ∈ tree.entries → upper <+: path → upper ≠ path →
      (upper, FileNode.dir) ∈ tree.entries := by
  induction path using reverseRecOn with
  | nil =>
    intro node mem isPrefix apart
    exact absurd (prefix_nil.mp isPrefix) apart
  | append_singleton init last ih =>
    intro node mem isPrefix apart
    have inside : upper <+: init := by
      rcases prefix_concat_iff.mp isPrefix with same | inside
      · exact absurd same apart
      · exact inside
    have parent := (tree.closed _ mem).2
    rw [dropLast_concat] at parent
    rcases parent with top | parent
    · rw [top, prefix_nil] at inside
      exact absurd inside below
    · by_cases same : upper = init
      · rw [same]
        exact parent
      · exact ih parent inside same

/-- The way down to a node starts at a child. -/
theorem child_toward (mem : (key, node) ∈ tree.entries) (under : path <+: key) (apart : key ≠ path) :
    ∃ name inner, (path ++ [name], inner) ∈ tree.entries ∧ path ++ [name] <+: key := by
  obtain ⟨rest, rfl⟩ := under
  cases rest with
  | nil => exact absurd (append_nil path) apart
  | cons name rest =>
    have inside : path ++ [name] <+: path ++ name :: rest := ⟨rest, by simp⟩
    by_cases last : rest = []
    · subst last
      exact ⟨name, node, mem, inside⟩
    · refine ⟨name, _, prefix_is_dir (by simp) mem inside ?_, inside⟩
      simpa using Ne.symm last

theorem childless_under (childless : ∀ entry ∈ tree.entries, entry.1.dropLast ≠ path)
    (mem : (key, node) ∈ tree.entries) (under : path <+: key) : key = path := by
  by_contra apart
  obtain ⟨name, _, child, _⟩ := child_toward mem under apart
  exact childless _ child dropLast_concat

omit [DecidableEq Name] in
theorem eq_of_entries {first second : FileTree Name Content}
    (same : first.entries = second.entries) : first = second := by
  cases first
  cases second
  cases same
  rfl

theorem without_eq_remove_tree (childless : ∀ entry ∈ tree.entries, entry.1.dropLast ≠ path)
    (leaf) : tree.without path leaf = tree.removeTree path := by
  apply eq_of_entries
  apply filter_congr
  rintro ⟨key, node⟩ mem
  by_cases same : key = path
  · simp [same]
  · have outside : ¬ path.isPrefixOf key = true := by
      rw [ isPrefixOf_iff_prefix]
      exact fun under => same (childless_under childless mem under)
    simp [same, outside]

theorem remove_eq_remove_tree (removed : tree.remove path = some after) :
    path ≠ [] ∧ tree.lookup path ≠ none ∧ (∀ entry ∈ tree.entries, entry.1.dropLast ≠ path) ∧
      after = tree.removeTree path := by
  unfold remove at removed
  split at removed
  · next removable =>
    cases removed
    exact ⟨removable.1, removable.2.1, removable.2.2, without_eq_remove_tree removable.2.2 _⟩
  · cases removed

theorem remove_tree_inner (path rest : List Name) :
    (tree.removeTree (path ++ rest)).removeTree path = tree.removeTree path := by
  apply eq_of_entries
  change (filter _ (filter _ _)) = filter _ _
  rw [List.filter_filter]
  apply filter_congr
  intro entry _
  rw [Bool.and_eq_left_iff_imp]
  intro stays
  rw [Bool.not_eq_true', Bool.eq_false_iff, Ne, isPrefixOf_iff_prefix] at stays ⊢
  exact fun lower => stays ((prefix_append path rest).trans lower)

theorem mem_of_content {content : Content}
    (held : (tree.lookup path).bind FileNode.content = some content) :
    (path, .file content) ∈ tree.entries := by
  obtain ⟨node, found, isFile⟩ := bind_eq_some_iff.mp held
  have below : path ≠ [] := by
    rintro rfl
    cases found
    cases isFile
  cases node with
  | file =>
    cases isFile
    exact (lookup_eq_some below _).mp found
  | dir => cases isFile

/-- Under a node without children there is at most its own file. -/
theorem files_under_childless (childless : ∀ entry ∈ tree.entries, entry.1.dropLast ≠ path) :
    (tree.filesUnder path).Perm ((tree.lookup path).bind FileNode.content).toList := by
  have alone : ∀ key content, (key, content) ∈ tree.files ∧ path.isPrefixOf key = true →
      key = path ∧ tree.lookup path = some (.file content) := by
    rintro key content ⟨mem, under⟩
    have inside := mem_files.mp mem
    have same := childless_under childless inside ( isPrefixOf_iff_prefix.mp under)
    rw [same] at inside
    exact ⟨same, lookup_of_mem inside⟩
  unfold filesUnder
  cases held : (tree.lookup path).bind FileNode.content with
  | none =>
    rw [filter_eq_nil_iff.mpr]
    · exact Perm.refl _
    · rintro ⟨key, content⟩ mem under
      rw [(alone key content ⟨mem, under⟩).2] at held
      cases held
  | some content =>
    apply @Perm.map _ _ snd _ [(path, content)]
    rw [perm_ext_iff_of_nodup (files_distinct.filter _) (nodup_singleton _)]
    rintro ⟨key, other⟩
    rw [mem_filter, mem_singleton]
    constructor
    · intro under
      obtain ⟨rfl, found⟩ := alone key other under
      rw [found] at held
      cases held
      rfl
    · intro same
      cases same
      exact ⟨mem_files.mpr (mem_of_content held), by simp⟩

theorem contents_remove_tree :
    ((tree.removeTree path).contents ++ tree.filesUnder path).Perm tree.contents := by
  unfold contents filesUnder removeTree
  rw [files_keep, ← map_append]
  exact (perm_append_comm.trans (filter_append_perm _ tree.files)).map snd

theorem contents_remove (removed : tree.remove path = some after) :
    (after.contents ++ ((tree.lookup path).bind FileNode.content).toList).Perm tree.contents := by
  obtain ⟨_, _, childless, rfl⟩ := remove_eq_remove_tree removed
  exact ((files_under_childless childless).symm.append_left _).trans contents_remove_tree

theorem contents_write_file {content : Content}
    (written : tree.writeFile path content = some after) :
    (after.contents ++ ((tree.lookup path).bind FileNode.content).toList).Perm
      (content :: tree.contents) := by
  unfold writeFile at written
  split at written
  · next placed =>
    cases written
    have childless := childless_of_not_dir placed.2.2
    change (content :: (tree.without path _).contents ++ _).Perm _
    rw [without_eq_remove_tree childless]
    exact (((files_under_childless childless).symm.append_left _).trans contents_remove_tree).cons _
  · cases written

omit [DecidableEq Name] in
theorem getLast_of_dropLast (parent : key.dropLast = path) (last : key.getLast? = some name) :
    key = path ++ [name] := by
  rw [← parent]
  exact (dropLast_append_getLast? name last).symm

theorem mem_children :
    (name, node) ∈ tree.children path ↔ (path ++ [name], node) ∈ tree.entries := by
  unfold children
  rw [mem_filterMap]
  constructor
  · rintro ⟨⟨key, value⟩, mem, shown⟩
    split at shown
    · next parent =>
      obtain ⟨_, last, same⟩ := map_eq_some_iff.mp shown
      obtain ⟨rfl, rfl⟩ := Prod.mk.inj same
      rw [← getLast_of_dropLast parent last]
      exact mem
    · cases shown
  · intro mem
    refine ⟨_, mem, ?_⟩
    simp

theorem children_distinct : ((tree.children path).map fst).Nodup := by
  have names : (tree.children path).map fst = (tree.entries.map fst).filterMap
      (fun key => if key.dropLast = path then key.getLast? else none) := by
    unfold children
    rw [map_filterMap, filterMap_map]
    congr 1
    funext entry
    by_cases parent : entry.1.dropLast = path <;> simp [parent, Function.comp_def]
  rw [names]
  apply tree.distinct.filterMap
  intro first second name left right
  obtain ⟨parent, last⟩ := ite_none_right_eq_some.mp left
  obtain ⟨same, again⟩ := ite_none_right_eq_some.mp right
  rw [getLast_of_dropLast parent last, getLast_of_dropLast same again]

/-- What is under a directory is under one of its children. -/
theorem files_under_dir (isDir : tree.lookup path = some .dir) :
    (tree.filesUnder path).Perm
      ((tree.children path).flatMap (fun child => tree.filesUnder (path ++ [child.1]))) := by
  unfold filesUnder
  rw [← map_flatMap]
  apply Perm.map
  rw [perm_ext_iff_of_nodup]
  · rintro ⟨key, content⟩
    simp only [mem_flatMap, mem_filter, isPrefixOf_iff_prefix]
    constructor
    · rintro ⟨mem, under⟩
      have inside := mem_files.mp mem
      have apart : key ≠ path := by
        rintro rfl
        rw [lookup_of_mem inside] at isDir
        cases isDir
      obtain ⟨name, inner, child, lower⟩ := child_toward inside under apart
      exact ⟨(name, inner), mem_children.mpr child, mem, lower⟩
    · rintro ⟨child, _, mem, lower⟩
      exact ⟨mem, (prefix_append path [child.1]).trans lower⟩
  · exact files_distinct.filter _
  · rw [nodup_flatMap]
    refine ⟨fun _ _ => files_distinct.filter _, ?_⟩
    apply (pairwise_map.mp children_distinct).imp
    intro first second apart ⟨key, content⟩ left right
    rw [mem_filter, isPrefixOf_iff_prefix] at left right
    have same := (prefix_of_prefix_length_le left.2 right.2 (by simp)).eq_of_length (by simp)
    exact apart (by simpa using same)

end Below

end FileTree

end ViCell.Lib
