import ViCell.Vfs.DiskLibraries

/-!
# Write access

What requests can do to nodes whose own path the access table closes. Writing,
appending and making directories ask the table about the text of the request;
the three removals ask nobody.
-/

namespace ViCell.Vfs

open Lib Option FileTree

namespace VfsManager

def placeOf (backend : Backend) (path : Text) : List Text :=
  if backend = .ram then components path
  else components ((path.dropPrefix? backend.mountPoint).getD path)

/-- The node with this path, as far as volumes that can change are concerned. -/
def nodeAt (vfs : VfsManager) (path : Text) : Option (FileNode StoredFile) :=
  (resolve path).bind (fun backend =>
    (vfs.treeOf backend).bind (fun tree => tree.lookup (placeOf backend path)))

/-- The path that a request without an access check removes. -/
def removedPath : VfsRequest → Option Text
  | .rmdir path => some path
  | .unlink path => some path
  | .rmdirRecursive path => some path
  | _ => none

def RemovalAllowed (_vfs : VfsManager) (call : VfsCall) : Prop :=
  ∀ path ∈ removedPath call.request, canWrite call.sender (canonical path) = true

instance (vfs : VfsManager) (call : VfsCall) : Decidable (RemovalAllowed vfs call) :=
  inferInstanceAs (Decidable (∀ path ∈ removedPath call.request, _))

variable {cell : Nat} {path : Text}

theorem closed_disk_path {backend : Backend} (disk : backend = .fat ∨ backend = .lfs)
    (found : resolve path = some backend) (closed : canWrite cell path = false) :
    placeOf backend path = [] := by
  have notRam : backend ≠ .ram := by
    rcases disk with rfl | rfl <;> decide
  rcases resolve_disk notRam found with rfl | below
  · rcases disk with rfl | rfl
    · rfl
    · rfl
  · have allowed : canWrite cell path = true := by
      rw [can_write_iff]
      rcases disk with rfl | rfl
      · exact Or.inr (Or.inr below)
      · exact Or.inl below
    rw [closed] at allowed
    cases allowed

theorem open_path_volume (checked : ¬ canWrite cell path = false) :
    resolve path ≠ some .srv ∧ resolve path ≠ some .boot ∧
      (resolve path = some .ram → "/tmp/".toList <+: path) := by
  rcases can_write_iff.mp (Bool.of_not_eq_false checked) with ⟨rest, rfl⟩ | ⟨rest, rfl⟩ | ⟨rest, rfl⟩
  · exact ⟨nofun, nofun, nofun⟩
  · exact ⟨nofun, nofun, fun _ => List.prefix_append _ _⟩
  · exact ⟨nofun, nofun, nofun⟩

theorem srv_path_closed {cell : Nat} {path : Text} (found : resolve path = some .srv) :
    canWrite cell (canonical path) = false := by
  have first : ∃ rest, components path = "srv".toList :: rest := by
    rcases resolve_disk (by decide) found with rfl | ⟨rest, rfl⟩
    · exact ⟨[], rfl⟩
    · exact ⟨components rest, components_append_slash "/srv".toList rest⟩
  obtain ⟨rest, parts⟩ := first
  rw [Bool.eq_false_iff]
  intro allowed
  unfold canonical at allowed
  rw [parts, can_write_iff] at allowed
  simp [render] at allowed

/-- Nothing closed is touched: in RAM the closed nodes stay, the service volume stays
as a whole, and the disks stay mounted. -/
structure KeepsClosed (before after : VfsManager) : Prop where
  ram : ∀ cell path, canWrite cell (canonical path) = false →
    after.ram.lookup (components path) = before.ram.lookup (components path)
  srv : after.srv = before.srv
  fat : after.fat.isSome = before.fat.isSome
  lfs : after.lfs.isSome = before.lfs.isSome

theorem KeepsClosed.refl (vfs : VfsManager) : KeepsClosed vfs vfs :=
  ⟨fun _ _ _ => rfl, rfl, rfl, rfl⟩

theorem KeepsClosed.trans {first second third : VfsManager} (earlier : KeepsClosed first second)
    (later : KeepsClosed second third) : KeepsClosed first third where
  ram cell path closed := (later.ram cell path closed).trans (earlier.ram cell path closed)
  srv := later.srv.trans earlier.srv
  fat := later.fat.trans earlier.fat
  lfs := later.lfs.trans earlier.lfs

def LeavesClosed (before after : Tree) : Prop :=
  ∀ cell path, canWrite cell (canonical path) = false →
    after.lookup (components path) = before.lookup (components path)

theorem mutate_keeps {vfs : VfsManager} {change : Backend → Tree → Tree × Bool}
    (notSrv : resolve path ≠ some .srv)
    (ram : resolve path = some .ram → LeavesClosed vfs.ram (change .ram vfs.ram).1) :
    KeepsClosed vfs (vfs.mutate path change).1 := by
  apply mutate_cases (fun result => KeepsClosed vfs result.1) (KeepsClosed.refl vfs)
  intro backend tree found mounted
  cases backend with
  | ram =>
    cases mounted
    exact ⟨ram found, rfl, rfl, rfl⟩
  | fat =>
    have has : vfs.fat = some tree := mounted
    exact ⟨fun _ _ _ => rfl, rfl, by rw [has]; rfl, rfl⟩
  | lfs =>
    have has : vfs.lfs = some tree := mounted
    exact ⟨fun _ _ _ => rfl, rfl, rfl, by rw [has]; rfl⟩
  | boot => exact KeepsClosed.refl vfs
  | srv => exact absurd found notSrv

section Ram

variable {tree : Tree} {cell : Nat} {path other : Text}

theorem settled_leaves {change : List Text → Option Tree}
    (kept : ∀ after, components path ≠ [] → change (components path) = some after →
      LeavesClosed tree after) :
    LeavesClosed tree (settle tree ((RamFs.target path).bind change)).1 := by
  cases out : (RamFs.target path).bind change with
  | none => exact fun _ _ _ => rfl
  | some after =>
    obtain ⟨_, target, changed⟩ := bind_eq_some_iff.mp out
    obtain ⟨⟨_, _⟩, cut, rfl⟩ := map_eq_some_iff.mp target
    rw [← components_split_parent_name cut] at changed
    exact kept after (by rw [components_split_parent_name cut]; simp) changed

/-- The scratch directory is in the way of whatever would replace it. -/
theorem closed_apart_from_scratch (scratch : "/tmp/".toList <+: path)
    (notDir : tree.lookup (components path) ≠ some .dir)
    (has : tree.lookup ["tmp".toList] = some .dir)
    (closed : canWrite cell (canonical other) = false) : components other ≠ components path := by
  intro same
  rcases scratch_canonical cell scratch with isScratch | allowed
  · rw [isScratch] at notDir
    exact notDir has
  · unfold canonical at closed allowed
    rw [same, allowed] at closed
    cases closed

section Scratch

variable (scratch : "/tmp/".toList <+: path) (has : tree.lookup ["tmp".toList] = some .dir)
include scratch has

theorem write_node_leaves (file : StoredFile) :
    LeavesClosed tree (RamFs.writeNode tree path file).1 := by
  apply settled_leaves
  intro after _ written cell other closed
  have notDir : tree.lookup (components path) ≠ some .dir := by
    unfold writeFile at written
    split at written
    · next placed => exact placed.2.2
    · cases written
  rw [lookup_write_file written, if_neg (closed_apart_from_scratch scratch notDir has closed)]

theorem ram_mkdir_leaves : LeavesClosed tree (RamFs.mkdir tree path).1 := by
  apply settled_leaves
  intro after _ made cell other closed
  have notDir : tree.lookup (components path) ≠ some .dir := by
    unfold makeDir at made
    split at made
    · next placed =>
      rw [placed.2.2]
      exact (some_ne_none _).symm
    · cases made
  rw [lookup_make_dir made, if_neg (closed_apart_from_scratch scratch notDir has closed)]

end Scratch

section Removal

variable {sender : Nat} (allowed : canWrite sender (canonical path) = true)
include allowed

theorem open_not_below_closed (closed : canWrite cell (canonical other) = false)
    (below : components path ≠ []) : ¬ components path <+: components other := by
  intro inside
  have longer := can_write_below below allowed inside
  rw [can_write_iff, ← @can_write_iff cell] at longer
  unfold canonical at closed
  rw [closed] at longer
  cases longer

theorem remove_leaves {after : Tree} (below : components path ≠ [])
    (removed : tree.remove (components path) = some after) : LeavesClosed tree after := by
  intro cell other closed
  rw [lookup_remove removed, if_neg]
  intro same
  exact open_not_below_closed allowed closed below (by rw [same])

theorem ram_rmdir_leaves : LeavesClosed tree (RamFs.rmdir tree path).1 := by
  apply settled_leaves
  intro after below removed
  unfold removeDir at removed
  split at removed
  · exact remove_leaves allowed below removed
  · cases removed

theorem ram_unlink_leaves : LeavesClosed tree (RamFs.unlink tree path).1 := by
  apply settled_leaves
  intro after below removed
  unfold removeFile at removed
  split at removed
  · cases removed
  · exact remove_leaves allowed below removed

theorem ram_rmdir_recursive_leaves : LeavesClosed tree (RamFs.rmdirRecursive tree path).1 := by
  apply settled_leaves
  intro after below removed cell other closed
  split at removed
  · cases removed
    by_cases root : components other = []
    · rw [root, lookup_root, lookup_root]
    · rw [lookup_remove_tree root, if_neg (open_not_below_closed allowed closed below)]
  · cases removed

end Removal

end Ram

section Arms

variable {lib : Libraries} {sender : Nat} {vfs : VfsManager} {path : Text}

theorem KeepsClosed.settled {outcome : VfsManager × Bool} {quota : QuotaTracker}
    (kept : KeepsClosed vfs outcome.1) :
    KeepsClosed vfs (if outcome.2 then ({ outcome.1 with quota := quota }, VfsResponse.ok)
      else (outcome.1, .err 1)).1 := by
  split
  · exact ⟨kept.ram, kept.srv, kept.fat, kept.lfs⟩
  · exact kept

theorem checked_mutate_keeps {change : Backend → Tree → Tree × Bool}
    (checked : ¬ canWrite sender path = false)
    (ram : "/tmp/".toList <+: path → LeavesClosed vfs.ram (change .ram vfs.ram).1) :
    KeepsClosed vfs (vfs.mutate path change).1 := by
  obtain ⟨notSrv, _, inScratch⟩ := open_path_volume checked
  exact mutate_keeps notSrv (fun isRam => ram (inScratch isRam))

section Scratch

variable (has : vfs.ram.lookup ["tmp".toList] = some .dir)
include has

theorem stored_keeps {change : Backend → Tree → Tree × Bool} {file : StoredFile}
    (checked : ¬ canWrite sender path = false)
    (stores : change .ram vfs.ram = if "/tmp/".toList.isPrefixOf path
      then RamFs.writeNode vfs.ram path file else (vfs.ram, false)) :
    KeepsClosed vfs (vfs.mutate path change).1 := by
  apply checked_mutate_keeps checked
  intro scratch
  rw [stores, if_pos (List.isPrefixOf_iff_prefix.mpr scratch)]
  exact write_node_leaves scratch has file

theorem write_keeps (content : List UInt8) :
    KeepsClosed vfs (handleWrite lib sender vfs path content).1 := by
  unfold handleWrite
  split
  · exact KeepsClosed.refl vfs
  · next checked =>
    dsimp only
    split
    · exact KeepsClosed.refl vfs
    · exact (stored_keeps has checked rfl).settled

theorem append_keeps (content : List UInt8) :
    KeepsClosed vfs (handleAppend lib sender vfs path content).1 := by
  unfold handleAppend
  split
  · exact KeepsClosed.refl vfs
  · next checked =>
    dsimp only
    split
    · exact KeepsClosed.refl vfs
    · exact (stored_keeps has checked rfl).settled

theorem mkdir_keeps : KeepsClosed vfs (handleMkdir lib sender vfs path).1 := by
  unfold handleMkdir
  split
  · exact KeepsClosed.refl vfs
  · next checked =>
    exact checked_mutate_keeps checked (fun scratch => ram_mkdir_leaves scratch has)

end Scratch

section Removals

variable (allowed : canWrite sender (canonical path) = true)
include allowed

theorem removal_avoids_srv : resolve path ≠ some .srv := by
  intro found
  have closed := @srv_path_closed sender path found
  rw [allowed] at closed
  cases closed

theorem rmdir_keeps : KeepsClosed vfs (handleRmdir lib vfs path).1 :=
  mutate_keeps (removal_avoids_srv allowed) (fun _ => ram_rmdir_leaves allowed)

theorem unlink_keeps : KeepsClosed vfs (handleUnlink lib sender vfs path).1 := by
  apply KeepsClosed.settled
  exact mutate_keeps (removal_avoids_srv allowed) (fun _ => ram_unlink_leaves allowed)

theorem rmdir_recursive_keeps : KeepsClosed vfs (handleRmdirRecursive lib sender vfs path).1 := by
  apply KeepsClosed.settled
  exact mutate_keeps (removal_avoids_srv allowed) (fun _ => ram_rmdir_recursive_leaves allowed)

end Removals

theorem serve_keeps {call : VfsCall} {after : VfsManager}
    (has : vfs.ram.lookup ["tmp".toList] = some .dir) (met : RemovalAllowed vfs call)
    (served : serve lib vfs call = some after) : KeepsClosed vfs after := by
  cases served
  obtain ⟨_, request, _⟩ := call
  cases request with
  | malformed | listDir path | readGrant shared | writeGrant shared bytes =>
    exact KeepsClosed.refl vfs
  | getFile path | stat path =>
    unfold handleRequest
    dsimp only
    split <;> exact KeepsClosed.refl vfs
  | write _ content => exact write_keeps has content
  | append _ content => exact append_keeps has content
  | mkdir => exact mkdir_keeps has
  | rmdir path => exact rmdir_keeps (met path rfl)
  | unlink path => exact unlink_keeps (met path rfl)
  | rmdirRecursive path => exact rmdir_recursive_keeps (met path rfl)
  | readAsync => exact ⟨fun _ _ _ => rfl, rfl, rfl, rfl⟩
  | poll =>
    unfold handleRequest
    dsimp only
    split
    · exact ⟨fun _ _ _ => rfl, rfl, rfl, rfl⟩
    · exact KeepsClosed.refl vfs

end Arms

theorem canonical_components (path : Text) : components (canonical path) = components path :=
  components_render (components_plain path)

theorem root_of_mounted {first second : Option Tree} (mounted : first.isSome = second.isSome) :
    first.bind (fun tree => tree.lookup []) = second.bind (fun tree => tree.lookup []) := by
  cases first with
  | none =>
    cases second with
    | none => rfl
    | some => cases mounted
  | some =>
    cases second with
    | none => cases mounted
    | some =>
      rw [bind_some, bind_some, lookup_root, lookup_root]

theorem KeepsClosed.node_at {was after : VfsManager} (kept : KeepsClosed was after)
    (closed : canWrite cell (canonical path) = false) :
    after.nodeAt (canonical path) = was.nodeAt (canonical path) := by
  unfold nodeAt
  cases found : resolve (canonical path) with
  | none => rfl
  | some backend =>
    rw [bind_some, bind_some]
    cases backend with
    | ram =>
      unfold placeOf
      rw [canonical_components]
      exact kept.ram cell path closed
    | fat =>
      rw [closed_disk_path (Or.inl rfl) found closed]
      exact root_of_mounted kept.fat
    | lfs =>
      rw [closed_disk_path (Or.inr rfl) found closed]
      exact root_of_mounted kept.lfs
    | boot => rfl
    | srv =>
      change after.srv.bind _ = was.srv.bind _
      rw [kept.srv]

theorem scratch_at_boot : RamFs.new.lookup ["tmp".toList] = some .dir := by
  decide +kernel

theorem run_keeps_closed {lib : Libraries} {fat lfs srv : Option Tree} {after : VfsManager}
    (reached : Reaches (serve lib) RemovalAllowed (new fat lfs srv) after) :
    KeepsClosed (new fat lfs srv) after := by
  apply reached.invariant _ (KeepsClosed.refl _)
  intro was call next kept met served
  -- The scratch directory is itself closed, so it is still there.
  have has : was.ram.lookup ["tmp".toList] = some .dir :=
    (kept.ram 0 "/tmp".toList rfl).trans scratch_at_boot
  exact kept.trans (serve_keeps has met served)

/-- While every removal names a node whose own path is open to writing, no request
creates, changes or removes a node whose path is closed. -/
theorem closed_nodes_kept (lib : Libraries) (fat lfs srv : Option Tree) {after : VfsManager}
    (reached : Reaches (serve lib) RemovalAllowed (new fat lfs srv) after) (cell : Nat) (path : Text)
    (closed : canWrite cell (canonical path) = false) :
    after.nodeAt (canonical path) = (new fat lfs srv).nodeAt (canonical path) :=
  (run_keeps_closed reached).node_at closed

def scratchCalls : List VfsCall := [
  ⟨5, .mkdir "/tmp/job".toList, none⟩,
  ⟨5, .write "/tmp/job/log".toList [1, 2, 3], none⟩,
  ⟨6, .append "/tmp/job/log".toList [4], none⟩,
  ⟨6, .write "/readme.txt".toList [0], none⟩,
  ⟨6, .rmdirRecursive "/tmp/job".toList, none⟩]

theorem scratch_calls_keep_readme : canWrite 6 (canonical "/readme.txt".toList) = false ∧
    (finalState (serve literalNames) (new none none none) scratchCalls).nodeAt
      (canonical "/readme.txt".toList) =
        (new none none none).nodeAt (canonical "/readme.txt".toList) :=
  ⟨rfl, closed_nodes_kept literalNames none none none
    (reaches_final (by decide +kernel) (by decide +kernel)) 6 "/readme.txt".toList rfl⟩

/-- Any cell can unlink the catalogue's files, although the table closes the root. -/
theorem readme_unlinked : canWrite 6 (canonical "/readme.txt".toList) = false ∧
    ((new none none none).nodeAt (canonical "/readme.txt".toList)).isSome = true ∧
    ((serve literalNames (new none none none) ⟨6, .unlink "/readme.txt".toList, none⟩).map
      (fun after => (after.nodeAt (canonical "/readme.txt".toList)).isSome)) = some false := by
  decide +kernel

end VfsManager

end ViCell.Vfs
