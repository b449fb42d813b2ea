import ViCell.Lib.TreeMaps
import ViCell.Vfs.DirectoryWalk
import ViCell.Vfs.WriteAccess

/-!
# Quota accounting

The quota table against the files that requests have stored. Charges and releases
go to the sender of the request at hand, so the books balance while every cell
touches its own files only and no request fails half-way.
-/

namespace ViCell.Vfs

open Lib List Option FileTree QuotaTracker StoredFile

namespace QuotaTracker

variable (quota : QuotaTracker) (owner : Nat)

theorem used_by_insert (bytes cell : Nat) :
    usedBy { quota with used := quota.used.insert owner bytes } cell =
      if cell = owner then bytes else quota.usedBy cell := by
  unfold usedBy
  by_cases same : cell = owner
  · rw [same, Std.TreeMap.getElem?_insert_self, if_pos rfl]
    rfl
  · have apart : ¬ compare owner cell = .eq := by
      rw [Nat.compare_eq_eq]
      exact fun eq => same eq.symm
    rw [Std.TreeMap.getElem?_insert, if_neg apart, if_neg same]

theorem total_insert (bytes : Nat) :
    total { quota with used := quota.used.insert owner bytes } + quota.usedBy owner =
      quota.total + bytes := by
  have inserted := ((TreeMaps.insert_entries quota.used owner bytes).map Prod.snd).sum_eq
  rw [map_cons, sum_cons] at inserted
  unfold total usedBy
  cases found : quota.used[owner]? with
  | none =>
    have same := ((TreeMaps.erase_missing found).map Prod.snd).sum_eq
    simp only [getD_none]
    omega
  | some =>
    have split := ((TreeMaps.erase_entries found).map Prod.snd).sum_eq
    rw [map_cons, sum_cons] at split
    simp only [getD_some]
    omega

/-- The entry of the owner loses and gains some bytes within the limit. -/
structure Rebooked (before after : QuotaTracker) (owner lost gained : Nat) : Prop where
  enough : lost ≤ before.usedBy owner
  fits : before.usedBy owner - lost + gained ≤ before.limit
  used : ∀ cell, after.usedBy cell =
    if cell = owner then before.usedBy owner - lost + gained else before.usedBy cell
  total : after.total + lost = before.total + gained
  limit : after.limit = before.limit

variable {quota owner} {bytes : Nat}

theorem insert_rebooked {lost gained : Nat} (enough : lost ≤ quota.usedBy owner)
    (fits : quota.usedBy owner - lost + gained ≤ quota.limit)
    (entry : bytes = quota.usedBy owner - lost + gained) :
    Rebooked quota { quota with used := quota.used.insert owner bytes } owner lost gained := by
  have inserted := total_insert quota owner bytes
  exact ⟨enough, fits, fun cell => entry ▸ used_by_insert quota owner bytes cell, by omega, rfl⟩

section

variable (enough : bytes ≤ quota.usedBy owner) (bounded : quota.usedBy owner ≤ quota.limit)
include enough bounded

theorem same_rebooked : Rebooked quota quota owner bytes bytes := by
  refine ⟨enough, by omega, ?_, rfl, rfl⟩
  intro cell
  by_cases same : cell = owner
  · rw [if_pos same, same]
    omega
  · rw [if_neg same]

theorem release_rebooked : Rebooked quota (quota.release owner bytes) owner bytes 0 := by
  unfold release
  split
  · next used found =>
    have has : quota.usedBy owner = used := by
      unfold usedBy
      rw [found]
      rfl
    exact insert_rebooked enough (by omega) (by omega)
  · next gone =>
    have absent : quota.usedBy owner = 0 := by
      unfold usedBy
      rw [gone]
      rfl
    cases Nat.le_zero.mp (absent ▸ enough)
    exact same_rebooked enough bounded

end

theorem Rebooked.charge {middle : QuotaTracker} {lost kept gained : Nat}
    (books : Rebooked quota middle owner lost kept)
    (fits : quota.usedBy owner - lost + kept + gained ≤ quota.limit) :
    Rebooked quota (middle.charge owner gained) owner lost (kept + gained) := by
  have current : middle.usedBy owner = quota.usedBy owner - lost + kept := by
    rw [books.used, if_pos rfl]
  have total := books.total
  have limit := books.limit
  unfold QuotaTracker.charge
  rw [if_neg (by omega)]
  have charged : Rebooked middle
      { middle with used := middle.used.insert owner (middle.usedBy owner + gained) } owner 0 gained :=
    insert_rebooked (Nat.zero_le _) (by omega) rfl
  have added := charged.total
  refine ⟨books.enough, by omega, ?_, by omega, limit⟩
  intro cell
  rw [charged.used, books.used cell]
  split
  · omega
  · rfl

end QuotaTracker

def byWriter (cell : Nat) (file : StoredFile) : Nat := if file.writer = some cell then file.size else 0

theorem by_writer_le (cell : Nat) : byWriter cell ≤ requested := by
  intro file
  unfold byWriter requested
  split
  · next wrote =>
    rw [if_neg (by rw [wrote]; exact nofun)]
  · exact Nat.zero_le _

section Own

variable {sender : Nat} {files : List StoredFile} (own : ∀ file ∈ files, file.writer = some sender)
include own

theorem measured_own (cell : Nat) :
    measured (byWriter cell) files = if cell = sender then measured size files else 0 := by
  by_cases same : cell = sender
  · rw [if_pos same]
    apply congrArg sum
    apply map_congr_left
    intro file mem
    unfold byWriter
    rw [own file mem, same, if_pos rfl]
  · rw [if_neg same]
    apply sum_eq_zero
    intro _ listed
    obtain ⟨file, mem, rfl⟩ := mem_map.mp listed
    unfold byWriter
    rw [own file mem, if_neg (fun eq => same (some.inj eq).symm)]

theorem measured_requested : measured requested files = measured size files := by
  apply congrArg sum
  apply map_congr_left
  intro file mem
  unfold requested
  rw [own file mem, if_neg nofun]

end Own

theorem measured_option (file : Option StoredFile) :
    measured size file.toList = (file.map size).getD 0 := by
  cases file with
  | none => rfl
  | some => rfl

namespace VfsManager

variable {lib : Libraries}

def volumes : List Backend := [.ram, .fat, .lfs, .srv]

def files (vfs : VfsManager) (backend : Backend) : List (List Text × StoredFile) :=
  ((vfs.treeOf backend).map FileTree.files).getD []

/-- The files on all volumes. -/
def stored (vfs : VfsManager) : List StoredFile :=
  volumes.flatMap (fun backend => (vfs.files backend).map Prod.snd)

def heldIn (laws : Documented lib) (path : Text) : Backend → Tree → Option StoredFile
  | .ram, tree => RamFs.read tree path
  | .fat, tree => Fat.held lib tree path
  | .lfs, tree => Lfs.held laws.lfs tree path
  | .srv, tree => Redox.read lib tree path
  | .boot, _ => none

/-- The file that a path names. -/
def fileNamed (laws : Documented lib) (vfs : VfsManager) (path : Text) : Option StoredFile :=
  (resolve path).bind (fun backend => (vfs.treeOf backend).bind (heldIn laws path backend))

/-- The volume and the place that a recursive removal works on. -/
def removalView (laws : Documented lib) (vfs : VfsManager) (path : Text) :
    Option (View × List Text) :=
  match resolve path with
  | some .ram => some (⟨vfs.ram, 480, fun _ => true⟩, components path)
  | some .lfs => vfs.lfs.bind (fun tree => (Lfs.relPath lib path).map (fun rel =>
    (lfsView laws.lfs tree rel, laws.lfs.place rel)))
  | some .fat => vfs.fat.bind (fun tree => ((Fat.relNonempty path).bind
    (fun rel => laws.fat.find tree [] (components rel))).map
      (fun place => (⟨tree, 512, fun _ => true⟩, place)))
  | _ => none

section Conditions

variable (laws : Documented lib) (vfs : VfsManager) (sender : Nat) (path : Text)

/-- If the path names a file, the sender wrote it. -/
def OwnFile : Prop := ∀ file ∈ (vfs.fileNamed laws path).toList, file.writer = some sender

instance : Decidable (OwnFile laws vfs sender path) :=
  inferInstanceAs (Decidable (∀ file ∈ (vfs.fileNamed laws path).toList, _))

/-- On the FAT volume no path goes through the entries that a directory has for itself
and for its parent. -/
def PlainOnFat : Prop := resolve path = some .fat → NoDots path

instance : Decidable (PlainOnFat path) := inferInstanceAs (Decidable (_ → _))

/-- A directory below the writable prefixes, in which the walk sees everything and
everything is the sender's. -/
def OwnTree : Prop :=
  trimEnd path = path ∧ canWrite sender path = true ∧ NoDots path ∧
    ∀ target ∈ vfs.removalView laws path,
      fileAt target.1.tree target.2 = none ∧ Walkable target.1 sender target.2

instance : Decidable (OwnTree laws vfs sender path) := by
  unfold OwnTree
  infer_instance

end Conditions

def SameFiles (before after : VfsManager) : Prop :=
  ∀ backend ∈ volumes, (after.files backend).Perm (before.files backend)

/-- A request that is answered with an error has left the files as they were. -/
def Clean (vfs : VfsManager) (served : VfsManager × VfsResponse) : Prop :=
  served.2 = .ok ∨ SameFiles vfs served.1

instance (vfs : VfsManager) (served : VfsManager × VfsResponse) : Decidable (Clean vfs served) := by
  unfold Clean SameFiles
  infer_instance

/-- No disk access fails, and neither does the request after it has changed something. -/
def Undisturbed (lib : Libraries) (vfs : VfsManager) (call : VfsCall) : Prop :=
  call.faulty.isNone ∧ Clean vfs (vfs.handleRequest lib call.sender call.request)

/-- Cells touch their own files only, and the disks do what they are asked. -/
def AccountedCall (laws : Documented lib) (vfs : VfsManager) (call : VfsCall) : Prop :=
  match call.request with
  | .write path _ | .append path _ | .unlink path =>
    Undisturbed lib vfs call ∧ OwnFile laws vfs call.sender path ∧ PlainOnFat path
  | .mkdir path | .rmdir path => Undisturbed lib vfs call ∧ PlainOnFat path
  | .rmdirRecursive path => Undisturbed lib vfs call ∧ OwnTree laws vfs call.sender path
  | _ => True

instance (laws : Documented lib) (vfs : VfsManager) (call : VfsCall) :
    Decidable (AccountedCall laws vfs call) := by
  unfold AccountedCall Undisturbed
  split <;> infer_instance

/-- What is true of a volume at all times: nothing on the service volume comes from a request. -/
def Sane (laws : Documented lib) : Backend → Tree → Prop
  | .fat, tree => laws.fat.Consistent tree
  | .srv, tree => measured requested tree.contents = 0
  | _, _ => True

def Volumes (laws : Documented lib) (vfs : VfsManager) : Prop :=
  ∀ backend tree, vfs.treeOf backend = some tree → Sane laws backend tree

/-- What a request has done to the files. -/
structure Effect (laws : Documented lib) (before after : VfsManager) (old new : List StoredFile) :
    Prop where
  sane : Volumes laws after
  files : ∀ size ≤ requested, measured size after.stored + measured size old =
    measured size before.stored + measured size new

/-- What a change of one volume that succeeds exchanges. -/
def Serves (laws : Documented lib) (vfs : VfsManager) (path : Text)
    (change : Backend → Tree → Tree × Bool) (old new : Option StoredFile) : Prop :=
  ∀ backend tree, resolve path = some backend → vfs.treeOf backend = some tree →
    Sane laws backend tree →
      Sane laws backend (change backend tree).1 ∧ Outcome tree (change backend tree) old new

section Volumes

variable {laws : Documented lib} {vfs after : VfsManager} {backend : Backend} {tree : Tree}
  {path : Text} {change : Backend → Tree → Tree × Bool} {old new : Option StoredFile}

theorem SameFiles.measured_stored (same : SameFiles vfs after) (size : StoredFile → Nat) :
    measured size after.stored = measured size vfs.stored := by
  apply measured_perm
  apply Perm.flatMap_left
  intro backend mem
  exact (same backend mem).map Prod.snd

theorem tree_of_set (mounted : vfs.treeOf backend = some tree) (other : Backend) (made : Tree) :
    (vfs.setTree backend made).treeOf other =
      if other = backend then some made else vfs.treeOf other := by
  cases backend with
  | boot => cases mounted
  | ram | fat | lfs | srv => cases other <;> rfl

theorem stored_set (mounted : vfs.treeOf backend = some tree) (made : Tree)
    (size : StoredFile → Nat) :
    measured size (vfs.setTree backend made).stored + measured size tree.contents =
      measured size vfs.stored + measured size made.contents := by
  have parts : ∀ vfs : VfsManager, measured size vfs.stored =
      measured size ((vfs.files .ram).map Prod.snd) +
        (measured size ((vfs.files .fat).map Prod.snd) +
        (measured size ((vfs.files .lfs).map Prod.snd) +
        measured size ((vfs.files .srv).map Prod.snd))) := by
    intro vfs
    simp [stored, volumes, measured]
  have was : (vfs.files backend).map Prod.snd = tree.contents := by
    unfold files
    rw [mounted]
    rfl
  rw [parts, parts, ← was]
  simp only [files, tree_of_set mounted]
  cases backend with
  | boot => cases mounted
  | ram | fat | lfs | srv =>
    simp only [reduceCtorEq, if_true, if_false, map_some, getD_some]
    change _ + _ = _ + measured size (made.files.map Prod.snd)
    omega

theorem mutate_quota (vfs : VfsManager) (path : Text) (change : Backend → Tree → Tree × Bool) :
    (vfs.mutate path change).1.quota = vfs.quota := by
  apply mutate_cases (fun result => result.1.quota = vfs.quota) rfl
  intro backend tree _ _
  cases backend <;> rfl

theorem mutate_sane (sane : Volumes laws vfs)
    (kept : ∀ backend tree, resolve path = some backend → vfs.treeOf backend = some tree →
      Sane laws backend (change backend tree).1) : Volumes laws (vfs.mutate path change).1 := by
  apply mutate_cases (fun result => Volumes laws result.1) sane
  intro backend tree found mounted other made held
  rw [tree_of_set mounted] at held
  split at held
  · next same =>
    cases held
    rw [same]
    exact kept backend tree found mounted
  · exact sane other made held

theorem Serves.sane (serves : Serves laws vfs path change old new) (sane : Volumes laws vfs) :
    Volumes laws (vfs.mutate path change).1 :=
  mutate_sane sane (fun backend tree found mounted =>
    (serves backend tree found mounted (sane backend tree mounted)).1)

theorem Serves.effect (serves : Serves laws vfs path change old new) (sane : Volumes laws vfs)
    (done : (vfs.mutate path change).2 = true) :
    Effect laws vfs (vfs.mutate path change).1 old.toList new.toList := by
  refine ⟨serves.sane sane, ?_⟩
  intro size less
  revert done
  apply mutate_cases (fun result => result.2 = true →
    measured size result.1.stored + measured size old.toList =
      measured size vfs.stored + measured size new.toList) nofun
  intro backend tree found mounted done
  have moved := stored_set mounted (change backend tree).1 size
  have exchange := (serves backend tree found mounted (sane backend tree mounted)).2 done size less
  dsimp only
  omega

end Volumes

structure Accounted (laws : Documented lib) (vfs : VfsManager) : Prop where
  sane : Volumes laws vfs
  used : ∀ cell, vfs.quota.usedBy cell = measured (byWriter cell) vfs.stored
  total : vfs.quota.total = measured requested vfs.stored
  bounded : ∀ cell, vfs.quota.usedBy cell ≤ vfs.quota.limit

/-- How a request that changed a volume is answered. -/
def answer (result : VfsManager × Bool) (rebook : QuotaTracker → QuotaTracker) :
    VfsManager × VfsResponse :=
  if result.2 then ({ result.1 with quota := rebook result.1.quota }, .ok) else (result.1, .err 1)

theorem answer_plain (result : VfsManager × Bool) :
    answer result id = (result.1, if result.2 then .ok else .err 1) := by
  unfold answer
  split <;> rfl

section Books

variable {laws : Documented lib} {vfs after : VfsManager} {sender : Nat}
  (sound : Accounted laws vfs)
include sound

theorem Accounted.exchange {old new : List StoredFile} {quota : QuotaTracker}
    (effect : Effect laws vfs after old new) (ownOld : ∀ file ∈ old, file.writer = some sender)
    (ownNew : ∀ file ∈ new, file.writer = some sender)
    (books : Rebooked vfs.quota quota sender (measured size old) (measured size new)) :
    Accounted laws { after with quota := quota } where
  sane := effect.sane
  used cell := by
    have balance := effect.files (byWriter cell) (by_writer_le cell)
    have start := sound.used cell
    have enough := books.enough
    rw [measured_own ownOld, measured_own ownNew] at balance
    change quota.usedBy cell = measured (byWriter cell) after.stored
    rw [books.used cell]
    split
    · next same =>
      subst same
      rw [if_pos rfl, if_pos rfl] at balance
      omega
    · next other =>
      rw [if_neg other, if_neg other] at balance
      omega
  total := by
    have balance := effect.files requested (le_refl _)
    have start := sound.total
    have moved := books.total
    rw [measured_requested ownOld, measured_requested ownNew] at balance
    change quota.total = measured requested after.stored
    omega
  bounded cell := by
    change quota.usedBy cell ≤ quota.limit
    rw [books.used cell, books.limit]
    split
    · exact books.fits
    · exact sound.bounded cell

/-- A request that fails has changed no file, so the books stay as they are. -/
theorem Accounted.settled (result : VfsManager × Bool) (rebook : QuotaTracker → QuotaTracker)
    (sane : Volumes laws result.1) (kept : result.1.quota = vfs.quota)
    (done : result.2 = true → Accounted laws { result.1 with quota := rebook result.1.quota })
    (clean : Clean vfs (answer result rebook)) : Accounted laws (answer result rebook).1 := by
  unfold answer at clean ⊢
  split at clean
  · next success =>
    rw [if_pos success]
    exact done success
  · next failed =>
    rw [if_neg failed]
    rcases clean with answered | same
    · cases answered
    · have effect : Effect laws vfs result.1 [] [] :=
        ⟨sane, fun size _ => same.measured_stored size⟩
      have books : Rebooked vfs.quota result.1.quota 0 0 0 := by
        rw [kept]
        exact same_rebooked (Nat.zero_le _) (sound.bounded 0)
      exact sound.exchange effect nofun nofun books

variable {path : Text} {change : Backend → Tree → Tree × Bool}

theorem Accounted.exchanged {old new : Option StoredFile} (serves : Serves laws vfs path change old new)
    (rebook : QuotaTracker → QuotaTracker) (ownOld : ∀ file ∈ old.toList, file.writer = some sender)
    (ownNew : ∀ file ∈ new.toList, file.writer = some sender)
    (books : Rebooked vfs.quota (rebook vfs.quota) sender (measured size old.toList)
      (measured size new.toList)) (clean : Clean vfs (answer (vfs.mutate path change) rebook)) :
    Accounted laws (answer (vfs.mutate path change) rebook).1 := by
  apply sound.settled _ rebook (serves.sane sound.sane) (mutate_quota vfs path change) _ clean
  intro done
  rw [mutate_quota]
  exact sound.exchange (serves.effect sound.sane done) ownOld ownNew books

theorem Accounted.moved (serves : Serves laws vfs path change none none)
    (clean : Clean vfs ((vfs.mutate path change).1,
      if (vfs.mutate path change).2 then .ok else .err 1)) :
    Accounted laws (vfs.mutate path change).1 := by
  rw [← answer_plain] at clean
  have moved := sound.exchanged serves id nofun nofun
    (same_rebooked (Nat.zero_le _) (sound.bounded 0)) clean
  rw [answer_plain] at moved
  exact moved

end Books

section Named

variable {laws : Documented lib} {vfs : VfsManager} {path : Text} {tree : Tree} {file : StoredFile}

theorem file_at_stored {place : List Text} (isFile : fileAt tree place = some file) :
    file ∈ tree.contents := by
  rw [file_at_content] at isFile
  exact mem_map_of_mem (mem_files.mpr (mem_of_content isFile))

theorem held_in_stored {backend : Backend} (held : heldIn laws path backend tree = some file) :
    file ∈ tree.contents := by
  cases backend with
  | ram => exact file_at_stored held
  | boot => cases held
  | fat | lfs | srv =>
    obtain ⟨_, _, isFile⟩ := bind_eq_some_iff.mp held
    exact file_at_stored isFile

theorem stored_of_mem {backend : Backend} (mounted : vfs.treeOf backend = some tree)
    (mem : file ∈ tree.contents) : file ∈ vfs.stored := by
  refine mem_flatMap.mpr ⟨backend, ?_, ?_⟩
  · cases backend with
    | boot => cases mounted
    | ram | fat | lfs | srv => decide
  · unfold files
    rw [mounted]
    exact mem

theorem measured_le_of_mem (held : Option StoredFile) {files : List StoredFile}
    (mem : ∀ file, held = some file → file ∈ files) (size : StoredFile → Nat) :
    measured size held.toList ≤ measured size files := by
  cases held with
  | none => exact Nat.zero_le _
  | some file => exact le_sum_of_mem (mem_map_of_mem (mem file rfl))

theorem file_named_le (size : StoredFile → Nat) :
    measured size (vfs.fileNamed laws path).toList ≤ measured size vfs.stored := by
  apply measured_le_of_mem
  intro file named
  obtain ⟨_, _, inVolume⟩ := bind_eq_some_iff.mp named
  obtain ⟨_, mounted, held⟩ := bind_eq_some_iff.mp inVolume
  exact stored_of_mem mounted (held_in_stored held)

theorem file_named_in {backend : Backend} (found : resolve path = some backend)
    (mounted : vfs.treeOf backend = some tree) :
    vfs.fileNamed laws path = heldIn laws path backend tree := by
  unfold fileNamed
  rw [found, bind_some, mounted, bind_some]

theorem node_size (tree : Tree) (place : List Text) :
    (((tree.lookup place).map (fun node => (node.weight size, node.isDir))).map Prod.fst).getD 0 =
      ((fileAt tree place).map size).getD 0 := by
  unfold fileAt
  cases tree.lookup place with
  | none => rfl
  | some node =>
    cases node with
    | file => rfl
    | dir => rfl

theorem fat_size (laws : Documented lib) (tree : Tree) (noDots : NoDots path) :
    Fat.fileSize lib tree path = ((Fat.held lib tree path).map size).getD 0 := by
  unfold Fat.fileSize Fat.held
  cases opened : Fat.openFile lib tree path with
  | none => rfl
  | some place =>
    unfold Fat.openFile at opened
    obtain ⟨rel, relative, opened⟩ := bind_eq_some_iff.mp opened
    obtain ⟨file, isFile⟩ :=
      Fat.open_file_some laws.fat (Fat.rel_no_dots relative noDots) opened
    rw [bind_some, bind_some, laws.fat.seek_end isFile, isFile]
    rfl

theorem file_size_named (laws : Documented lib) (notBoot : resolve path ≠ some .boot)
    (plain : PlainOnFat path) :
    vfs.fileSize lib path = measured size (vfs.fileNamed laws path).toList := by
  rw [measured_option]
  unfold fileSize stat fileNamed
  cases found : resolve path with
  | none => rfl
  | some backend =>
    cases backend with
    | ram => rfl
    | boot => exact absurd found notBoot
    | fat =>
      cases isFat : vfs.fat with
      | none => simp [treeOf, isFat]
      | some tree =>
        simpa [treeOf, isFat, heldIn] using fat_size laws tree (plain found)
    | lfs =>
      cases isLfs : vfs.lfs with
      | none => simp [treeOf, isLfs]
      | some tree =>
        simp only [treeOf, isLfs, bind_some]
        unfold heldIn Lfs.stat Lfs.held
        cases Lfs.relPath lib path with
        | none => rfl
        | some rel =>
          rw [bind_some, laws.lfs.metadata]
          exact node_size tree (laws.lfs.place rel)
    | srv =>
      cases isSrv : vfs.srv with
      | none => simp [treeOf, isSrv]
      | some tree =>
        simp only [treeOf, isSrv, bind_some]
        unfold heldIn Redox.stat Redox.read
        cases Redox.relPath lib path with
        | none => rfl
        | some rel => exact node_size tree rel

end Named

section Arms

variable {laws : Documented lib} {vfs : VfsManager} {sender : Nat} {path : Text} {tree : Tree}

/-- What is removed from the service volume was not written by a request. -/
theorem service_served {out : Option Tree} {old : Option StoredFile}
    (sane : Sane laws .srv tree) (known : ∀ file, old = some file → file ∈ tree.contents)
    (removed : ∀ after, out = some after → ∃ gone, Exchanges tree after gone none) :
    Sane laws .srv (settle tree out).1 ∧ Outcome tree (settle tree out) old none := by
  have none_left : measured requested tree.contents = 0 := sane
  cases out with
  | none => exact ⟨sane, nofun⟩
  | some after =>
    obtain ⟨gone, exchanged⟩ := removed after rfl
    have weights : measured requested after.contents + measured requested gone.toList =
      measured requested tree.contents := exchanged requested (le_refl _)
    have empty : measured requested after.contents = 0 := by omega
    refine ⟨empty, fun _ size less => ?_⟩
    have first := @measured_le size requested tree.contents less
    have second := @measured_le size requested after.contents less
    have third := measured_le_of_mem old known size
    change measured size after.contents + _ = _ + 0
    omega

section

variable (sound : Accounted laws vfs) (plain : PlainOnFat path)
include sound plain

theorem mkdir_accounted (clean : Clean vfs (handleMkdir lib sender vfs path)) :
    Accounted laws (handleMkdir lib sender vfs path).1 := by
  revert clean
  unfold handleMkdir
  split
  · exact fun _ => sound
  · next checked =>
    have serves : Serves laws vfs path (mkdirIn lib path) none none := by
      intro backend tree found mounted sane
      cases backend with
      | ram => exact ⟨trivial, RamFs.mkdir_outcome tree path⟩
      | lfs => exact ⟨trivial, Lfs.mkdir_outcome laws.lfs tree path⟩
      | fat => exact Fat.mkdir_served (plain found) sane
      | boot => cases mounted
      | srv => exact absurd found (open_path_volume checked).1
    exact sound.moved serves

theorem rmdir_accounted (clean : Clean vfs (handleRmdir lib vfs path)) :
    Accounted laws (handleRmdir lib vfs path).1 := by
  have serves : Serves laws vfs path (rmdirIn lib path) none none := by
    intro backend tree found mounted sane
    cases backend with
    | ram => exact ⟨trivial, RamFs.rmdir_outcome tree path⟩
    | lfs => exact ⟨trivial, Lfs.rmdir_outcome laws.lfs tree path⟩
    | fat => exact Fat.rmdir_served (plain found) sane
    | boot => cases mounted
    | srv =>
      refine service_served sane (fun _ missing => by cases missing) ?_
      intro after removed
      obtain ⟨_, _, removed⟩ := bind_eq_some_iff.mp removed
      exact ⟨_, remove_exchanges removed⟩
  exact sound.moved serves clean

section

variable (own : OwnFile laws vfs sender path)
include own

omit plain in
theorem own_file_used :
    measured size (vfs.fileNamed laws path).toList ≤ vfs.quota.usedBy sender := by
  have bound := @file_named_le lib laws vfs path (byWriter sender)
  rw [measured_own own sender, if_pos rfl] at bound
  rw [sound.used sender]
  exact bound

theorem write_accounted {content : List UInt8}
    (clean : Clean vfs (handleWrite lib sender vfs path content)) :
    Accounted laws (handleWrite lib sender vfs path content).1 := by
  revert clean
  unfold handleWrite
  split
  · exact fun _ => sound
  · next checked =>
    have serves : Serves laws vfs path (writeIn lib path ⟨content, some sender⟩)
        (vfs.fileNamed laws path) (some ⟨content, some sender⟩) := by
      intro backend tree found mounted sane
      rw [file_named_in found mounted]
      cases backend with
      | ram => exact ⟨trivial, RamFs.write_outcome tree path _⟩
      | lfs => exact ⟨trivial, Lfs.write_outcome laws.lfs tree path _⟩
      | fat => exact Fat.write_served (plain found) sane _
      | boot => cases mounted
      | srv => exact absurd found (open_path_volume checked).1
    rw [file_size_named laws (open_path_volume checked).2.1 plain]
    dsimp only
    split
    · exact fun _ => sound
    · next room =>
      have enough := own_file_used sound own
      have bounded := sound.bounded sender
      have fits : vfs.quota.usedBy sender - measured size (vfs.fileNamed laws path).toList + 0 +
          content.length ≤ vfs.quota.limit := by
        by_contra exceeds
        apply room
        unfold canCharge
        rw [decide_eq_false_iff_not]
        omega
      have books := (release_rebooked enough bounded).charge fits
      rw [Nat.zero_add] at books
      exact sound.exchanged serves (fun quota => (quota.release sender
        (measured size (vfs.fileNamed laws path).toList)).charge sender content.length)
          own (by simp) books

theorem append_accounted {content : List UInt8}
    (clean : Clean vfs (handleAppend lib sender vfs path content)) :
    Accounted laws (handleAppend lib sender vfs path content).1 := by
  revert clean
  unfold handleAppend
  split
  · exact fun _ => sound
  · next checked =>
    let extended (old : Option StoredFile) : Option StoredFile :=
      some ⟨(old.map data).getD [] ++ content, some sender⟩
    have serves : Serves laws vfs path (appendIn lib path ⟨content, some sender⟩)
        (vfs.fileNamed laws path) (extended (vfs.fileNamed laws path)) := by
      intro backend tree found mounted sane
      rw [file_named_in found mounted]
      cases backend with
      | ram => exact ⟨trivial, RamFs.append_outcome tree path _⟩
      | lfs => exact ⟨trivial, Lfs.append_outcome laws.lfs tree path _⟩
      | fat => exact Fat.append_served (plain found) sane _
      | boot => cases mounted
      | srv => exact absurd found (open_path_volume checked).1
    split
    · exact fun _ => sound
    · next room =>
      have fits : vfs.quota.usedBy sender + content.length ≤ vfs.quota.limit := by
        simpa [canCharge] using room
      have enough := own_file_used sound own
      have longer : measured size (extended (vfs.fileNamed laws path)).toList =
          measured size (vfs.fileNamed laws path).toList + content.length := by
        change (((vfs.fileNamed laws path).map data).getD [] ++ content).length = _
        rw [length_append]
        cases vfs.fileNamed laws path with
        | none => rfl
        | some => rfl
      have books := @Rebooked.charge _ _ _ _ _ content.length
        (same_rebooked enough (sound.bounded sender)) (by omega)
      rw [← longer] at books
      exact sound.exchanged serves (fun quota => quota.charge sender content.length) own
        (by simp [extended]) books

theorem unlink_accounted (clean : Clean vfs (handleUnlink lib sender vfs path)) :
    Accounted laws (handleUnlink lib sender vfs path).1 := by
  have serves : Serves laws vfs path (unlinkIn lib path) (vfs.fileNamed laws path) none := by
    intro backend tree found mounted sane
    rw [file_named_in found mounted]
    cases backend with
    | ram => exact ⟨trivial, RamFs.unlink_outcome tree path⟩
    | lfs => exact ⟨trivial, Lfs.unlink_outcome laws.lfs tree path⟩
    | fat => exact Fat.unlink_served (plain found) sane
    | boot => cases mounted
    | srv =>
      apply service_served sane (fun _ => held_in_stored)
      intro after removed
      obtain ⟨_, _, removed⟩ := bind_eq_some_iff.mp removed
      exact ⟨_, remove_file_exchanges removed⟩
  revert clean
  unfold handleUnlink
  by_cases boot : resolve path = some .boot
  · have refused : vfs.mutate path (unlinkIn lib path) = (vfs, false) := by
      unfold mutate
      rw [boot]
      rfl
    rw [refused]
    exact fun _ => sound
  · rw [file_size_named laws boot plain]
    exact sound.exchanged serves (fun quota => quota.release sender
      (measured size (vfs.fileNamed laws path).toList)) own nofun
      (release_rebooked (own_file_used sound own) (sound.bounded sender))

end

end

end Arms

end VfsManager

end ViCell.Vfs
