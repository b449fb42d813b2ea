import ViCell.Vfs.QuotaAccounting

/-!
# Recursive removal

A recursive removal that succeeds takes the directory away with everything below
it, on the FAT volume node by node. With the walk that went before, the sender's
entry loses what the sender's files lose.
-/

namespace ViCell.Vfs

open Lib List Option FileTree QuotaTracker StoredFile

namespace Fat

variable {lib : Libraries} {laws : FatLaws lib} {tree : Tree} {rel : Text} {place : List Text}

/-- If the call succeeds, the node that the path named is gone with all below. -/
structure Cuts (laws : FatLaws lib) (tree : Tree) (rel : Text) (result : Tree × Bool) : Prop where
  consistent : laws.Consistent result.1
  done : result.2 = true → ∃ place, laws.find tree [] (components rel) = some place ∧
    place ≠ [] ∧ tree.lookup place ≠ none ∧ result.1 = tree.removeTree place

theorem remove_cuts (consistent : laws.Consistent tree) (noDots : NoDots rel) :
    Cuts laws tree rel (lib.fatRemove tree [] rel) := by
  refine ⟨laws.remove_consistent noDots consistent, ?_⟩
  intro done
  obtain ⟨place, found, removed⟩ := laws.remove_done noDots (Prod.ext rfl done)
  obtain ⟨below, has, _, cut⟩ := remove_eq_remove_tree removed
  exact ⟨place, found, below, has, cut⟩

theorem remove_tree_shrinks (tree : Tree) (place : List Text) :
    Shrinks tree (tree.removeTree place) := by
  intro path has
  by_cases root : path = []
  · rw [root, lookup_root, lookup_root]
  · rw [lookup_remove_tree root] at has ⊢
    split at has
    · exact absurd rfl has
    · next outside => rw [if_neg outside]

theorem lookup_above_removed (tree : Tree) (place : List Text) (name : Text) :
    (tree.removeTree (place ++ [name])).lookup place = tree.lookup place := by
  by_cases root : place = []
  · rw [root, lookup_root, lookup_root]
  · rw [lookup_remove_tree root, if_neg]
    intro inside
    have longer := inside.length_le
    rw [length_append, length_singleton] at longer
    omega

/-- The children go, the directory itself stays where its path leads. -/
theorem remove_each_cuts {removeDir : Tree → Text → Tree × Bool} {items : List (Text × Bool)}
    (removes : ∀ tree child, laws.Consistent tree → NoDots child → components child ≠ [] →
      Cuts laws tree child (removeDir tree child))
    (named : ∀ entry ∈ items, EntryName entry.1) (noDots : NoDots rel)
    (below : components rel ≠ []) (consistent : laws.Consistent tree)
    (found : laws.find tree [] (components rel) = some place)
    (isDir : tree.lookup place = some .dir) :
    laws.Consistent (removeEach lib removeDir rel items tree).1 ∧
      ((removeEach lib removeDir rel items tree).2 = true →
        laws.find (removeEach lib removeDir rel items tree).1 [] (components rel) = some place ∧
        (removeEach lib removeDir rel items tree).1.removeTree place = tree.removeTree place) := by
  have entries : ∀ part ∈ components rel, EntryName part := fun part mem => noDots.entry mem
  induction items generalizing tree with
  | nil => exact ⟨consistent, fun _ => ⟨found, rfl⟩⟩
  | cons entry rest ih =>
    obtain ⟨name, subdir⟩ := entry
    have entry : EntryName name := named _ mem_cons_self
    have childDots := noDots.child entry
    have cuts : Cuts laws tree (rel ++ '/' :: name) (if subdir then
        removeDir tree (rel ++ '/' :: name) else lib.fatRemove tree [] (rel ++ '/' :: name)) := by
      cases subdir with
      | true =>
        exact removes tree _ consistent childDots (by rw [components_child entry.1]; simp)
      | false => exact remove_cuts consistent childDots
    unfold removeEach
    dsimp only
    cases step : (if subdir then removeDir tree (rel ++ '/' :: name)
        else lib.fatRemove tree [] (rel ++ '/' :: name)) with
    | mk after done =>
      rw [step] at cuts
      cases done with
      | false => exact ⟨cuts.consistent, nofun⟩
      | true =>
        obtain ⟨lower, child, _, _, rfl⟩ := cuts.done rfl
        rw [components_child entry.1, find_last laws entries below found isDir] at child
        obtain ⟨stored, rfl, _⟩ := laws.find_name entry child
        have stays := (lookup_above_removed tree place stored).trans isDir
        have still := laws.find_kept consistent entries (remove_tree_shrinks tree _) found
          (by rw [stays]; exact nofun)
        obtain ⟨kept, ends⟩ :=
          ih (fun other mem => named other (mem_cons_of_mem _ mem)) cuts.consistent still stays
        refine ⟨kept, fun done => ⟨(ends done).1, ?_⟩⟩
        rw [(ends done).2, remove_tree_inner]

theorem remove_tree_cuts (depth : Nat) (consistent : laws.Consistent tree) (noDots : NoDots rel)
    (below : components rel ≠ []) : Cuts laws tree rel (removeTree lib depth tree rel) := by
  induction depth generalizing tree rel with
  | zero => exact ⟨consistent, by simp [removeTree]⟩
  | succ depth ih =>
    unfold removeTree
    cases opened : lib.fatOpenDir tree [] rel with
    | none => exact remove_cuts consistent noDots
    | some dir =>
      rw [laws.open_dir noDots] at opened
      obtain ⟨found, opens⟩ := filter_eq_some_iff.mp opened
      have isDir := of_decide_eq_true opens
      have named : ∀ entry ∈ (lib.fatIter tree dir).reduceOption.filter Fat.named,
          EntryName entry.1 := by
        intro entry mem
        obtain ⟨listed, shown⟩ := mem_filter.mp mem
        have plain := laws.iter_plain consistent (reduceOption_mem_iff.mp listed)
        simp only [Fat.named, Bool.and_eq_true, decide_eq_true_iff] at shown
        exact ⟨plain, shown⟩
      obtain ⟨kept, ends⟩ :=
        remove_each_cuts (fun _ _ => ih) named noDots below consistent found isDir
      dsimp only
      cases step : removeEach lib (removeTree lib depth) rel
          ((lib.fatIter tree dir).reduceOption.filter Fat.named) tree with
      | mk after done =>
        rw [step] at kept ends
        cases done with
        | false => exact ⟨kept, by simp⟩
        | true =>
          obtain ⟨still, same⟩ := ends rfl
          have cuts := remove_cuts kept noDots
          refine ⟨cuts.consistent, fun done => ?_⟩
          obtain ⟨place, again, lower, _, gone⟩ := cuts.done done
          cases again.symm.trans still
          exact ⟨dir, found, lower, by simp [isDir], gone.trans same⟩

theorem rmdir_recursive_cuts {path : Text} (relative : relNonempty path = some rel)
    (consistent : laws.Consistent tree) (noDots : NoDots rel) (below : components rel ≠ []) :
    Cuts laws tree rel (rmdirRecursive lib tree path) := by
  unfold rmdirRecursive
  rw [relative]
  dsimp only
  split
  · exact ⟨consistent, nofun⟩
  · exact remove_tree_cuts _ consistent noDots below

end Fat

theorem components_trimmed {front rest : Text}
    (trimmed : trimEnd (front ++ '/' :: rest) = front ++ '/' :: rest) : components rest ≠ [] := by
  have ends : ∀ init, front ++ '/' :: rest ≠ init ++ ['/'] := by
    intro init same
    have shorter := ( rdropWhile_prefix isSlash init).length_le
    rw [same] at trimmed
    unfold trimEnd at trimmed
    rw [rdropWhile_concat_pos _ _ _ rfl] at trimmed
    rw [trimmed, length_append, length_singleton] at shorter
    omega
  cases cut : splitAtLast rest with
  | none =>
    have named : rest ≠ [] := by
      rintro rfl
      exact ends front rfl
    rw [components_name ⟨named, split_at_last_none cut⟩]
    exact cons_ne_nil _ _
  | some pair =>
    obtain ⟨text, free⟩ := split_at_last_some cut
    have named : pair.2 ≠ [] := by
      intro empty
      apply ends (front ++ '/' :: pair.1)
      rw [text, empty, append_assoc]
      rfl
    rw [text, components_child ⟨named, free⟩]
    simp

theorem dir_of_not_file {tree : Tree} {place : List Text} (has : tree.lookup place ≠ none)
    (notFile : fileAt tree place = none) : tree.lookup place = some .dir := by
  unfold fileAt at notFile
  cases held : tree.lookup place with
  | none => exact absurd held has
  | some node =>
    cases node with
    | file =>
      rw [held] at notFile
      cases notFile
    | dir => rfl

namespace VfsManager

section Removal

variable {lib : Libraries} {laws : Documented lib} {vfs : VfsManager} {sender : Nat} {path : Text}

/-- A directory of the sender goes. -/
structure TreeRemoved (laws : Documented lib) (vfs after : VfsManager) (sender : Nat) (path : Text)
    (view : View) (place : List Text) : Prop where
  leads : Leads laws vfs view path place
  below : place ≠ []
  isDir : view.tree.lookup place = some .dir
  walkable : Walkable view sender place
  files : ∀ size, measured size after.stored + measured size (view.tree.filesUnder place) =
    measured size vfs.stored

theorem tree_removed {backend : Backend} {view : View} {place : List Text} {after : Tree}
    (mounted : vfs.treeOf backend = some view.tree) (leads : Leads laws vfs view path place)
    (below : place ≠ []) (isDir : view.tree.lookup place = some .dir)
    (walkable : Walkable view sender place) (removed : after = view.tree.removeTree place) :
    TreeRemoved laws vfs (vfs.setTree backend after) sender path view place := by
  refine ⟨leads, below, isDir, walkable, ?_⟩
  intro size
  have moved := stored_set mounted after size
  have cut := @measured_perm size _ _ (@contents_remove_tree _ _ _ view.tree place)
  rw [measured_append, ← removed] at cut
  omega

theorem removal_done (sane : Volumes laws vfs) (own : OwnTree laws vfs sender path)
    (done : (vfs.mutate path (rmdirRecursiveIn lib path)).2 = true) :
    ∃ view place, TreeRemoved laws vfs (vfs.mutate path (rmdirRecursiveIn lib path)).1 sender path
      view place := by
  revert done
  apply mutate_cases (fun result => result.2 = true →
    ∃ view place, TreeRemoved laws vfs result.1 sender path view place) nofun
  intro backend tree found mounted done
  obtain ⟨trimmed, allowed, noDots, seen⟩ := own
  rcases can_write_iff.mp allowed with ⟨rest, rfl⟩ | ⟨rest, rfl⟩ | ⟨rest, rfl⟩
  · cases found
    have isLfs : vfs.lfs = some tree := mounted
    obtain ⟨_, relative, changed⟩ := Lfs.change_done done
    obtain ⟨rfl, noUp, accepted⟩ := lfs_rel_path_some relative
    rw [rmdirRecursiveIn, Lfs.rmdirRecursive, changed] at done ⊢
    obtain ⟨below, isDir, removed⟩ := laws.lfs.remove_dir_all_done (Prod.ext rfl done)
    have viewed : vfs.removalView laws ("/data/".toList ++ rest) =
        some (lfsView laws.lfs tree ('/' :: rest), laws.lfs.place ('/' :: rest)) := by
      change vfs.lfs.bind _ = _
      rw [isLfs, bind_some, relative]
      rfl
    have leads := @Leads.lfs lib laws vfs tree rest [] isLfs (by simpa [trail] using noUp)
      (by simpa [trail] using accepted) (by simp [trail])
    simp only [trail, flatMap_nil, append_nil] at leads
    exact ⟨_, _, tree_removed mounted leads below isDir (seen _ viewed).2 removed⟩
  · cases found
    cases mounted
    have isRam : vfs.treeOf .ram = some vfs.ram := rfl
    change (settle vfs.ram _).2 = true at done
    have removed := settle_done (Prod.ext rfl done)
    obtain ⟨_, target, removed⟩ := bind_eq_some_iff.mp removed
    rw [RamFs.target_eq target] at removed
    split at removed
    · next isDir =>
      have below : components ("/tmp/".toList ++ rest) ≠ [] := by
        rw [show components ("/tmp/".toList ++ rest) = ["tmp".toList] ++ components rest from
          components_append_slash "/tmp".toList rest]
        simp
      exact ⟨_, _, @tree_removed lib laws vfs sender _ .ram ⟨vfs.ram, 480, fun _ => true⟩ _ _ isRam
        (Leads.ram rest) below isDir (seen _ rfl).2 (some.inj removed).symm⟩
    · cases removed
  · cases found
    have isFat : vfs.fat = some tree := mounted
    have below : components rest ≠ [] := @components_trimmed "/mnt/sd".toList rest trimmed
    obtain ⟨relative, _, _⟩ := fat_rel_path below
    have inner := Fat.rel_no_dots relative noDots
    have consistent : laws.fat.Consistent tree := sane .fat tree mounted
    obtain ⟨place, named, lower, has, removed⟩ :=
      (Fat.rmdir_recursive_cuts relative consistent inner below).done done
    have viewed : vfs.removalView laws ("/mnt/sd/".toList ++ rest) =
        some (⟨tree, 512, fun _ => true⟩, place) := by
      change vfs.fat.bind _ = _
      rw [isFat, bind_some, relative, bind_some, named]
      rfl
    obtain ⟨notFile, walkable⟩ := seen _ viewed
    exact ⟨_, _, @tree_removed lib laws vfs sender _ .fat ⟨tree, 512, fun _ => true⟩ _ _ mounted
      (Leads.fat tree rest place isFat consistent inner below named) lower
      (dir_of_not_file has notFile) walkable removed⟩

theorem removal_sane (sane : Volumes laws vfs) (own : OwnTree laws vfs sender path) :
    Volumes laws (vfs.mutate path (rmdirRecursiveIn lib path)).1 := by
  obtain ⟨trimmed, allowed, noDots, _⟩ := own
  apply mutate_sane sane
  intro backend tree found mounted
  rcases can_write_iff.mp allowed with ⟨rest, rfl⟩ | ⟨rest, rfl⟩ | ⟨rest, rfl⟩
  · cases found
    trivial
  · cases found
    trivial
  · cases found
    have below : components rest ≠ [] := @components_trimmed "/mnt/sd".toList rest trimmed
    obtain ⟨relative, _, _⟩ := fat_rel_path below
    exact (Fat.rmdir_recursive_cuts relative (sane .fat tree mounted)
      (Fat.rel_no_dots relative noDots) below).consistent

theorem rmdir_recursive_accounted (sound : Accounted laws vfs) (own : OwnTree laws vfs sender path)
    (clean : Clean vfs (handleRmdirRecursive lib sender vfs path)) :
    Accounted laws (handleRmdirRecursive lib sender vfs path).1 := by
  have sane := removal_sane sound.sane own
  have kept := mutate_quota vfs path (rmdirRecursiveIn lib path)
  refine sound.settled (vfs.mutate path (rmdirRecursiveIn lib path))
    (fun quota => quota.release sender (vfs.collectDirBytes lib 32 path)) sane kept ?_ clean
  intro done
  obtain ⟨view, place, removed⟩ := removal_done sound.sane own done
  have ofSender := removed.walkable.own
  have counted : vfs.collectDirBytes lib 32 path = measured size (view.tree.filesUnder place) :=
    collect_counts removed.walkable 32 removed.leads own.1 (prefix_refl place) removed.below
      removed.isDir rfl
  have enough : measured size (view.tree.filesUnder place) ≤ vfs.quota.usedBy sender := by
    have files := removed.files (byWriter sender)
    rw [measured_own ofSender, if_pos rfl] at files
    rw [sound.used sender]
    omega
  rw [kept, counted]
  have effect : Effect laws vfs (vfs.mutate path (rmdirRecursiveIn lib path)).1
      (view.tree.filesUnder place) [] := ⟨sane, fun size _ => removed.files size⟩
  exact sound.exchange effect ofSender nofun (release_rebooked enough (sound.bounded sender))

end Removal

end VfsManager

end ViCell.Vfs
