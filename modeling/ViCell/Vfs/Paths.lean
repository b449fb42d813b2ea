import Mathlib

/-!
# Paths of the file service

Requests name files by text. The access table and the mount table compare
prefixes of that text, the backends work on its components, and nothing brings the
two readings together. Here are both, and what one says about the other.
-/

namespace ViCell.Vfs

open List

abbrev Text := List Char

def isSlash (symbol : Char) : Bool := symbol == '/'

/-- The nonempty parts between slashes. -/
def components (path : Text) : List Text :=
  (path.splitOnP isSlash).filter (fun part => !part.isEmpty)

def render (parts : List Text) : Text :=
  if parts = [] then ['/'] else parts.flatMap (fun part => '/' :: part)

/-- The path under which the node that `path` names is known. -/
def canonical (path : Text) : Text := render (components path)

structure PathRule where
  pathPrefix : Text
  allowWriteAll : Bool

/-- Data, scratch and card are writable, the rest is read-only. -/
def defaultRules : List PathRule := [
  ⟨"/bin/".toList, false⟩,
  ⟨"/data/".toList, true⟩,
  ⟨"/tmp/".toList, true⟩,
  ⟨"/mnt/sd/".toList, true⟩,
  ⟨"/".toList, false⟩]

/-- The first rule that matches decides; no rule looks at the cell. -/
def canWrite (_cell : Nat) (path : Text) : Bool :=
  match defaultRules.find? (fun rule => rule.pathPrefix.isPrefixOf path) with
  | some rule => rule.allowWriteAll
  | none => false

inductive Backend where
  | ram | fat | lfs | boot | srv
  deriving DecidableEq, Repr

/-- In the order in which the manager mounts them. -/
def mounts : List (Text × Backend) := [
  ("/".toList, .ram),
  ("/tmp".toList, .ram),
  ("/data".toList, .lfs),
  ("/mnt/sd".toList, .fat),
  ("/bin".toList, .boot),
  ("/srv".toList, .srv)]

def Backend.mountPoint : Backend → Text
  | .ram => "/".toList
  | .fat => "/mnt/sd".toList
  | .lfs => "/data".toList
  | .boot => "/bin".toList
  | .srv => "/srv".toList

def prefixMatches (mount path : Text) : Bool :=
  if mount = "/".toList then "/".toList.isPrefixOf path
  else match path.dropPrefix? mount with
    | some [] => true
    | some (next :: _) => isSlash next
    | none => false

def keepLonger {Target : Type} (best : Option (Text × Target)) (mount : Text × Target) :
    Option (Text × Target) :=
  match best with
  | none => some mount
  | some chosen => if chosen.1.length ≤ mount.1.length then some mount else some chosen

/-- The longest matching mount of a table, the later one among equals. -/
def resolveIdx {Target : Type} (entries : List (Text × Target)) (path : Text) : Option Target :=
  ((entries.filter (fun mount => prefixMatches mount.1 path)).foldl keepLonger none).map Prod.snd

def resolve (path : Text) : Option Backend := resolveIdx mounts path

def splitAtLast : Text → Option (Text × Text)
  | [] => none
  | symbol :: rest =>
    match splitAtLast rest with
    | some (before, after) => some (symbol :: before, after)
    | none => if isSlash symbol then some ([], rest) else none

def trimEnd (path : Text) : Text := path.rdropWhile isSlash

/-- Parent and name as the RAM backend reads them. -/
def splitParentName (path : Text) : Option (Text × Text) :=
  match splitAtLast (trimEnd path) with
  | none => none
  | some (parent, name) =>
    if name = [] then none
    else some (if parent = [] then "/".toList else parent, name)

/-- Parent and name as the FAT backend reads them. -/
def splitLast (rel : Text) : Text × Text :=
  (splitAtLast rel).getD ([], rel)

theorem components_nil : components [] = [] := rfl

theorem components_append_slash (first second : Text) :
    components (first ++ '/' :: second) = components first ++ components second := by
  unfold components
  rw [splitOnP_append_cons _ _ rfl, filter_append]

def PlainName (name : Text) : Prop := name ≠ [] ∧ '/' ∉ name

instance (name : Text) : Decidable (PlainName name) := inferInstanceAs (Decidable (_ ∧ _))

variable {name : Text}

theorem components_name (plain : PlainName name) : components name = [name] := by
  have whole : name.splitOnP isSlash = [name] := by
    apply splitOnP_eq_singleton
    intro symbol mem
    unfold isSlash
    rw [beq_eq_false_iff_ne]
    rintro rfl
    exact plain.2 mem
  unfold components
  rw [whole]
  simp [plain.1]

variable {path : Text}

theorem components_child (plain : PlainName name) :
    components (path ++ '/' :: name) = components path ++ [name] := by
  rw [components_append_slash, components_name plain]

theorem components_render {parts : List Text} (plain : ∀ part ∈ parts, PlainName part) :
    components (render parts) = parts := by
  have joined : components (parts.flatMap (fun part => '/' :: part)) = parts := by
    induction parts using reverseRecOn with
    | nil => rfl
    | append_singleton init last ih =>
      have lastPlain : PlainName last := plain last (by simp)
      rw [flatMap_append, flatMap_singleton, components_child lastPlain]
      rw [ih (fun part mem => plain part (by simp [mem]))]
  unfold render
  split
  · next root => rw [root]; rfl
  · exact joined

theorem split_at_last_none (whole : splitAtLast path = none) : '/' ∉ path := by
  induction path with
  | nil => exact not_mem_nil
  | cons symbol rest ih =>
    unfold splitAtLast at whole
    split at whole
    · cases whole
    · next none_left =>
      split at whole
      · cases whole
      · next other =>
        intro mem
        rcases mem_cons.mp mem with here | later
        · exact other (by rw [← here]; rfl)
        · exact ih none_left later

theorem split_at_last_some {was after : Text} (cut : splitAtLast path = some (was, after)) :
    path = was ++ '/' :: after ∧ '/' ∉ after := by
  induction path generalizing was with
  | nil => cases cut
  | cons symbol rest ih =>
    unfold splitAtLast at cut
    split at cut
    · next upper lower found =>
      cases cut
      obtain ⟨same, free⟩ := ih found
      exact ⟨by rw [cons_append, ← same], free⟩
    · next whole =>
      split at cut
      · next slash =>
        cases cut
        have isSlash_eq : symbol = '/' := by simpa [isSlash] using slash
        exact ⟨by rw [isSlash_eq]; rfl, split_at_last_none whole⟩
      · cases cut

theorem components_free {text : Text} (free : '/' ∉ text) :
    ∀ part ∈ components text, PlainName part := by
  by_cases empty : text = []
  · rw [empty]
    exact fun part mem => absurd mem not_mem_nil
  · rw [components_name ⟨empty, free⟩]
    intro part mem
    rw [mem_singleton.mp mem]
    exact ⟨empty, free⟩

theorem components_plain (path : Text) : ∀ part ∈ components path, PlainName part := by
  induction size : path.length using Nat.strong_induction_on generalizing path with
  | h length ih =>
    cases cut : splitAtLast path with
    | none => exact components_free (split_at_last_none cut)
    | some pair =>
      obtain ⟨was, _⟩ := pair
      obtain ⟨rfl, free⟩ := split_at_last_some cut
      rw [components_append_slash]
      intro part mem
      rcases mem_append.mp mem with upper | lower
      · refine ih was.length ?_ was rfl part upper
        rw [← size]
        simp
      · exact components_free free part lower

theorem components_trim_end (path : Text) : components (trimEnd path) = components path := by
  unfold trimEnd
  induction path using reverseRecOn with
  | nil => rfl
  | append_singleton init last ih =>
    by_cases slash : isSlash last = true
    · have last_eq : last = '/' := by simpa [isSlash] using slash
      rw [rdropWhile_concat_pos _ _ _ slash, ih, last_eq, components_append_slash,
        components_nil, append_nil]
    · rw [rdropWhile_concat_neg _ _ _ slash]

theorem components_split_parent_name {parent : Text}
    (cut : splitParentName path = some (parent, name)) :
    components path = components parent ++ [name] := by
  unfold splitParentName at cut
  split at cut
  · cases cut
  · next upper lower found =>
    split at cut
    · cases cut
    · next named =>
      obtain ⟨same, free⟩ := split_at_last_some found
      cases cut
      rw [← components_trim_end path, same, components_child ⟨named, free⟩]
      split
      · next top => rw [top]; rfl
      · rfl

theorem render_append {upper : List Text} (below : upper ≠ []) (lower : List Text) :
    render (upper ++ lower) = render upper ++ lower.flatMap (fun part => '/' :: part) := by
  unfold render
  rw [if_neg below, if_neg (by simp [below]), flatMap_append]

theorem can_write_iff {cell : Nat} {path : Text} :
    canWrite cell path = true ↔ "/data/".toList <+: path ∨ "/tmp/".toList <+: path ∨
      "/mnt/sd/".toList <+: path := by
  constructor
  · intro allowed
    unfold canWrite at allowed
    split at allowed
    · next rule found =>
      have isRule := mem_of_find?_eq_some found
      have accepts := find?_some found
      have matching : rule.pathPrefix <+: path := isPrefixOf_iff_prefix.mp accepts
      simp only [defaultRules, mem_cons, not_mem_nil, or_false] at isRule
      rcases isRule with rfl | rfl | rfl | rfl | rfl
      · cases allowed
      · exact Or.inl matching
      · exact Or.inr (Or.inl matching)
      · exact Or.inr (Or.inr matching)
      · cases allowed
    · cases allowed
  · rintro (⟨rest, rfl⟩ | ⟨rest, rfl⟩ | ⟨rest, rfl⟩)
    · rfl
    · rfl
    · rfl

theorem can_write_longer {cell : Nat} {longer : Text} (allowed : canWrite cell path = true)
    (extends_path : path <+: longer) : canWrite cell longer = true := by
  rw [can_write_iff] at allowed ⊢
  rcases allowed with data | scratch | card
  · exact Or.inl (data.trans extends_path)
  · exact Or.inr (Or.inl (scratch.trans extends_path))
  · exact Or.inr (Or.inr (card.trans extends_path))

theorem can_write_below {cell : Nat} {upper lower : List Text} (below : upper ≠ [])
    (allowed : canWrite cell (render upper) = true) (inside : upper <+: lower) :
    canWrite cell (render lower) = true := by
  obtain ⟨_, rfl⟩ := inside
  apply can_write_longer allowed
  rw [render_append below]
  exact prefix_append _ _

/-- The prefix rule lets the scratch directory itself through when a slash ends
its name. -/
theorem scratch_canonical (cell : Nat) (scratch : "/tmp/".toList <+: path) :
    components path = ["tmp".toList] ∨ canWrite cell (canonical path) = true := by
  obtain ⟨rest, rfl⟩ := scratch
  have cut : components ("/tmp/".toList ++ rest) = "tmp".toList :: components rest :=
    components_append_slash "/tmp".toList rest
  cases inner : components rest with
  | nil =>
    left
    rw [cut, inner]
  | cons first others =>
    right
    unfold canonical
    rw [cut, inner, can_write_iff]
    right
    left
    exact ⟨first ++ others.flatMap (fun part => '/' :: part), rfl⟩

variable {Target : Type}

theorem longest_kept (rest : List (Text × Target)) (start : Text × Target) :
    ∃ mount ∈ start :: rest, rest.foldl keepLonger (some start) = some mount ∧
      ∀ other ∈ start :: rest, other.1.length ≤ mount.1.length := by
  induction rest generalizing start with
  | nil => exact ⟨start, by simp, rfl, by simp⟩
  | cons first rest ih =>
    rw [foldl_cons, keepLonger]
    split
    · next longer =>
      obtain ⟨mount, mem, found, longest⟩ := ih first
      refine ⟨mount, mem_cons_of_mem _ mem, found, ?_⟩
      have head := longest first mem_cons_self
      simpa [longer.trans head] using longest
    · obtain ⟨mount, mem, found, longest⟩ := ih start
      have head := longest start mem_cons_self
      have second : first.1.length ≤ mount.1.length := by omega
      refine ⟨mount, ?_, found, ?_⟩
      · exact mem_cons.mpr ((mem_cons.mp mem).imp_right (mem_cons_of_mem _))
      · simpa [head, second] using longest

theorem resolve_idx_cases (entries : List (Text × Target)) (path : Text) :
    (resolveIdx entries path = none ∧ ∀ mount ∈ entries, prefixMatches mount.1 path = false) ∨
      ∃ mount ∈ entries, resolveIdx entries path = some mount.2 ∧
        prefixMatches mount.1 path = true ∧
        ∀ other ∈ entries, prefixMatches other.1 path = true → other.1.length ≤ mount.1.length := by
  unfold resolveIdx
  cases candidates : entries.filter (fun mount => prefixMatches mount.1 path) with
  | nil => simpa using candidates
  | cons start rest =>
    obtain ⟨mount, mem, found, longest⟩ := longest_kept rest start
    rw [← candidates] at mem longest
    have listed := mem_filter.mp mem
    have scanned : (start :: rest).foldl keepLonger none = some mount := found
    refine .inr ⟨mount, listed.1, by rw [scanned]; rfl, listed.2, ?_⟩
    intro other known matching
    exact longest other (mem_filter.mpr ⟨known, matching⟩)

theorem matches_boundary {mount : Text} (notRoot : mount ≠ "/".toList)
    (matching : prefixMatches mount path = true) : path = mount ∨ mount ++ ['/'] <+: path := by
  unfold prefixMatches at matching
  rw [if_neg notRoot] at matching
  split at matching
  · next whole =>
    obtain ⟨start, rfl, same⟩ := dropPrefix?_eq_some_iff.mp whole
    left
    rw [append_nil]
    exact eq_of_beq same
  · next symbol rest cut =>
    obtain ⟨start, rfl, same⟩ := dropPrefix?_eq_some_iff.mp cut
    right
    have slash : symbol = '/' := by simpa [isSlash] using matching
    rw [eq_of_beq same, slash]
    exact ⟨rest, by simp⟩
  · cases matching

/-- `mount` ends where a component of `path` ends. -/
def AtBoundary (mount path : Text) : Prop :=
  mount = "/".toList ∧ mount <+: path ∨ path = mount ∨ mount ++ ['/'] <+: path

theorem AtBoundary.starts {mount : Text} (boundary : AtBoundary mount path) : mount <+: path := by
  rcases boundary with ⟨_, starts⟩ | rfl | below
  · exact starts
  · exact prefix_rfl
  · exact (prefix_append _ _).trans below

theorem drop_append (mount rest : Text) : (mount ++ rest).dropPrefix? mount = some rest :=
  dropPrefix?_eq_some_iff.mpr ⟨mount, rfl, by simp⟩

theorem matches_iff (mount path : Text) :
    prefixMatches mount path = true ↔ AtBoundary mount path := by
  by_cases root : mount = "/".toList
  · have whole : prefixMatches mount path = true ↔ mount <+: path := by simp [prefixMatches, root]
    exact whole.trans ⟨fun starts => .inl ⟨root, starts⟩, AtBoundary.starts⟩
  · refine ⟨fun matching => .inr (matches_boundary root matching), ?_⟩
    unfold prefixMatches
    rw [if_neg root]
    rintro (⟨same, _⟩ | rfl | ⟨rest, rfl⟩)
    · exact absurd same root
    · have cut := drop_append path []
      rw [append_nil] at cut
      rw [cut]
    · rw [append_assoc, drop_append]
      rfl

/-- Every other mount that matches is a part of the one that is picked. -/
theorem longest_boundary_picked (entries : List (Text × Target)) (path : Text) :
    (∀ target, resolveIdx entries path = some target →
      ∃ mount ∈ entries, mount.2 = target ∧ AtBoundary mount.1 path ∧
        ∀ other ∈ entries, AtBoundary other.1 path → other.1 <+: mount.1) ∧
    (resolveIdx entries path = none ↔ ∀ mount ∈ entries, ¬ AtBoundary mount.1 path) ∧
    ("/".toList <+: path → "/".toList ∈ entries.map Prod.fst →
      (resolveIdx entries path).isSome) := by
  rcases resolve_idx_cases entries path with ⟨nowhere, missed⟩ | ⟨mount, listed, found, here, longest⟩
  · have outside : ∀ mount ∈ entries, ¬ AtBoundary mount.1 path := by
      intro mount listed boundary
      rw [← matches_iff, missed mount listed] at boundary
      cases boundary
    refine ⟨by simp [nowhere], by simpa [nowhere] using outside, ?_⟩
    intro absolute mounted
    obtain ⟨root, listed, same⟩ := mem_map.mp mounted
    exact absurd (.inl ⟨same, same ▸ absolute⟩) (outside root listed)
  · rw [matches_iff] at here
    refine ⟨?_, ⟨by simp [found], fun none => absurd here (none mount listed)⟩, by simp [found]⟩
    intro target same
    refine ⟨mount, listed, Option.some.inj (found.symm.trans same), here, ?_⟩
    intro other known boundary
    exact prefix_of_prefix_length_le boundary.starts here.starts
      (longest other known ((matches_iff _ _).mpr boundary))

theorem resolve_disk {backend : Backend} (disk : backend ≠ .ram)
    (found : resolve path = some backend) :
    path = backend.mountPoint ∨ backend.mountPoint ++ ['/'] <+: path := by
  rcases resolve_idx_cases mounts path with ⟨none, _⟩ | ⟨⟨mount, owner⟩, listed, picked, matching, _⟩
  · cases none.symm.trans found
  cases picked.symm.trans found
  simp only [mounts, mem_cons, not_mem_nil, or_false] at listed
  rcases listed with ⟨rfl, rfl⟩ | ⟨rfl, rfl⟩ | ⟨rfl, rfl⟩ | ⟨rfl, rfl⟩ | ⟨rfl, rfl⟩ | ⟨rfl, rfl⟩
  · exact absurd rfl disk
  · exact absurd rfl disk
  all_goals exact matches_boundary (by decide) matching

end ViCell.Vfs
