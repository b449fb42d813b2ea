import Mathlib

/-!
# Radix tables in memory

Multi-level tables of eight-byte entries, as hardware walks them: an entry of
an upper table holds the address of a lower one, and the tables at full depth
hold the leaves. Any number of such trees live in one memory, each under a key;
a table is reached from a key's root by a path of indices. The one invariant is
that tables reached in different ways do not overlap. Under it, linking a fresh
zeroed table changes no leaf of any tree, and writing a leaf changes that leaf
only.
-/

namespace ViCell.Lib.RadixTable

open Function List Option Prod

/-- How a table is laid out: the address an entry points to, the number of
upper levels, and the entries of a table at each level. -/
structure Format (Word : Type) where
  zero : Word
  child : Word → Option Nat
  depth : Nat
  entries : Nat → Nat
  zero_child : child zero = none

def slot (table index : Nat) : Nat := table + 8 * index

section Walk

variable {Word Key : Type} (format : Format Word)

def follow (memory : Nat → Word) : Nat → List Nat → Option Nat
  | table, [] => some table
  | table, index :: rest =>
    (format.child (memory (slot table index))).bind (fun next => follow memory next rest)

def reach (memory : Nat → Word) (roots : Key → Option Nat) (key : Key) (path : List Nat) :
    Option Nat :=
  (roots key).bind (fun root => follow format memory root path)

def leafAt (memory : Nat → Word) (roots : Key → Option Nat) (key : Key) (path : List Nat)
    (index : Nat) : Word :=
  match reach format memory roots key path with
  | some table => memory (slot table index)
  | none => format.zero

def Fits (path : List Nat) : Prop :=
  path.length ≤ format.depth ∧
    ∀ level index, path[level]? = some index → index < format.entries level

/-- The bytes of a table that ends a path of this length. -/
def extent (path : List Nat) : Nat := 8 * format.entries path.length

/-- Tables reached differently are apart, and an upper entry is zero or points
to a table. -/
structure Forest (memory : Nat → Word) (roots : Key → Option Nat) : Prop where
  apart : ∀ leftKey left rightKey right first second, Fits format left → Fits format right →
    reach format memory roots leftKey left = some first →
    reach format memory roots rightKey right = some second →
    (leftKey, left) ≠ (rightKey, right) →
    first + extent format left ≤ second ∨ second + extent format right ≤ first
  clean : ∀ key path table index, Fits format path → path.length < format.depth →
    reach format memory roots key path = some table → index < format.entries path.length →
    memory (slot table index) = format.zero ∨ (format.child (memory (slot table index))).isSome

def zeroTable (page count : Nat) (memory : Nat → Word) : Nat → Word := fun place =>
  if page ≤ place ∧ place < page + 8 * count then format.zero else memory place

variable {format}

theorem follow_append (memory : Nat → Word) (root : Nat) (front rest : List Nat) :
    follow format memory root (front ++ rest) =
      (follow format memory root front).bind (fun table => follow format memory table rest) := by
  induction front generalizing root with
  | nil => rfl
  | cons first others ih =>
    simp only [cons_append, follow]
    cases format.child (memory (slot root first)) with
    | none => rfl
    | some next => exact ih next

theorem reach_append (memory : Nat → Word) (roots : Key → Option Nat) (key : Key)
    (front rest : List Nat) :
    reach format memory roots key (front ++ rest) =
      (reach format memory roots key front).bind
        (fun table => follow format memory table rest) := by
  unfold reach
  cases roots key with
  | none => rfl
  | some root => exact follow_append memory root front rest

theorem follow_one (memory : Nat → Word) (table index : Nat) :
    follow format memory table [index] = format.child (memory (slot table index)) :=
  bind_fun_some _

theorem reach_snoc (memory : Nat → Word) (roots : Key → Option Nat) (key : Key)
    (path : List Nat) (index : Nat) :
    reach format memory roots key (path ++ [index]) =
      (reach format memory roots key path).bind
        (fun table => format.child (memory (slot table index))) := by
  simp only [reach_append, follow_one]

theorem fits_nil : Fits format [] := by
  refine ⟨Nat.zero_le _, ?_⟩
  intro level index found
  cases found

theorem fits_snoc {path : List Nat} {index : Nat} : Fits format (path ++ [index]) ↔
      Fits format path ∧ path.length < format.depth ∧ index < format.entries path.length := by
  unfold Fits
  rw [length_append, length_singleton]
  constructor
  · rintro ⟨short, bounded⟩
    refine ⟨⟨by omega, ?_⟩, by omega, ?_⟩
    · intro level value found
      apply bounded level value
      rw [List.getElem?_append_left (List.getElem?_eq_some_iff.mp found).1]
      exact found
    · apply bounded path.length index
      simp
  · rintro ⟨⟨short, bounded⟩, room, last⟩
    refine ⟨by omega, ?_⟩
    intro level value found
    by_cases earlier : level < path.length
    · rw [getElem?_append_left earlier] at found
      exact bounded level value found
    · have place := (List.getElem?_eq_some_iff.mp found).1
      rw [List.length_append, List.length_singleton] at place
      have same : level = path.length := by omega
      subst same
      simp at found
      omega

theorem slot_inside (path : List Nat) (table : Nat) {index : Nat}
    (bounded : index < format.entries path.length) :
    table ≤ slot table index ∧ slot table index < table + extent format path := by
  unfold slot extent
  omega

theorem slot_injective {table i j : Nat} (same : slot table i = slot table j) : i = j := by
  unfold slot at same
  omega

theorem slot_ne {memory : Nat → Word} {roots : Key → Option Nat}
    (forest : Forest format memory roots) {leftKey rightKey : Key}
    {left right : List Nat} {first second i j : Nat}
    (leftFits : Fits format left) (rightFits : Fits format right)
    (atLeft : reach format memory roots leftKey left = some first)
    (atRight : reach format memory roots rightKey right = some second)
    (leftIndex : i < format.entries left.length) (rightIndex : j < format.entries right.length)
    (ne : (leftKey, left) ≠ (rightKey, right)) : slot first i ≠ slot second j := by
  have inLeft := slot_inside left first leftIndex
  have inRight := slot_inside right second rightIndex
  have apart := forest.apart leftKey left rightKey right first second leftFits rightFits
    atLeft atRight ne
  omega

theorem reach_congr {memory changed : Nat → Word} {roots newRoots : Key → Option Nat} {key : Key}
    {path : List Nat} (sameRoot : newRoots key = roots key) (fits : Fits format path)
    (agree : ∀ front last table, front ++ [last] <+: path → Fits format (front ++ [last]) →
      reach format memory roots key front = some table →
      changed (slot table last) = memory (slot table last)) :
    reach format changed newRoots key path = reach format memory roots key path := by
  induction path using reverseRecOn with
  | nil =>
    unfold reach
    rw [sameRoot]
    rfl
  | append_singleton front last ih =>
    have was := ih (fits_snoc.mp fits).1 (fun other index table earlier =>
      agree other index table (earlier.trans (prefix_append _ _)))
    rw [reach_snoc, reach_snoc, was]
    cases found : reach format memory roots key front with
    | none => rfl
    | some table =>
      rw [bind_some, bind_some, agree front last table prefix_rfl fits found]

end Walk

section Link

variable {Word Key : Type} {format : Format Word} {memory : Nat → Word}
variable {roots : Key → Option Nat} {key : Key}
variable {path : List Nat} {table index page : Nat} {word : Word}

def Fresh (format : Format Word) (memory : Nat → Word) (roots : Key → Option Nat)
    (page count : Nat) : Prop :=
  ∀ key path place, Fits format path → reach format memory roots key path = some place →
    page + 8 * count ≤ place ∨ place + extent format path ≤ page

def link (format : Format Word) (memory : Nat → Word) (page count place : Nat) (word : Word) :
    Nat → Word :=
  update (zeroTable format page count memory) place word

variable {place : Nat}

theorem link_elsewhere {count other : Nat} (notSlot : other ≠ place)
    (outside : other < page ∨ page + 8 * count ≤ other) :
    link format memory page count place word other = memory other := by
  unfold link zeroTable
  rw [update_of_ne notSlot, if_neg (by omega)]

/-- The situation in which a missing table is linked. -/
structure Missing (format : Format Word) (memory : Nat → Word) (roots : Key → Option Nat)
    (key : Key) (path : List Nat) (table index page : Nat) (word : Word) : Prop where
  forest : Forest format memory roots
  fits : Fits format (path ++ [index])
  parent : reach format memory roots key path = some table
  empty : format.child (memory (slot table index)) = none
  fresh : Fresh format memory roots page (format.entries (path.length + 1))
  pointer : format.child word = some page

abbrev linked (format : Format Word) (memory : Nat → Word) (path : List Nat)
    (table index page : Nat) (word : Word) : Nat → Word :=
  link format memory page (format.entries (path.length + 1)) (slot table index) word

variable {other : List Nat}

/-- One more table, zeroed and apart from all others, keeps a forest a forest. -/
theorem forest_grown {changed : Nat → Word} {newRoots : Key → Option Nat} (key : Key)
    (newPath : List Nat) (forest : Forest format memory roots)
    (fresh : Fresh format memory roots page (format.entries newPath.length))
    (origin : ∀ otherKey other place, Fits format other →
      reach format changed newRoots otherKey other = some place →
      ((otherKey, other) = (key, newPath) ∧ place = page) ∨ ((otherKey, other) ≠ (key, newPath) ∧
          reach format memory roots otherKey other = some place))
    (zeroed : ∀ pos, pos < format.entries newPath.length → changed (slot page pos) = format.zero)
    (old : ∀ otherKey other place pos, Fits format other →
      reach format memory roots otherKey other = some place →
      pos < format.entries other.length →
      changed (slot place pos) = memory (slot place pos) ∨
        (format.child (changed (slot place pos))).isSome) :
    Forest format changed newRoots := by
  refine ⟨?_, ?_⟩
  · intro leftKey left rightKey right first second leftFits rightFits atLeft atRight ne
    rcases origin leftKey left first leftFits atLeft with ⟨leftNew, firstNew⟩ | ⟨_, firstOld⟩
    · rcases origin rightKey right second rightFits atRight with
        ⟨rightNew, _⟩ | ⟨_, secondOld⟩
      · exact absurd (leftNew.trans rightNew.symm) ne
      · rw [(mk.inj leftNew).2, firstNew]
        exact fresh rightKey right second rightFits secondOld
    · rcases origin rightKey right second rightFits atRight with
        ⟨rightNew, secondNew⟩ | ⟨_, secondOld⟩
      · rw [(mk.inj rightNew).2, secondNew]
        exact (fresh leftKey left first leftFits firstOld).symm
      · exact forest.apart leftKey left rightKey right first second leftFits rightFits
          firstOld secondOld ne
  · intro otherKey other place pos otherFits upper found bounded
    rcases origin otherKey other place otherFits found with ⟨isNew, samePage⟩ | ⟨_, was⟩
    · left
      rw [(mk.inj isNew).2] at bounded
      rw [samePage]
      exact zeroed pos bounded
    · rcases old otherKey other place pos otherFits was bounded with same | pointer
      · rw [same]
        exact forest.clean otherKey other place pos otherFits upper was bounded
      · exact .inr pointer

section

variable (gone : Missing format memory roots key path table index page word)
include gone

theorem reach_below_missing (through : path ++ [index] <+: other) :
    reach format memory roots key other = none := by
  obtain ⟨_, rfl⟩ := through
  rw [reach_append, reach_snoc, gone.parent, bind_some, gone.empty]
  rfl

theorem link_old {otherKey : Key} {pos : Nat} (otherFits : Fits format other)
    (found : reach format memory roots otherKey other = some place)
    (bounded : pos < format.entries other.length)
    (ne : (otherKey, other ++ [pos]) ≠ (key, path ++ [index])) :
    linked format memory path table index page word (slot place pos) = memory (slot place pos) := by
  obtain ⟨pathFits, _, indexFits⟩ := fits_snoc.mp gone.fits
  have apart := gone.fresh otherKey other place otherFits found
  have inside := slot_inside other place bounded
  apply link_elsewhere _ (by omega)
  by_cases sameTable : (otherKey, other) = (key, path)
  · obtain ⟨rfl, rfl⟩ := mk.inj sameTable
    rw [gone.parent] at found
    cases found
    intro sameSlot
    rw [slot_injective sameSlot] at ne
    exact ne rfl
  · exact slot_ne gone.forest otherFits pathFits found gone.parent bounded indexFits
      sameTable

theorem link_new {pos : Nat} (bounded : pos < format.entries (path.length + 1)) :
    linked format memory path table index page word (slot page pos) = format.zero := by
  obtain ⟨pathFits, _, indexFits⟩ := fits_snoc.mp gone.fits
  have apart := gone.fresh key path table pathFits gone.parent
  have atSlot := slot_inside path table indexFits
  have ne : slot page pos ≠ slot table index := by
    unfold slot at atSlot ⊢
    omega
  unfold linked link zeroTable
  rw [update_of_ne ne, if_pos (by unfold slot; omega)]

theorem reach_link_other {otherKey : Key} (otherFits : Fits format other)
    (outside : ¬ (otherKey = key ∧ path ++ [index] <+: other)) :
    reach format (linked format memory path table index page word) roots otherKey other =
      reach format memory roots otherKey other := by
  apply reach_congr rfl otherFits
  intro front last place earlier fits found
  obtain ⟨frontFits, _, lastFits⟩ := fits_snoc.mp fits
  apply link_old gone frontFits found lastFits
  intro same
  obtain ⟨sameKey, samePath⟩ := mk.inj same
  exact outside ⟨sameKey, samePath ▸ earlier⟩

theorem reach_link_new :
    reach format (linked format memory path table index page word) roots key (path ++ [index]) =
      some page := by
  have outside : ¬ (key = key ∧ path ++ [index] <+: path) := by
    rintro ⟨-, longer⟩
    have lengths := longer.length_le
    rw [length_append, length_singleton] at lengths
    omega
  have written : linked format memory path table index page word (slot table index) = word :=
    update_self ..
  rw [reach_snoc, reach_link_other gone (fits_snoc.mp gone.fits).1 outside, gone.parent,
    bind_some, written]
  exact gone.pointer

theorem reach_link_kept {otherKey : Key} (otherFits : Fits format other)
    (found : reach format memory roots otherKey other = some place) :
    reach format (linked format memory path table index page word) roots otherKey other =
      some place := by
  rw [reach_link_other gone otherFits]
  · exact found
  · rintro ⟨rfl, through⟩
    rw [reach_below_missing gone through] at found
    cases found

theorem reach_link_cases {otherKey : Key} (otherFits : Fits format other) (found :
      reach format (linked format memory path table index page word) roots otherKey other =
        some place) :
    ((otherKey, other) = (key, path ++ [index]) ∧ place = page) ∨
      ((otherKey, other) ≠ (key, path ++ [index]) ∧
        reach format memory roots otherKey other = some place) := by
  by_cases through : otherKey = key ∧ path ++ [index] <+: other
  · obtain ⟨rfl, rest, rfl⟩ := through
    rw [reach_append, reach_link_new gone, bind_some] at found
    cases rest with
    | nil =>
      cases found
      exact .inl ⟨by rw [append_nil], rfl⟩
    | cons first others =>
      -- the new table is empty
      have bounded := otherFits.2 (path ++ [index]).length first (by simp)
      rw [length_append] at bounded
      rw [follow, link_new gone bounded, format.zero_child] at found
      cases found
  · rw [reach_link_other gone otherFits through] at found
    refine .inr ⟨?_, found⟩
    intro same
    obtain ⟨sameKey, samePath⟩ := mk.inj same
    exact through ⟨sameKey, samePath ▸ prefix_rfl⟩

theorem forest_link : Forest format (linked format memory path table index page word) roots := by
  have size : (path ++ [index]).length = path.length + 1 := by simp
  apply forest_grown key (path ++ [index]) gone.forest
  · rw [size]
    exact gone.fresh
  · exact fun _ _ _ fits found => reach_link_cases gone fits found
  · intro pos bounded
    rw [size] at bounded
    exact link_new gone bounded
  · intro otherKey other place pos otherFits found bounded
    by_cases here : (otherKey, other ++ [pos]) = (key, path ++ [index])
    · right
      obtain ⟨rfl, samePath⟩ := mk.inj here
      obtain ⟨rfl, sameIndex⟩ := append_inj' samePath rfl
      cases sameIndex
      rw [gone.parent] at found
      cases found
      unfold linked link
      rw [update_self, gone.pointer]
      rfl
    · exact .inl (link_old gone otherFits found bounded here)

theorem leaf_link (otherKey : Key) {position : Nat} (otherFits : Fits format other)
    (full : other.length = format.depth) (bounded : position < format.entries other.length) :
    leafAt format (linked format memory path table index page word) roots otherKey other position =
      leafAt format memory roots otherKey other position := by
  have shallow := (fits_snoc.mp gone.fits).2.1
  unfold leafAt
  cases was : reach format memory roots otherKey other with
  | some =>
    rw [reach_link_kept gone otherFits was]
    apply link_old gone otherFits was bounded
    intro same
    have lengths := congrArg length (mk.inj same).2
    rw [length_append, length_append, length_singleton, length_singleton] at lengths
    omega
  | none =>
    cases now : reach format (linked format memory path table index page word) roots otherKey
      other with
    | none => rfl
    | some place =>
      rcases reach_link_cases gone otherFits now with ⟨isNew, samePage⟩ | ⟨_, old⟩
      · rw [(mk.inj isNew).2, length_append] at bounded
        rw [samePage]
        exact link_new gone bounded
      · rw [was] at old
        cases old

end

end Link

section Root

variable {Word Key : Type} [DecidableEq Key] {format : Format Word} {memory : Nat → Word}
variable {roots : Key → Option Nat} {key : Key} {page : Nat}

variable {other : List Nat}

section

variable (fresh : Fresh format memory roots page (format.entries 0))
include fresh

omit [DecidableEq Key] in
theorem zero_old {otherKey : Key} {place pos : Nat} (otherFits : Fits format other)
    (found : reach format memory roots otherKey other = some place)
    (bounded : pos < format.entries other.length) :
    zeroTable format page (format.entries 0) memory (slot place pos) = memory (slot place pos) := by
  have apart := fresh otherKey other place otherFits found
  have inside := slot_inside other place bounded
  exact if_neg (by omega)

theorem reach_root_other {otherKey : Key} (ne : otherKey ≠ key) (otherFits : Fits format other) :
    reach format (zeroTable format page (format.entries 0) memory)
        (update roots key (some page)) otherKey other =
      reach format memory roots otherKey other := by
  apply reach_congr (update_of_ne ne _ _) otherFits
  intro front last place _ fits found
  obtain ⟨frontFits, _, lastFits⟩ := fits_snoc.mp fits
  exact zero_old fresh frontFits found lastFits

theorem reach_root_cases {otherKey : Key} {place : Nat} (otherFits : Fits format other)
    (found : reach format (zeroTable format page (format.entries 0) memory)
      (update roots key (some page)) otherKey other = some place) :
    ((otherKey, other) = (key, []) ∧ place = page) ∨
      (otherKey ≠ key ∧ reach format memory roots otherKey other = some place) := by
  by_cases same : otherKey = key
  · subst same
    unfold reach at found
    rw [update_self, bind_some] at found
    cases other with
    | nil =>
      cases found
      exact .inl ⟨rfl, rfl⟩
    | cons first rest =>
      -- the new root is empty
      have bounded := otherFits.2 0 first rfl
      have zeroed : zeroTable format page (format.entries 0) memory (slot page first) =
          format.zero := if_pos (slot_inside [] page bounded)
      rw [follow, zeroed, format.zero_child] at found
      cases found
  · rw [reach_root_other fresh same otherFits] at found
    exact .inr ⟨same, found⟩

theorem forest_root (forest : Forest format memory roots) :
    Forest format (zeroTable format page (format.entries 0) memory)
      (update roots key (some page)) := by
  apply forest_grown key [] forest fresh
  · intro otherKey other place fits found
    rcases reach_root_cases fresh fits found with new | ⟨ne, old⟩
    · exact .inl new
    · exact .inr ⟨fun same => ne (mk.inj same).1, old⟩
  · intro pos bounded
    exact if_pos (slot_inside [] page bounded)
  · intro otherKey other place pos otherFits found bounded
    exact .inl (zero_old fresh otherFits found bounded)

theorem leaf_root (key : Key)
    (deep : 0 < format.depth) (otherKey : Key) {position : Nat} (otherFits : Fits format other)
    (full : other.length = format.depth) (bounded : position < format.entries other.length) :
    leafAt format (zeroTable format page (format.entries 0) memory)
        (update roots key (some page)) otherKey other position =
      if otherKey = key then format.zero
      else leafAt format memory roots otherKey other position := by
  unfold leafAt
  by_cases same : otherKey = key
  · rw [if_pos same]
    split
    next place found =>
      rcases reach_root_cases fresh otherFits found with ⟨isNew, _⟩ | ⟨ne, _⟩
      · rw [(mk.inj isNew).2, length_nil] at full
        omega
      · exact absurd same ne
    next => rfl
  · rw [if_neg same, reach_root_other fresh same otherFits]
    cases found : reach format memory roots otherKey other with
    | none => rfl
    | some => exact zero_old fresh otherFits found bounded

end

omit [DecidableEq Key] in
theorem forest_forget {fewer : Key → Option Nat} (forest : Forest format memory roots)
    (fewerRoots : ∀ key root, fewer key = some root → roots key = some root) :
    Forest format memory fewer := by
  have back : ∀ {otherKey other place}, reach format memory fewer otherKey other = some place →
      reach format memory roots otherKey other = some place := by
    intro otherKey other place found
    unfold reach at found ⊢
    obtain ⟨root, atRoot, walk⟩ := bind_eq_some_iff.mp found
    rw [fewerRoots otherKey root atRoot]
    exact walk
  refine ⟨?_, ?_⟩
  · intro leftKey left rightKey right first second leftFits rightFits atLeft atRight ne
    exact forest.apart leftKey left rightKey right first second leftFits rightFits
      (back atLeft) (back atRight) ne
  · intro otherKey other place pos otherFits upper found bounded
    exact forest.clean otherKey other place pos otherFits upper (back found) bounded

end Root

section Leaf

variable {Word Key : Type} {format : Format Word} {memory : Nat → Word}
variable {roots : Key → Option Nat} {key : Key} {path : List Nat} {table index : Nat}

/-- A table at full depth and one of its slots. -/
structure LeafSlot (format : Format Word) (memory : Nat → Word) (roots : Key → Option Nat)
    (key : Key) (path : List Nat) (table index : Nat) : Prop where
  forest : Forest format memory roots
  fits : Fits format path
  full : path.length = format.depth
  here : reach format memory roots key path = some table
  bounded : index < format.entries path.length

section

variable (leaf : LeafSlot format memory roots key path table index)
include leaf

theorem LeafSlot.slot_ne {otherKey : Key} {other : List Nat} {place pos : Nat}
    (otherFits : Fits format other) (upper : other.length < format.depth)
    (found : reach format memory roots otherKey other = some place)
    (bounded : pos < format.entries other.length) :
    slot place pos ≠ slot table index := by
  have full := leaf.full
  apply RadixTable.slot_ne leaf.forest otherFits leaf.fits found leaf.here bounded leaf.bounded
  intro same
  rw [(mk.inj same).2] at upper
  omega

theorem reach_write_leaf
    (word : Word) (otherKey : Key) {other : List Nat} (otherFits : Fits format other) :
    reach format (update memory (slot table index) word) roots otherKey other =
      reach format memory roots otherKey other := by
  apply reach_congr rfl otherFits
  intro front last place _ fits found
  obtain ⟨frontFits, shallow, lastFits⟩ := fits_snoc.mp fits
  exact update_of_ne (leaf.slot_ne frontFits shallow found lastFits) _ _

theorem forest_write_leaf
    (word : Word) : Forest format (update memory (slot table index) word) roots := by
  refine ⟨?_, ?_⟩
  · intro leftKey left rightKey right first second leftFits rightFits atLeft atRight ne
    rw [reach_write_leaf leaf word leftKey leftFits] at atLeft
    rw [reach_write_leaf leaf word rightKey rightFits] at atRight
    exact leaf.forest.apart leftKey left rightKey right first second leftFits rightFits
      atLeft atRight ne
  · intro otherKey other place pos otherFits upper found inside
    rw [reach_write_leaf leaf word otherKey otherFits] at found
    rw [update_of_ne (leaf.slot_ne otherFits upper found inside)]
    exact leaf.forest.clean otherKey other place pos otherFits upper found inside

theorem leaf_write_leaf [DecidableEq Key] (word : Word)
    (otherKey : Key) {other : List Nat} {position : Nat} (otherFits : Fits format other)
    (otherBounded : position < format.entries other.length) :
    leafAt format (update memory (slot table index) word) roots otherKey other position =
      if otherKey = key ∧ other = path ∧ position = index then word
      else leafAt format memory roots otherKey other position := by
  unfold leafAt
  rw [reach_write_leaf leaf word otherKey otherFits]
  by_cases same : otherKey = key ∧ other = path ∧ position = index
  · rw [if_pos same, same.1, same.2.1, same.2.2, leaf.here]
    exact update_self ..
  · rw [if_neg same]
    cases found : reach format memory roots otherKey other with
    | none => rfl
    | some place =>
      have ne : slot place position ≠ slot table index := by
        by_cases sameTable : (otherKey, other) = (key, path)
        · have parts := mk.inj sameTable
          rw [parts.1, parts.2, leaf.here] at found
          have samePlace : table = place := some.inj found
          subst samePlace
          intro sameSlot
          exact same ⟨parts.1, parts.2, slot_injective sameSlot⟩
        · exact slot_ne leaf.forest otherFits leaf.fits found leaf.here otherBounded
            leaf.bounded sameTable
      simp only
      rw [update_of_ne ne]

end

end Leaf

end ViCell.Lib.RadixTable
