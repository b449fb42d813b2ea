import Mathlib

/-!
# Entries of ordered maps

Insertion and removal in `Std.TreeMap`, seen on the list of entries up to order.
-/

namespace ViCell.Lib.TreeMaps

open List Std.TreeMap

variable {Key Value : Type} {cmp : Key → Key → Ordering} [Std.TransCmp cmp] [Std.LawfulEqCmp cmp]
variable {table : Std.TreeMap Key Value cmp} {key : Key} {value : Value}

omit [Std.LawfulEqCmp cmp] in
theorem entries_nodup (table : Std.TreeMap Key Value cmp) : table.toList.Nodup := by
  apply List.Pairwise.imp _ table.distinct_keys_toList
  intro left right ne same
  rw [same] at ne
  exact ne Std.ReflCmp.compare_self

theorem mem_entries_iff {entry : Key × Value} :
    entry ∈ table.toList ↔ table[entry.1]? = some entry.2 :=
  mem_toList_iff_getElem?_eq_some

theorem get_erase_eq_some {other : Key} {found : Value} :
    (table.erase key)[other]? = some found ↔ other ≠ key ∧ table[other]? = some found := by
  rw [getElem?_erase]
  by_cases same : key = other
  · simp [same]
  · simp [same, Ne.symm same]

theorem get_insert_eq_some {other : Key} {found : Value} :
    (table.insert key value)[other]? = some found ↔
      (other = key ∧ value = found) ∨ (other ≠ key ∧ table[other]? = some found) := by
  rw [Std.TreeMap.getElem?_insert]
  by_cases same : key = other
  · simp [same]
  · simp [same, Ne.symm same]

theorem entries_split {rest : Std.TreeMap Key Value cmp} (found : table[key]? = some value)
    (others : ∀ other entry, rest[other]? = some entry ↔ other ≠ key ∧ table[other]? = some entry) :
    table.toList.Perm ((key, value) :: rest.toList) := by
  have notThere : (key, value) ∉ rest.toList := by
    rw [mem_entries_iff, others]
    exact fun found => found.1 rfl
  rw [perm_ext_iff_of_nodup (entries_nodup _)
    (nodup_cons.mpr ⟨notThere, entries_nodup _⟩)]
  rintro ⟨other, entry⟩
  rw [mem_cons, mem_entries_iff, mem_entries_iff, others]
  by_cases same : other = key
  · simp only
    rw [same, found]
    simp [eq_comm]
  · simp [same]

theorem erase_entries (found : table[key]? = some value) :
    table.toList.Perm ((key, value) :: (table.erase key).toList) :=
  entries_split found (fun _ _ => get_erase_eq_some)

theorem insert_entries (table : Std.TreeMap Key Value cmp) (key : Key) (value : Value) :
    (table.insert key value).toList.Perm ((key, value) :: (table.erase key).toList) := by
  apply entries_split getElem?_insert_self
  intro other entry
  rw [get_erase_eq_some, get_insert_eq_some]
  tauto

theorem erase_missing (gone : table[key]? = none) : (table.erase key).toList.Perm table.toList := by
  rw [perm_ext_iff_of_nodup (entries_nodup _) (entries_nodup _)]
  rintro ⟨other, entry⟩
  rw [mem_entries_iff, mem_entries_iff, get_erase_eq_some]
  constructor
  · exact fun found => found.2
  · intro found
    refine ⟨?_, found⟩
    intro same
    rw [same, gone] at found
    cases found

theorem get_filter_eq_some {keep : Key → Value → Bool} :
    (table.filter keep)[key]? = some value ↔ table[key]? = some value ∧ keep key value = true := by
  have filtered : (key, value) ∈ (table.filter keep).toList ↔
      (key, value) ∈ table.toList ∧ keep key value = true := by
    rw [toList_filter, mem_filter]
  rw [mem_entries_iff, mem_entries_iff] at filtered
  exact filtered

/-- No value with a mark is left after those with one mark were taken out: it was
that mark, or there was none before. -/
theorem none_marked_iff {Mark : Type} [DecidableEq Mark] (mark : Value → Mark) (gone wanted : Mark) :
    (∀ (key : Key) (value : Value),
        (table.filter (fun _ value => mark value ≠ gone))[key]? = some value →
          mark value ≠ wanted) ↔
      gone = wanted ∨
        ∀ (key : Key) (value : Value), table[key]? = some value → mark value ≠ wanted := by
  simp only [get_filter_eq_some, decide_eq_true_eq]
  constructor
  · intro rest
    by_cases same : gone = wanted
    · exact .inl same
    · right
      intro key value found isWanted
      exact rest key value ⟨found, fun isGone => same (isGone.symm.trans isWanted)⟩ isWanted
  · rintro (same | none) key value ⟨found, kept⟩
    · rw [← same]
      exact kept
    · exact none key value found

end ViCell.Lib.TreeMaps
