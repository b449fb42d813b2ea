import Mathlib

/-!
# Lists that enumerate a predicate

`Enumerates items holds` says that a list contains exactly the values a
predicate holds of, each once.  It is the natural invariant of a work queue
whose membership is also recorded on the items themselves, and the rules below
cover the ways such a queue changes: reordering, growth by newly eligible
items, removal of the head and removal of one item everywhere.
-/

namespace ViCell.Lib

open List

variable {Item : Type}

def Enumerates (items : List Item) (holds : Item → Prop) : Prop :=
  items.Nodup ∧ ∀ item, item ∈ items ↔ holds item

namespace Enumerates

variable {items others : List Item} {holds : Item → Prop}

theorem of_perm (enumerates : Enumerates items holds) (perm : others.Perm items) :
    Enumerates others holds := by
  constructor
  · exact perm.nodup_iff.mpr enumerates.1
  · intro item
    rw [perm.mem_iff]
    exact enumerates.2 item

variable {other : Item → Prop}

section

variable (enumerates : Enumerates items holds)
include enumerates

theorem congr (same : ∀ item, other item ↔ holds item) : Enumerates items other := by
  constructor
  · exact enumerates.1
  · intro item
    rw [same item]
    exact enumerates.2 item

/-- Newly eligible items may be added when none of them was eligible before. -/
theorem grow (added : List Item) (perm : others.Perm (added ++ items)) (ne : added.Nodup)
    (disjoint : ∀ item ∈ added, ¬ holds item)
    (same : ∀ item, other item ↔ item ∈ added ∨ holds item) : Enumerates others other := by
  refine of_perm ?_ perm
  constructor
  · rw [nodup_append']
    refine ⟨ne, enumerates.1, ?_⟩
    intro item inAdded inItems
    exact disjoint item inAdded ((enumerates.2 item).mp inItems)
  · intro item
    rw [mem_append, enumerates.2 item, same item]

theorem not_grow_of_holds {item : Item} (perm : others.Perm (item :: items)) (already : holds item) :
    ¬ Enumerates others other := by
  intro grown
  have ne : (item :: items).Nodup := perm.nodup_iff.mp grown.1
  have has : item ∈ items := (enumerates.2 item).mpr already
  exact (nodup_cons.mp ne).1 has

theorem shrink {rest : List Item} {head : Item} (perm : items.Perm (head :: rest))
    (same : ∀ item, other item ↔ holds item ∧ item ≠ head) : Enumerates rest other := by
  have split : Enumerates (head :: rest) holds := enumerates.of_perm perm.symm
  have ne := nodup_cons.mp split.1
  constructor
  · exact ne.2
  · intro item
    rw [same item, ← split.2 item, mem_cons]
    constructor
    · intro has
      refine ⟨Or.inr has, ?_⟩
      rintro rfl
      exact ne.1 has
    · rintro ⟨rfl | has, differs⟩
      · exact absurd rfl differs
      · exact has

theorem remove [DecidableEq Item] {gone : Item}
    (same : ∀ item, other item ↔ holds item ∧ item ≠ gone) :
    Enumerates (items.filter (fun item => item ≠ gone)) other := by
  constructor
  · exact enumerates.1.filter _
  · intro item
    rw [same item, mem_filter, enumerates.2 item, decide_eq_true_eq]

end

end Enumerates

end ViCell.Lib
