import Mathlib

/-!
# Bitmaps stored in machine words

A list of words of one width is read as an infinite bit sequence: index `i`
is bit `i % width` of word `i / width`, and a missing word reads as zero.
The operations are the ones written with a one-bit mask, and the scan is the
usual search for a clear bit that steps over words with every bit set.
-/

namespace ViCell.Lib.WordBitmap

open List

section Words

variable {width : Nat}

def bit (words : List (BitVec width)) (index : Nat) : Bool :=
  (words.getD (index / width) 0).getLsbD (index % width)

def mask (width index : Nat) : BitVec width := BitVec.ofNat width 1 <<< (index % width)

def setBit (words : List (BitVec width)) (index : Nat) : List (BitVec width) :=
  words.modify (index / width) (fun block => block ||| mask width index)

def clearBit (words : List (BitVec width)) (index : Nat) : List (BitVec width) :=
  words.modify (index / width) (fun block => block &&& ~~~ mask width index)

def setRange (words : List (BitVec width)) (start : Nat) : Nat → List (BitVec width)
  | 0 => words
  | count + 1 => setBit (setRange words start count) (start + count)

/-- Search for a clear bit below `limit`; a full word is left in one jump.
Each round moves forward, so `limit - index` rounds are enough. -/
def firstClear (words : List (BitVec width)) (limit : Nat) : Nat → Nat → Option Nat
  | 0, _ => none
  | rounds + 1, index =>
    if index < limit then
      let block := words.getD (index / width) 0
      if block = BitVec.allOnes width then
        firstClear words limit rounds ((index / width + 1) * width)
      else if block &&& mask width index = 0 then
        some index
      else
        firstClear words limit rounds (index + 1)
    else none

@[simp]
theorem length_set_bit (words : List (BitVec width)) (index : Nat) :
    (setBit words index).length = words.length := by
  simp [setBit]

@[simp]
theorem length_clear_bit (words : List (BitVec width)) (index : Nat) :
    (clearBit words index).length = words.length := by
  simp [clearBit]

@[simp]
theorem length_set_range (words : List (BitVec width)) (start count : Nat) :
    (setRange words start count).length = words.length := by
  induction count with
  | zero => rfl
  | succ count ih =>
    simp only [setRange, length_set_bit]
    exact ih

@[simp]
theorem bit_replicate_zero (count index : Nat) :
    bit (replicate count (0 : BitVec width)) index = false := by
  have zero : (replicate count (0 : BitVec width)).getD (index / width) 0 = 0 := by
    rw [getD_eq_getElem?_getD, getElem?_replicate]
    split <;> rfl
  unfold bit
  rw [zero]
  exact BitVec.getLsbD_zero

/-- A write to one word, read back at any word; outside the list the write is
lost, which is only visible where it would not have written zero. -/
theorem word_modify (words : List (BitVec width)) (change : BitVec width → BitVec width)
    (position : Nat) {read : Nat}
    (kept : position < words.length ∨ change 0 = 0) :
    (words.modify position change).getD read 0 =
      if position = read then change (words.getD read 0) else words.getD read 0 := by
  rw [getD_eq_getElem?_getD, getElem?_modify, getD_eq_getElem?_getD]
  by_cases same : position = read
  · subst same
    cases has : words[position]? with
    | none =>
      have outside : words.length ≤ position := getElem?_eq_none_iff.mp has
      have zero : change 0 = 0 := kept.resolve_left (by omega)
      simpa using zero.symm
    | some => simp
  · cases words[read]? <;> simp [same]

theorem same_position {left right : Nat} (sameWord : left / width = right / width) :
    left % width = right % width ↔ left = right := by
  constructor
  · intro sameOffset
    rw [← Nat.div_add_mod left width, ← Nat.div_add_mod right width, sameWord, sameOffset]
  · intro same
    rw [same]

/-- A scan from `start`: the bits passed are set, and the result is clear and in range. -/
def Scanned (words : List (BitVec width)) (limit start : Nat) (result : Option Nat) : Prop :=
  (∀ found, result = some found → start ≤ found ∧ found < limit ∧ bit words found = false) ∧
    ∀ index, start ≤ index → index < result.getD limit → bit words index = true

variable {words : List (BitVec width)} {limit start : Nat}

theorem Scanned.finish (past : limit ≤ start) : Scanned words limit start none :=
  ⟨fun _ hit => (by cases hit), fun _ above was => absurd (past.trans above) (Nat.not_le.mpr was)⟩

theorem Scanned.skip {next : Nat} {result : Option Nat} (scanned : Scanned words limit next result)
    (forward : start < next)
    (passed : ∀ index, start ≤ index → index < next → bit words index = true) :
    Scanned words limit start result := by
  refine ⟨?_, ?_⟩
  · intro found hit
    have clear := scanned.1 found hit
    exact ⟨by omega, clear.2⟩
  · intro index above was
    by_cases later : next ≤ index
    · exact scanned.2 index later was
    · exact passed index above (by omega)

end Words

section PositiveWidth

variable {width : Nat} (pos : 0 < width)

include pos

theorem mask_bit (index offset : Nat) :
    (mask width index).getLsbD offset = decide (offset = index % width) := by
  have inside : index % width < width := Nat.mod_lt index pos
  unfold mask
  rw [← BitVec.twoPow_eq]
  by_cases same : index % width = offset
  · subst same
    simp [inside]
  · simp [same, Ne.symm same]

theorem mask_clear (block : BitVec width) (index : Nat) :
    block &&& mask width index = 0 ↔ block.getLsbD (index % width) = false := by
  constructor
  · intro clear
    have read := congrArg (fun bits => bits.getLsbD (index % width)) clear
    simpa [BitVec.getLsbD_and, mask_bit pos] using read
  · intro clear
    apply BitVec.eq_of_getLsbD_eq
    intro offset _
    rw [BitVec.getLsbD_and, mask_bit pos]
    by_cases same : offset = index % width
    · simp [same, clear]
    · simp [same]

theorem bit_of_full {words : List (BitVec width)} {index tested : Nat}
    (full : words.getD (index / width) 0 = BitVec.allOnes width)
    (sameWord : tested / width = index / width) : bit words tested = true := by
  have offset : tested % width < width := Nat.mod_lt tested pos
  unfold bit
  rw [sameWord, full]
  simp [offset]

section

variable (words : List (BitVec width))
include words

theorem bit_set_bit {index : Nat} (stored : index / width < words.length) (tested : Nat) :
    bit (setBit words index) tested = (bit words tested || decide (tested = index)) := by
  unfold bit setBit
  rw [word_modify words _ _ (Or.inl stored)]
  by_cases sameWord : index / width = tested / width
  · have sameIndex := same_position sameWord.symm
    rw [if_pos sameWord]
    simp only [BitVec.getLsbD_or, mask_bit pos, sameIndex]
  · have ne : tested ≠ index := fun same => sameWord (by rw [same])
    rw [if_neg sameWord]
    simp [ne]

theorem bit_clear_bit (index tested : Nat) :
    bit (clearBit words index) tested = (bit words tested && decide (tested ≠ index)) := by
  unfold bit clearBit
  have zero : (fun block : BitVec width => block &&& ~~~ mask width index) 0 = 0 := BitVec.zero_and
  rw [word_modify words _ _ (Or.inr zero)]
  by_cases sameWord : index / width = tested / width
  · have offset : tested % width < width := Nat.mod_lt tested pos
    have sameIndex := same_position sameWord.symm
    rw [if_pos sameWord]
    simp only [BitVec.getLsbD_and, BitVec.getLsbD_not, mask_bit pos, sameIndex, offset,
      decide_true, Bool.true_and, decide_not]
  · have ne : tested ≠ index := fun same => sameWord (by rw [same])
    rw [if_neg sameWord]
    simp [ne]

theorem bit_set_range (start count : Nat)
    (stored : start + count ≤ words.length * width) (tested : Nat) :
    bit (setRange words start count) tested =
      (bit words tested || decide (start ≤ tested ∧ tested < start + count)) := by
  induction count with
  | zero =>
    have empty : ¬ (start ≤ tested ∧ tested < start + 0) := by omega
    rw [setRange, decide_eq_false empty, Bool.or_false]
  | succ count ih =>
    have earlier := ih (by omega)
    have last : (start + count) / width < (setRange words start count).length := by
      rw [length_set_range]
      exact (Nat.div_lt_iff_lt_mul pos).mpr (by omega)
    rw [setRange, bit_set_bit pos _ last, earlier, Bool.or_assoc, ← Bool.decide_or]
    congr 2
    apply propext
    omega

theorem first_clear_spec (limit rounds start : Nat) (enough : limit ≤ start + rounds) :
    Scanned words limit start (firstClear words limit rounds start) := by
  induction rounds generalizing start with
  | zero => exact Scanned.finish enough
  | succ rounds ih =>
    simp only [firstClear]
    split
    next below =>
      split
      next full =>
        have forward : start < (start / width + 1) * width := by
          rw [Nat.mul_comm]
          exact Nat.lt_mul_div_succ start pos
        apply (ih _ (by omega)).skip forward
        intro index above was
        apply bit_of_full pos full
        have notBefore : start / width ≤ index / width := Nat.div_le_div_right above
        have notAfter : index / width < start / width + 1 := (Nat.div_lt_iff_lt_mul pos).mpr was
        omega
      next partly =>
        split
        next clear =>
          refine ⟨?_, fun index above was => absurd was (Nat.not_lt_of_le above)⟩
          rintro found ⟨⟩
          exact ⟨Nat.le_refl _, below, (mask_clear pos _ _).mp clear⟩
        next occupied =>
          apply (ih _ (by omega)).skip (Nat.lt_succ_self start)
          intro index above was
          have same : index = start := by omega
          subst same
          rw [← Bool.not_eq_false]
          exact fun clear => occupied ((mask_clear pos _ _).mpr clear)
    next outside => exact Scanned.finish (Nat.le_of_not_lt outside)

end

end PositiveWidth

end ViCell.Lib.WordBitmap
