import ViCell.Http.BodyReader

/-!
# Chunk-size lines

What the body reader relies on in the library's `parse_chunk_size`: it completes on a
whole size line and asks for more on every shorter beginning of one.  `parseChunkSize`
is an executable parser that is shown to do so.
-/

namespace ViCell.Http

open List

def hexValue (byte : Byte) : Option Nat :=
  if 0x30 ≤ byte.toNat ∧ byte.toNat ≤ 0x39 then some (byte.toNat - 0x30)
  else if 0x61 ≤ byte.toNat ∧ byte.toNat ≤ 0x66 then some (byte.toNat - 0x61 + 10)
  else if 0x41 ≤ byte.toNat ∧ byte.toNat ≤ 0x46 then some (byte.toNat - 0x41 + 10)
  else none

def isBlank (byte : Byte) : Bool := byte = 0x20 || byte = 0x09

def semicolon : Byte := 0x3B

/-- The number written by hexadecimal digits after `high`. -/
def hexNumber : Nat → List Byte → Option Nat
  | high, [] => some high
  | high, byte :: rest => (hexValue byte).bind fun digit => hexNumber (high * 16 + digit) rest

/-- One to sixteen hexadecimal digits, blanks, an extension that starts with a semicolon,
and the end of the line. -/
structure SizeLine (line : List Byte) (size : Nat) : Prop where
  parts : ∃ digits blanks extension, line = digits ++ (blanks ++ (extension ++ [cr, lf])) ∧
    digits ≠ [] ∧ digits.length ≤ 16 ∧ hexNumber 0 digits = some size ∧
    (∀ byte ∈ blanks, isBlank byte = true) ∧
    (extension = [] ∨ ∃ text, extension = semicolon :: text ∧ cr ∉ text)

/-- What is assumed of the library's parser. -/
def FollowsSpec (parser : List Byte → SizeParse) : Prop :=
  ∀ line size, SizeLine line size → parser line = .complete line.length size ∧
      ∀ start rest, line = start ++ rest → start ≠ [] → rest ≠ [] → parser start = .more

structure SizeScan where
  size : Nat
  count : Nat
  inSize : Bool
  inExt : Bool
  deriving DecidableEq, Repr

/-- What a byte does to a scan: it goes on, the line ends, or the line is rejected. -/
inductive SizeStep where
  | goOn (scan : SizeScan)
  | lineEnd
  | reject

def SizeScan.next (scan : SizeScan) (byte : Byte) : SizeStep :=
  match if scan.inSize then hexValue byte else none with
  | some digit =>
    if scan.count > 15 then .reject
    else .goOn { scan with size := scan.size * 16 + digit, count := scan.count + 1 }
  | none =>
    if isBlank byte ∧ scan.inExt = false then .goOn { scan with inSize := false }
    else if byte = semicolon ∧ scan.inExt = false then
      .goOn { scan with inExt := true, inSize := false }
    else if byte = cr then .lineEnd
    else if scan.inExt then .goOn scan
    else .reject

def endLine (consumed size : Nat) : List Byte → SizeParse
  | [] => .more
  | follower :: _ => if follower = lf then .complete consumed size else .invalid

def scanSize : Nat → SizeScan → List Byte → SizeParse
  | _, _, [] => .more
  | pos, scan, byte :: rest =>
    match scan.next byte with
    | .goOn scan => scanSize (pos + 1) scan rest
    | .reject => .invalid
    | .lineEnd => endLine (pos + 2) scan.size rest

def parseChunkSize (line : List Byte) : SizeParse := scanSize 0 ⟨0, 0, true, false⟩ line

variable {pos : Nat} {scan : SizeScan}

/-- A scan that completes at the end of its input has asked for more everywhere before. -/
theorem scan_asks_for_more {start rest : List Byte} {size : Nat} (unfinished : rest ≠ [])
    (completes : scanSize pos scan (start ++ rest) =
      .complete (pos + (start ++ rest).length) size) :
    scanSize pos scan start = .more := by
  induction start generalizing pos scan with
  | nil => rfl
  | cons byte start ih =>
    have shift : pos + (byte :: start ++ rest).length = pos + 1 + (start ++ rest).length := by
      rw [cons_append, length_cons]
      omega
    rw [shift, cons_append, scanSize] at completes
    rw [scanSize]
    cases step : scan.next byte with
    | goOn =>
      rw [step] at completes
      exact ih completes
    | reject =>
      rw [step] at completes
      cases completes
    | lineEnd =>
      rw [step] at completes
      cases start with
      | nil => rfl
      | cons follower start =>
        rw [cons_append] at completes
        dsimp only [endLine] at completes
        split at completes
        · have length := length_pos_iff.mpr unfinished
          injection completes with idx
          rw [length_cons, length_append] at idx
          omega
        · cases completes

theorem scan_digits {digits rest : List Byte} {size : Nat} (inSize : scan.inSize = true)
    (few : scan.count + digits.length ≤ 16) (number : hexNumber scan.size digits = some size) :
    scanSize pos scan (digits ++ rest) = scanSize (pos + digits.length)
        { scan with size := size, count := scan.count + digits.length } rest := by
  induction digits generalizing pos scan with
  | nil =>
    cases number
    rfl
  | cons byte digits ih =>
    rw [hexNumber, Option.bind_eq_some_iff] at number
    obtain ⟨digit, isDigit, later⟩ := number
    rw [length_cons] at few
    have step : scan.next byte =
        .goOn { scan with size := scan.size * 16 + digit, count := scan.count + 1 } := by
      unfold SizeScan.next
      rw [inSize, if_pos rfl, isDigit]
      dsimp only
      rw [if_neg (by omega)]
    rw [cons_append, scanSize, step]
    dsimp only
    rw [@ih (pos + 1) { scan with size := scan.size * 16 + digit, count := scan.count + 1 } inSize
      (by dsimp only; omega) later, length_cons]
    rw [Nat.add_right_comm pos 1, Nat.add_assoc pos, Nat.add_right_comm scan.count 1,
      Nat.add_assoc scan.count]

theorem blank_not_digit {byte : Byte} (blank : isBlank byte = true) : hexValue byte = none := by
  unfold isBlank at blank
  rw [Bool.or_eq_true, decide_eq_true_eq, decide_eq_true_eq] at blank
  rcases blank with rfl | rfl <;> rfl

theorem scan_blanks {blanks rest : List Byte} (outside : scan.inExt = false)
    (blank : ∀ byte ∈ blanks, isBlank byte = true) :
    ∃ inSize, scanSize pos scan (blanks ++ rest) =
      scanSize (pos + blanks.length) { scan with inSize } rest := by
  induction blanks generalizing pos scan with
  | nil => exact ⟨scan.inSize, rfl⟩
  | cons byte blanks ih =>
    have isBlank := blank byte mem_cons_self
    have step : scan.next byte = .goOn { scan with inSize := false } := by
      unfold SizeScan.next
      rw [blank_not_digit isBlank, ite_self]
      rw [if_pos ⟨isBlank, outside⟩]
    obtain ⟨inSize, scanned⟩ := @ih (pos + 1) { scan with inSize := false } outside
      (fun other mem => blank other (mem_cons_of_mem _ mem))
    refine ⟨inSize, ?_⟩
    rw [cons_append, scanSize, step]
    dsimp only
    rw [scanned, length_cons, Nat.add_right_comm pos 1, Nat.add_assoc pos]

theorem scan_text {text rest : List Byte} (outside : scan.inSize = false)
    (inside : scan.inExt = true) (noEnd : cr ∉ text) :
    scanSize pos scan (text ++ rest) = scanSize (pos + text.length) scan rest := by
  induction text generalizing pos with
  | nil => rfl
  | cons byte text ih =>
    have notCr : byte ≠ cr := fun isCr => noEnd (isCr ▸ mem_cons_self)
    have step : scan.next byte = .goOn scan := by
      unfold SizeScan.next
      rw [outside, if_neg Bool.false_ne_true]
      rw [inside, if_neg (fun both => Bool.noConfusion both.2),
        if_neg (fun both => Bool.noConfusion both.2), if_neg notCr, if_pos rfl]
    rw [cons_append, scanSize, step]
    dsimp only
    rw [@ih (pos + 1) (fun mem => noEnd (mem_cons_of_mem _ mem)), length_cons,
      Nat.add_right_comm pos 1, Nat.add_assoc pos]

theorem scan_line_end : scanSize pos scan [cr, lf] = .complete (pos + 2) scan.size := by
  have notDigit : hexValue cr = none := rfl
  have step : scan.next cr = .lineEnd := by
    unfold SizeScan.next
    rw [notDigit, ite_self]
    rw [if_neg (fun both => absurd both.1 (by decide)),
      if_neg (fun both => absurd both.1 (by decide)), if_pos rfl]
  rw [scanSize, step]
  rw [endLine, if_pos rfl]

theorem scan_extension {extension : List Byte} (outside : scan.inExt = false)
    (isExtension : extension = [] ∨ ∃ text, extension = semicolon :: text ∧ cr ∉ text) :
    scanSize pos scan (extension ++ [cr, lf]) =
      .complete (pos + extension.length + 2) scan.size := by
  rcases isExtension with rfl | ⟨text, rfl, noEnd⟩
  · exact scan_line_end
  · have notDigit : hexValue semicolon = none := rfl
    have step : scan.next semicolon = .goOn { scan with inExt := true, inSize := false } := by
      unfold SizeScan.next
      rw [notDigit, ite_self]
      rw [if_neg (fun both => absurd both.1 (by decide)), if_pos ⟨rfl, outside⟩]
    rw [cons_append, scanSize, step]
    dsimp only
    rw [scan_text rfl rfl noEnd, scan_line_end, length_cons, Nat.add_right_comm pos 1,
      Nat.add_assoc pos]

theorem parse_chunk_size_follows_spec : FollowsSpec parseChunkSize := by
  intro line size isLine
  obtain ⟨digits, blanks, extension, isParts, _, _, number, blank, isExtension⟩ := isLine.parts
  have complete : parseChunkSize line = .complete line.length size := by
    unfold parseChunkSize
    rw [isParts, scan_digits rfl (by dsimp only; omega) number]
    obtain ⟨_, scanned⟩ := @scan_blanks (0 + digits.length)
      ⟨size, 0 + digits.length, true, false⟩ blanks (extension ++ [cr, lf]) rfl blank
    rw [scanned, scan_extension rfl isExtension]
    simp only [length_append, length_cons, length_nil, SizeParse.complete.injEq, and_true]
    omega
  refine ⟨complete, fun start rest isSplit _ unfinished => ?_⟩
  rw [isSplit] at complete
  refine @scan_asks_for_more _ _ start rest size unfinished ?_
  rw [Nat.zero_add]
  exact complete

end ViCell.Http
