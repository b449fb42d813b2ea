import Mathlib.Data.List.Basic

/-!
# The gateway's chat request

The JSON body of a chat request is written by hand and the content of a body is found by
its key.  A text is its list of characters.  The key and the characters skipped after it
are ASCII, so the byte offsets of the source are offsets of characters here.
-/

namespace ViCell.Http

abbrev Text := List Char

/-- The four digits of the format `{:04x}`. -/
def hexDigits (code : Nat) : Text := (Nat.toDigits 16 code).leftpad 4 '0'

def escapeChar : Char → Text
  | '"' => ['\\', '"']
  | '\\' => ['\\', '\\']
  | '\n' => ['\\', 'n']
  | '\r' => ['\\', 'r']
  | '\t' => ['\\', 't']
  | c => if c.toNat < 0x20 then '\\' :: 'u' :: hexDigits c.toNat else [c]

def jsonEscape (s : Text) : Text := s.flatMap escapeChar

def buildChatBody (model prompt : Text) : Text :=
  "\x7b\"model\":\"".toList ++ jsonEscape model ++
    "\",\"messages\":[\x7b\"role\":\"user\",\"content\":\"".toList ++ jsonEscape prompt ++
    "\"\x7d]\x7d".toList

def modelName : Text := "claude-sonnet-4-6".toList

/-- The text after the first place where `key` occurs. -/
def findAfter (key : Text) : Text → Option Text
  | [] => if key.isEmpty then some [] else none
  | c :: rest =>
    if key.isPrefixOf (c :: rest) then some ((c :: rest).drop key.length) else findAfter key rest

def toDigit (c : Char) : Option Nat :=
  if '0' ≤ c ∧ c ≤ '9' then some (c.toNat - '0'.toNat)
  else if 'a' ≤ c ∧ c ≤ 'f' then some (c.toNat - 'a'.toNat + 10)
  else if 'A' ≤ c ∧ c ≤ 'F' then some (c.toNat - 'A'.toNat + 10)
  else none

def hexCode (digits : Text) : Option Nat :=
  digits.foldlM (fun code c => (toDigit c).map (code * 16 + ·)) 0

/-- What `char::from_u32` adds: nothing for a code that is no scalar value. -/
def fromU32 (code : Nat) : Text := if code.isValidChar then [Char.ofNat code] else []

/-- The loop over the characters after the opening quote; `none` where they end early. -/
def readString : Text → Text → Option Text
  | '"' :: _, out => some out
  | '\\' :: 'n' :: rest, out => readString rest (out ++ ['\n'])
  | '\\' :: 'r' :: rest, out => readString rest (out ++ ['\r'])
  | '\\' :: 't' :: rest, out => readString rest (out ++ ['\t'])
  | '\\' :: 'b' :: rest, out => readString rest (out ++ ['\x08'])
  | '\\' :: 'f' :: rest, out => readString rest (out ++ ['\x0c'])
  | '\\' :: 'u' :: a :: b :: c :: d :: rest, out =>
    match hexCode [a, b, c, d] with
    | some code => readString rest (out ++ fromU32 code)
    | none => none
  | '\\' :: 'u' :: _, _ => none
  -- the quote, the backslash, the slash and any other character stand for themselves
  | '\\' :: other :: rest, out => readString rest (out ++ [other])
  | '\\' :: [], _ => none
  | c :: rest, out => readString rest (out ++ [c])
  | [], _ => none

def extractContent (body : Text) : Option Text :=
  match findAfter "\"content\"".toList body with
  | some rest =>
    match rest.dropWhile (fun c => c == ' ' || c == ':') with
    | '"' :: rest => readString rest []
    | _ => none
  | none => none

theorem hex_round_trip : ∀ code < 0x20,
    (hexDigits code).length = 4 ∧ hexCode (hexDigits code) = some code := by decide

theorem read_escaped (c : Char) (rest out : Text) :
    readString (escapeChar c ++ rest) out = readString rest (out ++ [c]) := by
  fun_cases escapeChar c with
  | case1 => rfl
  | case2 => rfl
  | case3 => rfl
  | case4 => rfl
  | case5 => rfl
  | case6 _ _ _ _ _ _ control =>
    obtain ⟨four, value⟩ := hex_round_trip c.toNat control
    obtain ⟨a, b, c', d, digits⟩ := List.length_eq_four.mp four
    rw [digits] at value ⊢
    have scalar : fromU32 c.toNat = [c] := by
      have valid : c.toNat.isValidChar := c.valid
      rw [fromU32, if_pos valid, Char.ofNat_toNat]
    simp only [List.cons_append, List.nil_append, readString, value, scalar]
  | case7 _ quote slash =>
    rw [List.singleton_append, readString]
    · exact quote
    all_goals
      intros
      exact slash ‹_›

theorem read_escape (prompt rest out : Text) :
    readString (jsonEscape prompt ++ '"' :: rest) out = some (out ++ prompt) := by
  induction prompt generalizing out with
  | nil => rw [List.append_nil]; rfl
  | cons c prompt ih =>
    rw [jsonEscape, List.flatMap_cons, List.append_assoc, read_escaped]
    rw [← jsonEscape, ih, List.append_assoc]
    rfl

theorem content_round_trip (prompt : Text) :
    extractContent (buildChatBody modelName prompt) = some prompt := by
  have found : findAfter "\"content\"".toList (buildChatBody modelName prompt) =
      some (":\"".toList ++ (jsonEscape prompt ++ "\"\x7d]\x7d".toList)) := by
    rfl
  rw [extractContent, found]
  exact read_escape prompt _ []

end ViCell.Http
