import Mathlib

/-!
# The shell's parser

`parser.rs` of the shell. Rust slices panic when their bounds are out of order, so the
functions that take slices return an option: `none` is the panic. The token variants
that the tokenizer never emits are left out.
-/

namespace ViCell.Shell

open List Option

abbrev Text := List Char

inductive Redirect where
  | stdoutTo (path : Text)
  | stdoutAppend (path : Text)
  | stdinFrom (path : Text)
  | stderrTo (path : Text)
  deriving DecidableEq, Repr

structure Cmd where
  argv : List Text
  redirects : List Redirect
  deriving DecidableEq, Repr

inductive Ast where
  | empty
  | simple (cmd : Cmd)
  | pipeline (cmds : List Cmd)
  | background (cmd : Cmd)
  | sequence (sub : List Ast)
  | and (left right : Ast)
  | or (left right : Ast)
  | while (cond body : Ast)
  | funcDef (name body : Text)
  | case (expr : Text) (arms : List (Text × Ast))
  | for (var : Text) (words : List Text) (body : Ast)
  | if (cond thenB : Ast) (elseB : Option Ast)

inductive Tok where
  | word (text : Text)
  | pipe
  | redirectOut
  | redirectAppend
  | redirectIn
  | redirectErr
  | ampersand
  | and
  | or
  | semicolon
  | lBrace
  | rBrace
  deriving DecidableEq, Repr

/-- Where the loops of `tokenize` are: in the outer one, at the second character of an
operator, inside quotes, or inside `$(` at a depth. -/
inductive Mode where
  | plain
  | skip
  | quoted
  | subst (depth : Nat)

def flush (current : Text) : List Tok := if current = [] then [] else [.word current]

/-- Past an operator that is one character or that character twice. -/
def afterOperator (char : Char) (rest : Text) : Mode :=
  if rest.head? = some char then .skip else .plain

def scan : Mode → Text → Text → List Tok
  | _, current, [] => flush current
  | .skip, current, _ :: rest => scan .plain current rest
  | .quoted, current, char :: rest =>
    if char = '"' then scan .plain current rest else scan .quoted (current ++ [char]) rest
  | .subst depth, current, char :: rest =>
    if char = '(' then scan (.subst (depth + 1)) (current ++ [char]) rest
    else if char = ')' then
      scan (if depth = 1 then .plain else .subst (depth - 1)) (current ++ [char]) rest
    else scan (.subst depth) (current ++ [char]) rest
  | .plain, current, char :: rest =>
    match char with
    | ' ' | '\t' => flush current ++ scan .plain [] rest
    | '"' => scan .quoted current rest
    | '|' => flush current ++ (if rest.head? = some '|' then .or else .pipe) ::
        scan (afterOperator '|' rest) [] rest
    | '&' => flush current ++ (if rest.head? = some '&' then .and else .ampersand) ::
        scan (afterOperator '&' rest) [] rest
    | ';' => flush current ++ .semicolon :: scan .plain [] rest
    | '{' => flush current ++ .lBrace :: scan .plain [] rest
    | '}' => flush current ++ .rBrace :: scan .plain [] rest
    | '<' => flush current ++ .redirectIn :: scan .plain [] rest
    | '>' => flush current ++
        (if rest.head? = some '>' then .redirectAppend else .redirectOut) ::
          scan (afterOperator '>' rest) [] rest
    | other =>
      if other = '2' ∧ rest.head? = some '>' ∧ current = [] then
        .redirectErr :: scan .skip [] rest
      else if other = '$' ∧ rest.head? = some '(' then
        scan (.subst 0) (current ++ [other]) rest
      else scan .plain (current ++ [other]) rest

def tokenize (line : Text) : List Tok := scan .plain [] line

/-- Unicode `White_Space`. -/
def isWhitespace (char : Char) : Bool :=
  (9 ≤ char.toNat && char.toNat ≤ 13) || (0x2000 ≤ char.toNat && char.toNat ≤ 0x200A) ||
    [0x20, 0x85, 0xA0, 0x1680, 0x2028, 0x2029, 0x202F, 0x205F, 0x3000].contains char.toNat

def trim (line : Text) : Text := (line.dropWhile isWhitespace).rdropWhile isWhitespace

def Tok.redirect : Tok → Option (Text → Redirect)
  | .redirectOut => some .stdoutTo
  | .redirectAppend => some .stdoutAppend
  | .redirectIn => some .stdinFrom
  | .redirectErr => some .stderrTo
  | _ => none

/-- The token after a redirect is consumed even when it is not a word. -/
def parseCmd (cmd : Cmd) : List Tok → Cmd
  | [] => cmd
  | .word text :: rest => parseCmd { cmd with argv := cmd.argv ++ [text] } rest
  | [_] => cmd
  | tok :: next :: rest =>
    match tok.redirect, next with
    | some kind, .word path =>
      parseCmd { cmd with redirects := cmd.redirects ++ [kind path] } rest
    | some _, _ => parseCmd cmd rest
    | none, _ => parseCmd cmd (next :: rest)

/-- The part of `parse_pipeline` for tokens without `&&` and `||`. -/
def parsePipes (tokens : List Tok) : Ast :=
  match ((tokens.splitOnP (· = .pipe)).map (parseCmd ⟨[], []⟩)).filter (!·.argv.isEmpty) with
  | [] => .empty
  | [cmd] => if tokens.getLast? = some .ampersand then .background cmd else .simple cmd
  | cmds => .pipeline cmds

/-- `parse_pipeline` past `segment`, in which no `&&` or `||` was found. -/
def parsePipelineFrom (segment : List Tok) : List Tok → Ast
  | [] => parsePipes segment
  | .and :: rest => .and (parsePipes segment) (parsePipelineFrom [] rest)
  | .or :: rest => .or (parsePipes segment) (parsePipelineFrom [] rest)
  | tok :: rest => parsePipelineFrom (segment ++ [tok]) rest

def parsePipeline (tokens : List Tok) : Ast := parsePipelineFrom [] tokens

def parseSequence (tokens : List Tok) : Ast :=
  match tokens.splitOnP (· = .semicolon) with
  | [_] => parsePipeline tokens
  | segments => .sequence (segments.map parsePipeline)

def rposition (test : Tok → Bool) : List Tok → Option Nat
  | [] => none
  | tok :: rest =>
    match rposition test rest with
    | some index => some (index + 1)
    | none => if test tok then some 0 else none

def between (tokens : List Tok) (start stop : Nat) : List Tok := (tokens.take stop).drop start

def slice (tokens : List Tok) (start stop : Nat) : Option (List Tok) :=
  if start ≤ stop ∧ stop ≤ tokens.length then some (between tokens start stop) else none

def parseTokens (tokens : List Tok) : Option Ast := do
  let start := tokens.findIdx (· ≠ .semicolon)
  let stop := ((rposition (· ≠ .semicolon) tokens).map (· + 1)).getD 0
  let tokens ← slice tokens start stop
  return if tokens = [] then .empty else parseSequence tokens

def Tok.text : Tok → Text
  | .word text => text
  | .pipe => "|".toList
  | .redirectOut => ">".toList
  | .redirectAppend => ">>".toList
  | .redirectIn => "<".toList
  | .redirectErr => "2>".toList
  | .ampersand => "&".toList
  | .and => "&&".toList
  | .or => "||".toList
  | .semicolon => ";".toList
  | .lBrace => "\x7b".toList
  | .rBrace => "\x7d".toList

def tokensToString (tokens : List Tok) : Text := [' '].intercalate (tokens.map Tok.text)

def keyword (word : String) : Tok := .word word.toList

def first (word : String) (tokens : List Tok) : Option Nat := tokens.findIdx? (· = keyword word)

def last (word : String) (tokens : List Tok) : Option Nat := rposition (· = keyword word) tokens

/-- The places of the first `opening` and the last `closing`, if they are in this order. -/
def enclosed (opening closing : String) (tokens : List Tok) : Option (Nat × Nat) :=
  match first opening tokens, last closing tokens with
  | some start, some stop => if start < stop then some (start, stop) else none
  | _, _ => none

/-- The variable and the place of `in`. -/
def forHeader (tokens : List Tok) : Option (Text × Nat) :=
  match (tokens[1]? : Option Tok), first "in" tokens with
  | some (.word var), some inPos => if var = "in".toList then none else some (var, inPos)
  | _, _ => none

def parseForStmt (tokens : List Tok) : Option Ast :=
  match forHeader tokens, enclosed "do" "done" tokens with
  | some (var, inPos), some (doPos, donePos) => do
    let words ← slice tokens (inPos + 1) doPos
    let body ← parseTokens (← slice tokens (doPos + 1) donePos)
    return .for var (words.filterMap (fun | .word text => some text | _ => none)) body
  | _, _ => parseTokens tokens

/-- The loop of `parse_case_stmt`, past the tokens of `arm`. -/
def splitArms (arm : List Tok) : List Tok → List (List Tok)
  | .semicolon :: .semicolon :: rest => arm :: splitArms [] rest
  | tok :: rest => splitArms (arm ++ [tok]) rest
  | [] => [arm]

/-- The pattern of an arm and the tokens after it. -/
def armParts (arm : List Tok) : Option (Text × List Tok) :=
  match arm.dropWhile (· = .semicolon) with
  | .word pattern :: rest => some (pattern.rdropWhile (· = ')'), rest)
  | _ => none

def pushArm (arms : List (Text × Ast)) (arm : List Tok) : Option (List (Text × Ast)) :=
  match armParts arm with
  | some (pattern, rest) => do
    let body ← parseTokens rest
    return arms ++ [(pattern, body)]
  | none => some arms

def parseCaseStmt (tokens : List Tok) : Option Ast :=
  match enclosed "in" "esac" tokens with
  | some (inPos, esacPos) => do
    let expr := match (tokens[1]? : Option Tok) with
      | some (.word text) => text
      | _ => []
    let arms ← (splitArms [] (← slice tokens (inPos + 1) esacPos)).foldlM pushArm []
    return .case expr arms
  | none => parseTokens tokens

def parseWhileStmt (tokens : List Tok) : Option Ast :=
  match enclosed "do" "done" tokens with
  | some (doPos, donePos) => do
    let cond ← parseTokens (← slice tokens 1 doPos)
    let body ← parseTokens (← slice tokens (doPos + 1) donePos)
    return .while cond body
  | none => parseTokens tokens

def parseIfStmt (tokens : List Tok) : Option Ast := do
  let thenPos := tokens.findIdx (· = keyword "then")
  let fiPos := (last "fi" tokens).getD tokens.length
  let cond ← parseTokens (← slice tokens 1 thenPos)
  match first "else" tokens with
  | none =>
    let thenB ← parseTokens (← slice tokens (thenPos + 1) fiPos)
    return .if cond thenB none
  | some elsePos =>
    let thenB ← parseTokens (← slice tokens (thenPos + 1) elsePos)
    let elseB ← parseTokens (← slice tokens (elsePos + 1) fiPos)
    return .if cond thenB (some elseB)

/-- The name in `name() { ... }`. -/
def functionName : List Tok → Option Text
  | .word text :: .lBrace :: rest =>
    if "()".toList.isSuffixOf text ∧ rest.getLast? = some .rBrace then
      some (text.take (text.length - 2))
    else none
  | _ => none

def parse (line : Text) : Option Ast :=
  let tokens := tokenize (trim line)
  if tokens = [] then some .empty
  else match functionName tokens with
    | some name => some (.funcDef name (tokensToString (tokens.drop 2).dropLast))
    | none =>
      if tokens.head? = some (keyword "if") then parseIfStmt tokens
      else if tokens.head? = some (keyword "while") then parseWhileStmt tokens
      else if tokens.head? = some (keyword "for") then parseForStmt tokens
      else if tokens.head? = some (keyword "case") then parseCaseStmt tokens
      else some (parseSequence tokens)

end ViCell.Shell
