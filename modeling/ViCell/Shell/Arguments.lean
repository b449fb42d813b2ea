import ViCell.Shell.Parser

/-!
# The arguments of a built-in command

The words of a command line pass through the tokenizer, which drops empty ones, and for
most built-ins through `make_parts`, which joins them and splits the text again.
-/

namespace ViCell.Shell

open List Option

/-- How `dispatch_builtin` hands the arguments to a built-in that takes any. -/
inductive Route where
  | makeParts
  | direct
  | bracket
  deriving DecidableEq, Repr

def splitWhitespace (text : Text) : List Text := (text.splitOnP isWhitespace).filter (· ≠ [])

def Route.arguments (args : List Text) : Route → List Text
  | .makeParts => splitWhitespace ([' '].intercalate args)
  | .direct => args
  | .bracket => args.filter (· ≠ "]".toList)

def routes : List (Text × Route) :=
  ["ls", "cat", "wc", "head", "tail", "grep", "find", "uniq", "sort", "tee", "sed", "mkdir",
    "rmdir", "rm", "vcat", "vwrite", "vappend", "awk", "top", "kill", "ps", "pwd", "uname",
    "free", "env", "uptime", "sleep", "blktest", "echo", "exec"].map (·.toList, .makeParts) ++
  ["source", ".", "test", "read", "exit", "unset"].map (·.toList, .direct) ++
  [("[".toList, .bracket)]

def isAssignment (prog : Text) : Bool :=
  let key := prog.takeWhile (· ≠ '=')
  prog.contains '=' && key ≠ [] && key.all (fun char => char.isAlphanum || char = '_')

/-- `expand_token`; what it makes of a token with `$` depends on the variables. -/
def expandToken (expand : Text → Text) (token : Text) : Text :=
  if '$' ∈ token then expand token else token

def received (expand : Text → Text) (line : Text) : Option (Text × List Text) :=
  match parse line with
  | some (.simple cmd) =>
    match cmd.argv.map (expandToken expand) with
    | [] => none
    | prog :: args =>
      if args = [] ∧ isAssignment prog then none
      else (routes.find? (·.1 = prog)).map (fun builtin => (prog, builtin.2.arguments args))
  | _ => none

def quoted (word : Text) : Text := '"' :: word ++ ['"']

def quotedLine (words : List Text) : Text := [' '].intercalate (words.map quoted)

def Route.Intact (args : List Text) (route : Route) : Prop :=
  ∀ word ∈ args, word ≠ [] ∧
    (route = .makeParts → ∀ char ∈ word, isWhitespace char = false) ∧
    (route = .bracket → word ≠ "]".toList)

theorem scan_quoted {word : Text} (plain : '"' ∉ word) (current rest : Text) :
    scan .quoted current (word ++ '"' :: rest) = scan .plain (current ++ word) rest := by
  induction word generalizing current with
  | nil => rw [append_nil, nil_append, scan, if_pos rfl]
  | cons char word ih =>
    obtain ⟨other, later⟩ := not_or.mp (mem_cons.not.mp plain)
    rw [cons_append, scan, if_neg (Ne.symm other), ih later, append_assoc]
    rfl

theorem quoted_line_cons (word next : Text) (words : List Text) :
    quotedLine (word :: next :: words) = '"' :: (word ++ '"' :: ' ' :: quotedLine (next :: words)) := by
  simp [quotedLine, quoted, intercalate]

theorem tokenize_quoted {words : List Text} (plain : ∀ word ∈ words, '"' ∉ word) :
    tokenize (quotedLine words) = (words.filter (· ≠ [])).map .word := by
  have flushed : ∀ word rest, flush word ++ ((rest : List Text).filter (· ≠ [])).map Tok.word =
      ((word :: rest).filter (· ≠ [])).map .word := by
    intro word rest
    by_cases empty : word = [] <;> simp [flush, empty]
  unfold tokenize
  induction words with
  | nil => rfl
  | cons word words ih =>
    have here := scan_quoted (plain word mem_cons_self)
    rw [← flushed]
    cases words with
    | nil =>
      have line : quotedLine [word] = '"' :: (word ++ '"' :: []) := by
        simp [quotedLine, quoted, intercalate]
      rw [line, scan, here]
      simp [scan]
    | cons next words =>
      rw [quoted_line_cons, scan, here, ← ih (fun other mem => plain other (mem_cons_of_mem _ mem))]
      rfl

theorem trim_quoted (word : Text) (words : List Text) :
    trim (quotedLine (word :: words)) = quotedLine (word :: words) := by
  have ends : ∃ inner, quotedLine (word :: words) = '"' :: inner ++ ['"'] := by
    induction words generalizing word with
    | nil => exact ⟨word, by simp [quotedLine, quoted, intercalate]⟩
    | cons next words ih =>
      obtain ⟨inner, line⟩ := ih next
      exact ⟨word ++ '"' :: ' ' :: '"' :: inner, by simp [quoted_line_cons, line]⟩
  obtain ⟨inner, line⟩ := ends
  rw [line, trim, cons_append, dropWhile_cons_of_neg (by decide), ← cons_append]
  exact rdropWhile_concat_neg _ _ _ (by decide)

theorem parse_cmd_words (words : List Text) (cmd : Cmd) :
    parseCmd cmd (words.map .word) = { cmd with argv := cmd.argv ++ words } := by
  induction words generalizing cmd with
  | nil => simp [parseCmd]
  | cons word words ih => rw [map_cons, parseCmd, ih, append_assoc]; rfl

theorem parse_pipeline_words (words : List Text) (segment : List Tok) :
    parsePipelineFrom segment (words.map .word) = parsePipes (segment ++ words.map .word) := by
  induction words generalizing segment with
  | nil => simp [parsePipelineFrom]
  | cons word words ih =>
    rw [map_cons, parsePipelineFrom, ih, append_assoc]
    · rfl
    · exact Tok.noConfusion
    · exact Tok.noConfusion

theorem parse_words {line name : Text} {args : List Text}
    (tokens : tokenize (trim line) = (name :: args).map .word)
    (plain : ∀ word ∈ ["if", "while", "for", "case"], name ≠ word.toList) :
    parse line = some (.simple ⟨name :: args, []⟩) := by
  have unsplit : ∀ mark, (∀ word, Tok.word word ≠ mark) →
      ((name :: args).map Tok.word).splitOnP (· = mark) = [(name :: args).map .word] := by
    intro mark other
    apply splitOnP_eq_singleton
    simp [other]
  have noMark : ((name :: args).map Tok.word).getLast? ≠ some .ampersand := by
    rw [getLast?_map]
    simp
  have sequence : parseSequence ((name :: args).map .word) = .simple ⟨name :: args, []⟩ := by
    unfold parseSequence parsePipeline
    rw [unsplit .semicolon (fun _ => Tok.noConfusion), parse_pipeline_words, nil_append, parsePipes,
      unsplit .pipe (fun _ => Tok.noConfusion), map_singleton, parse_cmd_words]
    exact if_neg noMark
  have noFunction : functionName ((name :: args).map .word) = none := by
    cases args <;> rfl
  have others : ∀ word ∈ ["if", "while", "for", "case"],
      ((name :: args).map Tok.word).head? ≠ some (keyword word) := by
    intro word mem same
    exact plain word mem (Tok.word.inj (some.inj same))
  simp only [parse, tokens, noFunction, sequence]
  rw [if_neg (by simp), if_neg (others "if" (by decide)), if_neg (others "while" (by decide)),
    if_neg (others "for" (by decide)), if_neg (others "case" (by decide))]

theorem mem_split_whitespace {text word : Text} (mem : word ∈ splitWhitespace text) :
    word ≠ [] ∧ ∀ char ∈ word, isWhitespace char = false := by
  obtain ⟨piece, nonempty⟩ := mem_filter.mp mem
  refine ⟨of_decide_eq_true nonempty, ?_⟩
  clear mem nonempty
  induction text generalizing word with
  | nil =>
    rw [splitOnP_nil, mem_singleton] at piece
    simp [piece]
  | cons char text ih =>
    rw [splitOnP_cons_eq_if_modifyHead] at piece
    obtain ⟨head, later, pieces⟩ := exists_cons_of_ne_nil (splitOnP_ne_nil isWhitespace text)
    rw [pieces] at ih piece
    split_ifs at piece with blank
    · rcases mem_cons.mp piece with rfl | earlier
      · exact nofun
      · exact ih earlier
    · rcases mem_cons.mp piece with rfl | earlier
      · exact forall_mem_cons.mpr ⟨by simpa using blank, ih mem_cons_self⟩
      · exact ih (mem_cons_of_mem _ earlier)

theorem split_whitespace_join {args : List Text}
    (whole : ∀ word ∈ args, word ≠ [] ∧ ∀ char ∈ word, isWhitespace char = false) :
    splitWhitespace ([' '].intercalate args) = args := by
  unfold splitWhitespace
  induction args with
  | nil => rfl
  | cons word args ih =>
    obtain ⟨⟨nonempty, solid⟩, later⟩ := forall_mem_cons.mp whole
    have unsplit : word.splitOnP isWhitespace = [word] :=
      splitOnP_eq_singleton (by simpa using solid)
    cases args with
    | nil => simp [intercalate, unsplit, nonempty]
    | cons next args =>
      have line : [' '].intercalate (word :: next :: args) =
          word ++ ' ' :: [' '].intercalate (next :: args) := by
        simp [intercalate]
      rw [line, splitOnP_append_cons _ _ (by decide), filter_append, ih later, unsplit]
      simp [nonempty]

theorem arguments_intact_iff (route : Route) (args : List Text) :
    route.arguments (args.filter (· ≠ [])) = args ↔ route.Intact args := by
  have solid : (∀ word ∈ args, word ≠ []) → args.filter (· ≠ []) = args := by
    intro nonempty
    simpa using nonempty
  constructor
  · intro same word mem
    rw [← same] at mem
    cases route with
    | makeParts =>
      obtain ⟨nonempty, whole⟩ := mem_split_whitespace mem
      exact ⟨nonempty, fun _ => whole, nofun⟩
    | direct => exact ⟨of_decide_eq_true (mem_filter.mp mem).2, nofun, nofun⟩
    | bracket =>
      obtain ⟨inner, other⟩ := mem_filter.mp mem
      exact ⟨of_decide_eq_true (mem_filter.mp inner).2, nofun, fun _ => of_decide_eq_true other⟩
  · intro intact
    rw [solid (fun word mem => (intact word mem).1)]
    cases route with
    | makeParts =>
      exact split_whitespace_join (fun word mem => ⟨(intact word mem).1, (intact word mem).2.1 rfl⟩)
    | direct => rfl
    | bracket => simpa [Route.arguments] using fun word mem => (intact word mem).2.2 rfl

/-- The built-in gets its arguments as they were written exactly if none is empty and,
where they are joined and split, none has white space in it. -/
theorem builtin_receives_iff (expand : Text → Text) {name : Text} {route : Route} {args : List Text}
    (known : (name, route) ∈ routes) (plain : ∀ word ∈ args, '"' ∉ word ∧ '$' ∉ word) :
    received expand (quotedLine (name :: args)) = some (name, args) ↔ route.Intact args := by
  have table : ∀ entry ∈ routes, routes.find? (·.1 = entry.1) = some entry ∧ entry.1 ≠ [] ∧
      ('"' ∉ entry.1 ∧ '$' ∉ entry.1) ∧ isAssignment entry.1 = false ∧
      ∀ word ∈ ["if", "while", "for", "case"], entry.1 ≠ word.toList := by
    decide +kernel
  obtain ⟨found, nonempty, clean, noAssignment, noKeyword⟩ := table (name, route) known
  have words : ∀ word ∈ name :: args, '"' ∉ word ∧ '$' ∉ word := forall_mem_cons.mpr ⟨clean, plain⟩
  have tokens : tokenize (trim (quotedLine (name :: args))) =
      (name :: args.filter (· ≠ [])).map .word := by
    rw [trim_quoted, tokenize_quoted (fun word mem => (words word mem).1),
      filter_cons_of_pos (by simpa using nonempty)]
  have kept : (name :: args.filter (· ≠ [])).map (expandToken expand) =
      name :: args.filter (· ≠ []) := by
    have same : ∀ word ∈ name :: args.filter (· ≠ []), expandToken expand word = id word :=
      fun word mem => if_neg (words word (by grind)).2
    rw [map_congr_left same, List.map_id]
  have gets : received expand (quotedLine (name :: args)) =
      some (name, route.arguments (args.filter (· ≠ []))) := by
    simp only [received, parse_words tokens noKeyword, kept]
    rw [if_neg (fun both => by simp [noAssignment] at both), found]
    rfl
  rw [gets, ← arguments_intact_iff]
  simp

theorem builtin_receives_operators :
    received id (quotedLine ["test".toList, "a b".toList, ";".toList]) =
      some ("test".toList, ["a b".toList, ";".toList]) :=
  (builtin_receives_iff id (by decide +kernel : ("test".toList, Route.direct) ∈ routes)
    (by decide)).mpr (by simp [Route.Intact])

theorem quoted_space_splits :
    received id (quotedLine ["echo".toList, "a b".toList]) =
      some ("echo".toList, ["a".toList, "b".toList]) := by
  decide +kernel

end ViCell.Shell
