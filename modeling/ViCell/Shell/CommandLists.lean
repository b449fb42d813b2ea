import ViCell.Shell.Parser

/-!
# Command lists

Commands joined by `&&` and `||`.  What a command returns may depend on the commands that
ran before it, so that the shell's run is given by the list of these and a status.
-/

namespace ViCell.Shell

open List

abbrev Status := List Ast → Ast → Int

/-- `execute` on what `parse_pipeline` returns: the commands that have run, and the code. -/
def execute (status : Status) (ran : List Ast) : Ast → List Ast × Int
  | .empty => (ran, 0)
  | .background cmd => (ran ++ [.background cmd], 0)
  | .and left right =>
    let (ran, code) := execute status ran left
    if code = 0 then execute status ran right else (ran, code)
  | .or left right =>
    let (ran, code) := execute status ran left
    if code ≠ 0 then execute status ran right else (ran, code)
  | command => (ran ++ [command], status ran command)

structure Command where
  tokens : List Tok
  unjoined : ∀ tok ∈ tokens, tok ≠ .and ∧ tok ≠ .or
  runs : (∃ cmd, parsePipes tokens = .simple cmd) ∨ ∃ cmds, parsePipes tokens = .pipeline cmds

def Command.ast (command : Command) : Ast := parsePipes command.tokens

inductive Joint where
  | and
  | or
  deriving DecidableEq, Repr

namespace Joint

def tok : Joint → Tok
  | .and => .and
  | .or => .or

def ast : Joint → Ast → Ast → Ast
  | .and => .and
  | .or => .or

def goesOn : Joint → Int → Prop
  | .and, code => code = 0
  | .or, code => code ≠ 0

instance (joint : Joint) (code : Int) : Decidable (joint.goesOn code) :=
  match joint with
  | .and => inferInstanceAs (Decidable (code = 0))
  | .or => inferInstanceAs (Decidable (code ≠ 0))

end Joint

abbrev Joined := List (Joint × Command)

def listTokens (first : Command) (rest : Joined) : List Tok :=
  first.tokens ++ rest.flatMap (fun (joint, command) => joint.tok :: command.tokens)

/-- From left to right: each joint asks for the last code. -/
def evaluate (status : Status) : List Ast × Int → Joined → List Ast × Int
  | done, [] => done
  | (ran, code), (joint, command) :: rest =>
    evaluate status (if joint.goesOn code then (ran ++ [command.ast], status ran command.ast)
      else (ran, code)) rest

theorem parse_from (segment more : List Tok) {tokens : List Tok}
    (unjoined : ∀ tok ∈ tokens, tok ≠ .and ∧ tok ≠ .or) :
    parsePipelineFrom segment (tokens ++ more) = parsePipelineFrom (segment ++ tokens) more := by
  induction tokens generalizing segment with
  | nil => rw [nil_append, append_nil]
  | cons tok rest ih =>
    obtain ⟨⟨notAnd, notOr⟩, others⟩ := forall_mem_cons.mp unjoined
    rw [cons_append, parsePipelineFrom, ih _ others, append_assoc, singleton_append]
    · exact notAnd
    · exact notOr

theorem parse_list (first : Command) (joint : Joint) (next : Command) (rest : Joined) :
    parsePipeline (listTokens first ((joint, next) :: rest)) =
      joint.ast first.ast (parsePipeline (listTokens next rest)) := by
  unfold parsePipeline listTokens
  rw [flatMap_cons, parse_from [] _ first.unjoined]
  cases joint <;> rfl

theorem execute_command (status : Status) (ran : List Ast) (command : Command) :
    execute status ran command.ast = (ran ++ [command.ast], status ran command.ast) := by
  unfold Command.ast
  rcases command.runs with ⟨_, simple⟩ | ⟨_, piped⟩
  · rw [simple, execute]
    all_goals nofun
  · rw [piped, execute]
    all_goals nofun

theorem execute_list (status : Status) (ran : List Ast) (first next : Command) (joint : Joint)
    (rest : Joined) :
    execute status ran (parsePipeline (listTokens first ((joint, next) :: rest))) =
      if joint.goesOn (status ran first.ast) then
        execute status (ran ++ [first.ast]) (parsePipeline (listTokens next rest))
      else (ran ++ [first.ast], status ran first.ast) := by
  rw [parse_list]
  cases joint <;> rw [Joint.ast, execute, execute_command] <;> rfl

theorem execute_alone (status : Status) (ran : List Ast) (first : Command) :
    execute status ran (parsePipeline (listTokens first [])) =
      (ran ++ [first.ast], status ran first.ast) := by
  unfold parsePipeline listTokens
  rw [parse_from [] _ first.unjoined]
  exact execute_command status ran first

theorem evaluate_idle (status : Status) {ran : List Ast} {code : Int} {rest : Joined}
    (stops : ∀ one ∈ rest, ¬ one.1.goesOn code) :
    evaluate status (ran, code) rest = (ran, code) := by
  induction rest with
  | nil => rfl
  | cons one rest ih =>
    obtain ⟨now, later⟩ := forall_mem_cons.mp stops
    rw [evaluate, if_neg now]
    exact ih later

theorem evaluate_extends (status : Status) (done : List Ast × Int) (rest : Joined) :
    done.1 <+: (evaluate status done rest).1 := by
  induction rest generalizing done with
  | nil => exact prefix_rfl
  | cons one rest ih =>
    rw [evaluate]
    split
    · have extended := ih (done.1 ++ [one.2.ast], status done.1 one.2.ast)
      exact (prefix_append _ _).trans extended
    · exact ih _

theorem stops_of_idle (status : Status) {ran : List Ast} {code : Int} {rest : Joined}
    (idle : (evaluate status (ran, code) rest).1 = ran) :
    ∀ one ∈ rest, ¬ one.1.goesOn code := by
  induction rest with
  | nil => nofun
  | cons one rest ih =>
    rw [evaluate] at idle
    split at idle
    · have longer := (evaluate_extends status (ran ++ [one.2.ast], status ran one.2.ast) rest).length_le
      rw [idle, length_append, length_singleton] at longer
      omega
    · next stops => exact forall_mem_cons.mpr ⟨stops, ih idle⟩

theorem execute_same (status : Status) {joint : Joint} {rest : Joined}
    (same : ∀ one ∈ rest, one.1 = joint) (ran : List Ast) (first : Command) :
    execute status ran (parsePipeline (listTokens first rest)) =
      evaluate status (ran ++ [first.ast], status ran first.ast) rest := by
  induction rest generalizing ran first with
  | nil => exact execute_alone status ran first
  | cons one rest ih =>
    obtain ⟨_, next⟩ := one
    obtain ⟨rfl, others⟩ := forall_mem_cons.mp same
    rw [execute_list, evaluate]
    split
    · exact ih others _ next
    · next stops => exact (evaluate_idle status (fun other mem => others other mem ▸ stops)).symm

/-- Whatever the commands return, the shell runs those that an evaluation from left to
right runs, with the same status, exactly if all joints of the list are the same. -/
theorem list_runs_left_to_right_iff (first : Command) (rest : Joined) :
    (∀ status : Status, execute status [] (parsePipeline (listTokens first rest)) =
        evaluate status ([first.ast], status [] first.ast) rest) ↔
      ∀ one ∈ rest, ∀ other ∈ rest, one.1 = other.1 := by
  cases rest with
  | nil => exact iff_of_true (fun status => execute_alone status [] first) nofun
  | cons one rest =>
    obtain ⟨joint, next⟩ := one
    constructor
    · intro agree
      -- A code at which the first joint stops, and the tree with it.
      obtain ⟨code, stops, only⟩ : ∃ code, ¬ joint.goesOn code ∧
          ∀ other : Joint, ¬ other.goesOn code → other = joint := by
        cases joint with
        | and => exact ⟨1, by decide, fun | .and, _ => rfl | .or, stops => absurd (by decide) stops⟩
        | or => exact ⟨0, by decide, fun | .or, _ => rfl | .and, stops => absurd rfl stops⟩
      have idle := agree (fun _ _ => code)
      rw [execute_list, if_neg stops] at idle
      have all := stops_of_idle _ (congrArg Prod.fst idle).symm
      intro one oneMem other otherMem
      rw [only one.1 (all one oneMem), only other.1 (all other otherMem)]
    · intro same status
      exact execute_same status (fun other mem => same other mem _ mem_cons_self) [] first

def letter (char : Char) : Command :=
  ⟨[.word [char]], by simp, .inl ⟨⟨[[char]], []⟩, rfl⟩⟩

/-- After `a` has failed, `c` is to run. -/
theorem mixed_list_stops_early :
    (execute (fun _ _ => 1) [] (parsePipeline (tokenize "a && b || c".toList))).1.length = 1 ∧
      (evaluate (fun _ _ => 1) ([(letter 'a').ast], 1)
        [(.and, letter 'b'), (.or, letter 'c')]).1.length = 2 := by
  decide

end ViCell.Shell
