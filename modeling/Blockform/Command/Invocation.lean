-- SUMMARY: What a command line asks for (`Invocation`), and how it is read (`Invocation.ofWords`).
import Blockform.Command.Arguments
import Blockform.Log
import Blockform.Lowering.Options
import Blockform.Machine.Options

/-!
# Invocations

A command line names a command, `build`, `run` or `check`, and a file. The
options that set how much is logged may stand before the name of the command or
after it; all others belong to one command and follow its name.
-/

namespace Blockform.Command

/-! ## Commands -/

/-- The name of a command. -/
inductive Verb where
  | build
  | run
  | check
deriving DecidableEq

namespace Verb

/-- The word for the command. -/
def name : Verb → String
  | .build => "build"
  | .run => "run"
  | .check => "check"

/-- The command of a word. -/
def ofName? (s : String) : Option Verb := [.build, .run, .check].find? (·.name = s)

/-- What may follow the name of the command. -/
def grammar : Verb → Grammar
  | .build =>
    { switches := [.verbose, .quiet, .help, .noAutoDeclare, .stats]
      settings := [.entry, .dump, .output]
      operand := fun n => if n = 0 then some .file else none }
  | .run =>
    { switches := [.verbose, .quiet, .help, .noAutoDeclare, .trace]
      settings := [.entry, .function, .maxSteps]
      operand := fun n => if n = 0 then some .file else some .argument }
  | .check =>
    { switches := [.verbose, .quiet, .help, .noAutoDeclare]
      settings := [.entry]
      operand := fun n => if n = 0 then some .file else none }

end Verb

/-- What may stand before the name of the command. -/
def frontGrammar : Grammar where
  switches := [.verbose, .quiet, .help, .version]
  settings := []
  operand := fun _ => none

/-- What is done with the program. -/
inductive Task where
  /-- Write a stage to a file or to the output, and perhaps a summary. -/
  | build (dump : Dump) (output : Option String) (stats : Bool)
  /-- Call a function; without a name, the one with the top-level statements. -/
  | run (function : Option String) (arguments : List Int32) (limits : ExecOptions)
  /-- Say how many functions there are. -/
  | check
deriving DecidableEq

/-- What a command line asks for. `level` is the level of detail that its options
    set for the log. -/
structure Invocation where
  file : String
  options : LowerOptions
  level : Option LogLevel
  task : Task
deriving DecidableEq

/-! ## Reading -/

/-- The level that a number of `verbose` options sets, unless `quiet` does. -/
def levelOf (verbose : Nat) (quiet : Bool) : Option LogLevel :=
  if quiet then some .error
  else match verbose with
    | 0 => none
    | 1 => some .info
    | 2 => some .debug
    | _ => some .trace

/-- What is done with the program, as the words after a command say. -/
def Verb.task (verb : Verb) (l : Line) : Task :=
  match verb with
  | .build => .build (l.dump.getD .ir) l.output l.stats
  | .run =>
    let limits : ExecOptions := {}
    .run l.function l.arguments
      { limits with maxSteps := l.maxSteps.getD limits.maxSteps, trace := l.trace }
  | .check => .check

namespace Invocation

/-- The invocation that the words before and after a command make. Options that
    set the level count where they stand last: those after the command, if there
    are any, replace those before it. -/
def ofLines (front : Line) (verb : Verb) (l : Line) : Except Halt Invocation :=
  match l.pending, l.file with
  | none, some file =>
    let options : LowerOptions := {}
    .ok {
      file
      options := { options with
        entryName := l.entry.getD options.entryName, autoDeclareCallees := !l.noAutoDeclare }
      level := levelOf (if l.verbose = 0 then front.verbose else l.verbose) (front.quiet || l.quiet)
      task := verb.task l }
  | _, _ => .error .misuse

/-- What the words after `help` ask for: help in general, or on one command. -/
def helpOn : List String → Halt
  | [] => .help
  | [name] => if name = "help" ∨ (Verb.ofName? name).isSome then .help else .misuse
  | _ => .misuse

/-- Read words, after `front` has been said. A command is looked for until `--`
    ends the options. -/
def ofWordsAfter (front : Line) : List String → Except Halt Invocation
  | [] => .error .misuse
  | w :: rest =>
    if front.literal then .error .misuse
    else if w = "help" then .error (helpOn rest)
    else match Verb.ofName? w with
      | some verb => do ofLines front verb (← Line.scan verb.grammar {} rest)
      | none => do ofWordsAfter (← front.word frontGrammar w) rest

/-- Read a command line. -/
def ofWords (words : List String) : Except Halt Invocation := ofWordsAfter {} words

end Invocation

end Blockform.Command
