-- SUMMARY: What the program notes while it works: events, with their level, their origin and their wording.
import Blockform.IR.Function

/-!
# Log

Lowering and running note what they do as events. An event is data: its wording
is made only for an event that a filter lets through
(`Blockform.Command.LogFilter`).
-/

namespace Blockform

/-- How important an event is; a filter lets through everything up to a level. -/
inductive LogLevel where
  | error
  | warn
  | info
  | debug
  | trace
deriving DecidableEq

namespace LogLevel

/-- The level's place in the order, the gravest first. -/
def rank : LogLevel → Nat
  | .error => 1
  | .warn => 2
  | .info => 3
  | .debug => 4
  | .trace => 5

/-- The level in a line of the log, padded to five characters. -/
def text : LogLevel → String
  | .error => "ERROR"
  | .warn => "WARN "
  | .info => "INFO "
  | .debug => "DEBUG"
  | .trace => "TRACE"

end LogLevel

/-- Something that happened. -/
inductive Event where
  | treeDecoded (kind source : String)
  | functionDeclared (name : String) (signature : Signature)
  | builtinsDeclared (count : Nat)
  | functionStarted (name : String) (params : List String)
  | blockCreated (function label : String)
  | elseShortened (function : String) (statements : Nat)
  | functionFinished (name : String)
  | programLowered (functions : Nat)
  | opExecuted (function label : String) (op : Op)
  | valuePrinted (value : Int32)
  | outputWritten (stage path : String)
  | callFinished (name : String) (steps : Nat)
deriving DecidableEq

namespace Event

/-- The level of the event. -/
def level : Event → LogLevel
  | .programLowered .. | .opExecuted .. | .outputWritten .. | .callFinished .. => .info
  | .treeDecoded .. | .builtinsDeclared .. | .functionStarted .. | .elseShortened ..
  | .functionFinished .. | .valuePrinted .. => .debug
  | .functionDeclared .. | .blockCreated .. => .trace

/-- The part of the program that noted the event, as a path that filters match. -/
def origin : Event → String
  | .treeDecoded .. => "pyll_core::ast"
  | .functionDeclared .. => "pyll_core::ir::module"
  | .builtinsDeclared .. => "pyll_core::ir::lower::declare_builtins"
  | .functionStarted .. | .functionFinished .. | .programLowered .. => "pyll_core::ir::lower"
  | .blockCreated .. => "pyll_core::ir::lower::function_builder"
  | .elseShortened .. => "pyll_core::ir::lower::lower_stmt"
  | .opExecuted .. => "pyll_core::vm::exec"
  | .valuePrinted .. => "pyll_core::vm::host"
  | .outputWritten .. | .callFinished .. => "pyll"

/-- The wording of the event. -/
def message : Event → String
  | .treeDecoded kind source => "decoded " ++ kind ++ " syntax tree from " ++ source
  | .functionDeclared name signature => "declared @" ++ name ++ " : " ++ signature.text
  | .builtinsDeclared count => "declared " ++ toString count ++ " builtin(s)"
  | .functionStarted name params => "lowering @" ++ name ++ "(" ++ ", ".intercalate params ++ ")"
  | .blockCreated function label => "@" ++ function ++ ": new block " ++ label
  | .elseShortened function statements =>
    "@" ++ function ++ ": else clause has " ++ toString statements ++
      " statements, lowering only the first"
  | .functionFinished name => "finished @" ++ name
  | .programLowered functions => "lowered " ++ toString functions ++ " function(s)"
  | .opExecuted function label op => "@" ++ function ++ " " ++ label ++ ": " ++ op.recordForm
  | .valuePrinted value => "print(" ++ toString value ++ ")"
  | .outputWritten stage path => "wrote " ++ stage ++ " to " ++ quoted path
  | .callFinished name steps => "@" ++ name ++ " finished after " ++ toString steps ++ " steps"

end Event

end Blockform
