-- SUMMARY: Why a run ends without a value.
import Blockform.Diagnostic
import Blockform.IR.Value

/-!
# Run errors
-/

namespace Blockform

/-- The kinds of run errors. -/
inductive ExecErrorKind where
  | unknownFunction
  | arityMismatch
  | stepLimit
  | depthLimit
  | remainderByZero
  | undefinedValue
  | missingTerminator
deriving DecidableEq

/-- The kind's name. -/
def ExecErrorKind.name : ExecErrorKind → String
  | .unknownFunction => "UnknownFunction"
  | .arityMismatch => "ArityMismatch"
  | .stepLimit => "StepLimit"
  | .depthLimit => "DepthLimit"
  | .remainderByZero => "RemainderByZero"
  | .undefinedValue => "UndefinedValue"
  | .missingTerminator => "MissingTerminator"

/-- An error of a run, with what its wording needs. -/
inductive ExecError where
  /-- No function bears the name. -/
  | unregistered (name : String)
  /-- A declared function that the host does not provide. -/
  | noBody (name : String)
  /-- A call with the wrong number of arguments. -/
  | arity (name : String) (params args : Nat)
  /-- A call of the output builtin with the wrong number of arguments. -/
  | printArity (args : Nat)
  | stepLimit (limit : Nat)
  /-- One active body too many. -/
  | depthLimit (limit : Nat) (function : String)
  | remainderByZero (function : String)
  /-- A parameter that the call gave no argument for. -/
  | noArgument (function : String) (index : Nat)
  /-- A result that is used before its operation was executed. -/
  | notComputed (function : String) (id : InstId)
  | missingTerminator (function label : String)
deriving DecidableEq

namespace ExecError

/-- The kind of the error. -/
def kind : ExecError → ExecErrorKind
  | .unregistered .. | .noBody .. => .unknownFunction
  | .arity .. | .printArity .. => .arityMismatch
  | .stepLimit .. => .stepLimit
  | .depthLimit .. => .depthLimit
  | .remainderByZero .. => .remainderByZero
  | .noArgument .. | .notComputed .. => .undefinedValue
  | .missingTerminator .. => .missingTerminator

/-- The wording of the error. -/
def message : ExecError → String
  | .unregistered name => "no function named @" ++ name
  | .noBody name => "@" ++ name ++ " is declared but has no body and is not a builtin"
  | .arity name params args =>
    "@" ++ name ++ " takes " ++ toString params ++ " argument(s), got " ++ toString args
  | .printArity args => "@print takes 1 argument, got " ++ toString args
  | .stepLimit limit => "execution exceeded " ++ toString limit ++ " steps"
  | .depthLimit limit function => "call depth exceeded " ++ toString limit ++ " in @" ++ function
  | .remainderByZero function => "@" ++ function ++ ": remainder by zero"
  | .noArgument function index => "@" ++ function ++ ": no argument #" ++ toString index
  | .notComputed function id =>
    "@" ++ function ++ ": %" ++ toString id.val ++ " used before it was computed"
  | .missingTerminator function label =>
    "@" ++ function ++ ": block '" ++ label ++ "' has no terminator"

/-- The error as it is reported. -/
def diagnostic (e : ExecError) : Diagnostic where
  message := e.message
  issuer := "pyll.vm"

end ExecError

end Blockform
