-- SUMMARY: Why a tree cannot be lowered.
import Blockform.Diagnostic
import Blockform.Syntax.Node

/-!
# Lowering errors

An error is raised without a position. On its way out of the tree it passes the
nodes around it, and `LoweringError.locate` takes the position of one that has a
location unless a node further in has given its own.
-/

namespace Blockform

/-- The causes of a lowering error. -/
inductive LoweringErrorKind where
  /-- A node, operator or shape that the language does not accept. -/
  | unsupportedConstruct
  /-- A read of a name that is neither a parameter nor written before. -/
  | unboundName
  /-- A function that is looked up without having been declared. -/
  | undeclaredCallee
  /-- A second body for a function that has one. -/
  | duplicateFunction
  /-- An instruction behind the terminator of its block. -/
  | closedBlock
deriving DecidableEq

namespace LoweringErrorKind

/-- The cause's name. -/
def name : LoweringErrorKind → String
  | .unsupportedConstruct => "UnsupportedConstruct"
  | .unboundName => "UnboundName"
  | .undeclaredCallee => "UndeclaredCallee"
  | .duplicateFunction => "DuplicateFunction"
  | .closedBlock => "ClosedBlock"

/-- The cause as a part of the issuer. -/
def label : LoweringErrorKind → String
  | .unsupportedConstruct => "unsupported-construct"
  | .unboundName => "unbound-name"
  | .undeclaredCallee => "undeclared-callee"
  | .duplicateFunction => "duplicate-function"
  | .closedBlock => "closed-block"

/-- Every cause, in the order of their declaration. -/
def all : List LoweringErrorKind :=
  [.unsupportedConstruct, .unboundName, .undeclaredCallee, .duplicateFunction, .closedBlock]

end LoweringErrorKind

/-- A cause with its wording and, once it is known, its position. -/
structure LoweringError where
  kind : LoweringErrorKind
  message : String
  location : Option Location := none
  span : Option Span := none
deriving DecidableEq

namespace LoweringError

/-- A construct that the language does not accept. -/
def unsupported (what : String) : LoweringError where
  kind := .unsupportedConstruct
  message := "Compiler doesn't support " ++ what ++ "."

/-- A name that a function reads and does not know. -/
def unbound (name function : String) : LoweringError where
  kind := .unboundName
  message := "Name '" ++ name ++ "' is not defined in function '" ++ function ++ "'."

/-- A function that is called and not declared. -/
def undeclared (name : String) : LoweringError where
  kind := .undeclaredCallee
  message := "Function '" ++ name ++ "' is not declared."

/-- A function that is defined twice. -/
def duplicate (name : String) : LoweringError where
  kind := .duplicateFunction
  message := "Function '" ++ name ++ "' is defined more than once."

/-- A block that is added to behind its end. -/
def closed (label function : String) : LoweringError where
  kind := .closedBlock
  message := "Block '" ++ label ++ "' in function '" ++ function ++ "' is already terminated."

/-- Take the position of a node, span included, unless a location is known. -/
def locate (e : LoweringError) (node : Node) : LoweringError :=
  if e.location.isNone then { e with location := node.location, span := node.span } else e

@[simp] theorem locate_kind (e : LoweringError) (n : Node) : (e.locate n).kind = e.kind := by
  unfold LoweringError.locate; split <;> rfl

@[simp] theorem locate_message (e : LoweringError) (n : Node) :
    (e.locate n).message = e.message := by
  unfold LoweringError.locate; split <;> rfl

/-- Taking the position of one node twice is taking it once. -/
@[simp] theorem locate_locate_self (e : LoweringError) (n : Node) :
    (e.locate n).locate n = e.locate n := by
  unfold LoweringError.locate; split <;> simp_all

/-- The error as it is reported. A closed block is a defect of lowering, not of
    the tree. -/
def diagnostic (e : LoweringError) : Diagnostic where
  level := if e.kind = .closedBlock then .critical else .error
  message := e.message
  issuer := "pyll.lower." ++ e.kind.label
  location := e.location
  span := e.span

end LoweringError

end Blockform
