-- SUMMARY: Structural checks of a finished program.
import Blockform.Diagnostic
import Blockform.IR.Program

/-!
# Verification

What a consumer of a program relies on: every result is defined once, every
number has an entry in its table, types agree where they matter, and every
block ends. Lowering is expected to build only such programs. The first fault
in the order of the text is reported.
-/

namespace Blockform

/-- A fault, and the function it is in. -/
structure VerifyError where
  function : String
  fault : String
deriving DecidableEq

/-- The fault as it is reported. -/
def VerifyError.diagnostic (e : VerifyError) : Diagnostic where
  level := .critical
  message := "in @" ++ e.function ++ ": " ++ e.fault
  issuer := "pyll.verify"

/-- Checking fails with the first fault. -/
abbrev Check := Except String Unit

/-- A condition, and the fault of its failure. -/
def require (ok : Bool) (fault : String) : Check :=
  if ok then .ok () else .error fault

namespace Function

/-- The first result that an earlier operation has defined already. -/
def firstRedefined : List InstId → List InstId → Option InstId
  | _, [] => none
  | seen, d :: ds => if d ∈ seen then some d else firstRedefined (d :: seen) ds

/-- The tables that the operands of a function are checked against. -/
structure Scope where
  program : Program
  function : Function
  dests : List InstId

namespace Scope

/-- A parameter exists and a result is defined somewhere in the function. -/
def checkValue (s : Scope) : Value → Check
  | .param index =>
    require (index < s.function.params.length) ("parameter #" ++ toString index ++ " out of range")
  | .inst id _ =>
    require (id ∈ s.dests) ("use of undefined value %" ++ toString id.val)
  | .const .. => .ok ()

/-- A block exists. -/
def checkTarget (s : Scope) (target : BlockId) : Check :=
  require (target.val < s.function.blocks.length)
    ("branch to missing block #" ++ toString target.val)

/-- A slot exists. -/
def checkSlot (s : Scope) (label : String) (slot : SlotId) : Check :=
  require (slot.val < s.function.slots.length)
    ("slot #" ++ toString slot.val ++ " out of range in block '" ++ label ++ "'")

/-- An operation of a block. -/
def checkOp (s : Scope) (label : String) (op : Op) : Check := do
  op.operands.forM s.checkValue
  match op with
  | .load _ slot => s.checkSlot label slot
  | .store value slot =>
    s.checkSlot label slot
    require (value.ty = .i32) ("store of a non-i32 value in block '" ++ label ++ "'")
  | .binary _ _ ty lhs rhs =>
    require (lhs.ty = ty && rhs.ty = ty) ("operand type mismatch in block '" ++ label ++ "'")
  | .call _ callee _ =>
    require (callee.val < s.program.size) ("call to unknown function #" ++ toString callee.val)
  | .neg .. | .icmp .. | .zext .. => .ok ()

/-- The end of a block. -/
def checkEnd (s : Scope) (b : Block) : Check :=
  match b.terminator with
  | none => .error ("block '" ++ b.label ++ "' has no terminator")
  | some (.ret value) => s.checkValue value
  | some (.br target) => s.checkTarget target
  | some (.condBr cond thenBlock elseBlock) => do
    s.checkValue cond
    require (cond.ty = .i1) ("conditional branch on non-i1 value in block '" ++ b.label ++ "'")
    s.checkTarget thenBlock
    s.checkTarget elseBlock

/-- A block. -/
def checkBlock (s : Scope) (b : Block) : Check := do
  b.ops.forM (s.checkOp b.label)
  s.checkEnd b

end Scope

/-- A function with a body. -/
def check (p : Program) (f : Function) : Check := do
  match firstRedefined [] f.dests with
  | some id => .error ("%" ++ toString id.val ++ " is defined more than once")
  | none => f.blocks.forM (Scope.mk p f f.dests).checkBlock

end Function

namespace Program

/-- Check every function that has a body, in order. -/
def verify (p : Program) : Except VerifyError Unit :=
  p.functions.forM fun f =>
    if f.isDeclaration then .ok () else (f.check p).mapError (VerifyError.mk f.name)

end Program

end Blockform
