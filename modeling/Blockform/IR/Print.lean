-- SUMMARY: The text of a program.
import Blockform.Diagnostic
import Blockform.IR.Program

/-!
# IR text

A program is written function by function, in the syntax of LLVM. A result is
written as a number in the order of printing, which need not be the order in
which the results were numbered when the blocks were built: blocks of nested
control flow stand behind the block that joins them.

A program that was put together by hand may follow numbers that no table has an
entry for, or have results with numbers that cannot be counted; it has no text then.
-/

namespace Blockform

/-! ## Result numbers -/

namespace Function

/-- The position of the last of a list of results that is the given one. -/
def lastPosition (id : InstId) : List InstId → Option Nat
  | [] => none
  | d :: ds =>
    match lastPosition id ds with
    | some n => some (n + 1)
    | none => if d = id then some 0 else none

/-- The number that a result has among the results in the order of printing. One that
    nothing defines has a number past all of them. -/
def place (dests : List InstId) (id : InstId) : Nat :=
  (lastPosition id dests).getD (dests.eraseDups.length + id.val)

/-- The number that a result is printed as. The number past all results is counted in a
    64-bit word for every one, also where it is not needed. -/
def printedNumber (dests : List InstId) (id : InstId) : Except Fault Nat :=
  if dests.eraseDups.length + id.val < UInt64.size then .ok (place dests id) else .error .overflow

end Function

/-! ## Functions -/

/-- What the text of a function depends on: the program around it, and the
    results of its operations in the order of printing. -/
structure Printer where
  program : Program
  function : Function
  dests : List InstId

namespace Printer

/-- The printer of a function. -/
def of (p : Program) (f : Function) : Printer := ⟨p, f, f.dests⟩

/-- A result. -/
def result (pr : Printer) (id : InstId) : Except Fault String := do
  return "%" ++ toString (← Function.printedNumber pr.dests id)

/-- A value. A parameter without a name is written by its position. -/
def value (pr : Printer) : Value → Except Fault String
  | .const .i1 value => return flagText (value != 0)
  | .const .i32 value => return toString value
  | .param index =>
    match pr.function.params[index]? with
    | some name => return "%" ++ name
    | none => return "%arg" ++ toString index
  | .inst id _ => pr.result id

/-- A value with its type. -/
def typed (pr : Printer) (v : Value) : Except Fault String := do
  return v.ty.text ++ " " ++ (← pr.value v)

/-- The start of an operation that has a result. -/
def dest (pr : Printer) (id : InstId) : Except Fault String := do
  return (← pr.result id) ++ " = "

/-- The cell of a slot. -/
def cell (pr : Printer) (id : SlotId) : Except Fault String := do
  return "i32* %" ++ (← entryOf (pr.function.slot? id)).name ++ ".addr"

/-- An operation. -/
def op (pr : Printer) : Op → Except Fault String
  | .load dest slot => return (← pr.dest dest) ++ "load i32, " ++ (← pr.cell slot)
  | .store value slot => return "store " ++ (← pr.typed value) ++ ", " ++ (← pr.cell slot)
  | .binary dest op ty lhs rhs =>
    return (← pr.dest dest) ++ op.mnemonic ++ " " ++ ty.text ++ " " ++ (← pr.value lhs) ++ ", " ++
      (← pr.value rhs)
  | .neg dest operand => return (← pr.dest dest) ++ "sub i32 0, " ++ (← pr.value operand)
  | .icmp dest pred lhs rhs =>
    return (← pr.dest dest) ++ "icmp " ++ pred.mnemonic ++ " " ++ (← pr.typed lhs) ++ ", " ++
      (← pr.value rhs)
  | .zext dest operand => return (← pr.dest dest) ++ "zext " ++ (← pr.typed operand) ++ " to i32"
  | .call dest callee args =>
    return (← pr.dest dest) ++ "call i32 @" ++ (← entryOf (pr.program.function? callee)).name ++
      "(" ++ ", ".intercalate (← args.mapM pr.typed) ++ ")"

/-- A block as the target of a branch. -/
def target (pr : Printer) (id : BlockId) : Except Fault String := do
  return "label %" ++ (← entryOf (pr.function.block? id)).label

/-- A terminator. -/
def terminator (pr : Printer) : Terminator → Except Fault String
  | .ret value => return "ret " ++ (← pr.typed value)
  | .br target => return "br " ++ (← pr.target target)
  | .condBr cond thenBlock elseBlock =>
    return "br " ++ (← pr.typed cond) ++ ", " ++ (← pr.target thenBlock) ++ ", " ++
      (← pr.target elseBlock)

/-- The last line of a block. -/
def ending (pr : Printer) (b : Block) : Except Fault String :=
  match b.terminator with
  | some t => pr.terminator t
  | none => return "; <missing terminator>"

/-- The lines of a block, behind its label. -/
def blockLines (pr : Printer) (b : Block) : Except Fault (List String) :=
  return (← b.ops.mapM pr.op) ++ [← pr.ending b]

/-- A block; the entry block starts with the cells of all slots. -/
def block (pr : Printer) (cells : List String) (b : Block) : Except Fault String := do
  let lines ← pr.blockLines b
  return b.label ++ ":\n" ++ String.join ((cells ++ lines).map fun line => "  " ++ line ++ "\n")

/-- The blocks of a body, the entry block first. -/
def blocks (pr : Printer) : Except Fault (List String) :=
  match pr.function.blocks with
  | [] => return []
  | first :: rest => do
    let cells := pr.function.slots.map fun s => "%" ++ s.name ++ ".addr = alloca i32"
    return (← pr.block cells first) :: (← rest.mapM (pr.block []))

/-- The text of the function. -/
def text (pr : Printer) : Except Fault String := do
  let f := pr.function
  if f.isDeclaration then
    return "declare i32 @" ++ f.name ++ "(" ++
      ", ".intercalate (List.replicate f.signature.arity "i32") ++ ")\n"
  else
    let params := ", ".intercalate (f.params.map fun p => "i32 %" ++ p)
    let body := "\n".intercalate (← pr.blocks)
    return "define i32 @" ++ f.name ++ "(" ++ params ++ ") \x7b\n" ++ body ++ "\x7d\n"

end Printer

namespace Program

/-- Print a program: its functions, with an empty line between them. -/
def print (p : Program) : Except Fault String :=
  return "\n".intercalate (← p.functions.mapM fun f => (Printer.of p f).text)

/-- The text of a program, if it can be printed. -/
def text (p : Program) : Option String := p.print.toOption

end Program

end Blockform
