-- SUMMARY: The activation of a function body (`Frame`), and what a call leads to (`Entry`).
import Blockform.IR.Program
import Blockform.Lowering.Options
import Blockform.Machine.Error
import Blockform.Machine.Options
import Std.Data.TreeMap.Basic

/-!
# Frames

A frame holds what one activation of a function body knows: its arguments, the
results of the operations it has executed, the contents of its slots, and the
operations of the current block that are still to come. A truth value is the
integer 0 or 1.
-/

namespace Blockform

/-- The activation of a function body. `rest` is the end of the operations of
    `block` that has not been executed yet. -/
structure Frame where
  function : Function
  args : List Int32
  results : Std.TreeMap Nat Int32
  slots : List Int32
  block : Block
  rest : List Op

namespace Frame

/-- A fresh activation, at the start of the entry block: no result has been
    computed and all slots hold zero. -/
def start (f : Function) (args : List Int32) (entry : Block) : Frame where
  function := f
  args := args
  results := ∅
  slots := f.slots.map fun _ => 0
  block := entry
  rest := entry.ops

/-- The value of an operand. -/
def eval (fr : Frame) : Value → Except ExecError Int32
  | .const _ value => .ok value
  | .param index =>
    match fr.args[index]? with
    | some v => .ok v
    | none => .error (.noArgument fr.function.name index)
  | .inst id _ =>
    match fr.results[id.val]? with
    | some v => .ok v
    | none => .error (.notComputed fr.function.name id)

/-- The values of operands, from the left. -/
def evalAll (fr : Frame) (values : List Value) : Except ExecError (List Int32) :=
  values.mapM fr.eval

/-- The frame with the result of an operation. -/
def define (fr : Frame) (id : InstId) (v : Int32) : Frame :=
  { fr with results := fr.results.insert id.val v }

/-- The frame at the start of a block. -/
def jump (fr : Frame) (b : Block) : Frame := { fr with block := b, rest := b.ops }

end Frame

/-! ## Arithmetic -/

/-- Arithmetic on 32-bit words, which wraps around. A remainder is taken of
    unsigned words, and by zero there is none. -/
def BinaryOp.eval : BinaryOp → Int32 → Int32 → Option Int32
  | .add, a, b => some (a + b)
  | .sub, a, b => some (a - b)
  | .mul, a, b => some (a * b)
  | .urem, a, b => if b = 0 then none else some (a.toUInt32 % b.toUInt32).toInt32
  | .and, a, b => some (a &&& b)
  | .or, a, b => some (a ||| b)

/-- A comparison as the integer 0 or 1. -/
def Predicate.eval (p : Predicate) (a b : Int32) : Int32 := if p.holds a b then 1 else 0

/-! ## Calls -/

/-- What a call leads to: the output builtin prints its argument and returns
    zero at once, and a function with a body is entered. -/
inductive Entry where
  | printed (value : Int32)
  | entered (frame : Frame)

namespace Program

/-- Call a function that the host provides. -/
def callHost (name : String) (args : List Int32) : Except ExecError Int32 :=
  if name = printName then
    match args with
    | [value] => .ok value
    | _ => .error (.printArity args.length)
  else .error (.noBody name)

/-- Call a function while a number of bodies is active. -/
def enter (p : Program) (maxDepth : Nat) (active : Nat) (id : FunctionId) (args : List Int32) :
    Except (Abort ExecError) Entry :=
  match p.function? id with
  | none => .error .noEntry
  | some f =>
    match f.blocks with
    | [] => ((callHost f.name args).map .printed).mapError .error
    | entry :: _ =>
      if args.length ≠ f.params.length then
        .error (.error (.arity f.name f.params.length args.length))
      else if maxDepth ≤ active then .error (.error (.depthLimit maxDepth f.name))
      else .ok (.entered (.start f args entry))

theorem enter_declaration {p : Program} {id : FunctionId} {f : Function}
    (hf : p.function? id = some f) (hblocks : f.blocks = []) (maxDepth active : Nat)
    (args : List Int32) :
    p.enter maxDepth active id args = ((callHost f.name args).map .printed).mapError .error := by
  simp only [enter, hf, hblocks]

theorem enter_body {p : Program} {id : FunctionId} {f : Function} {entry : Block}
    {rest : List Block} (hf : p.function? id = some f) (hblocks : f.blocks = entry :: rest)
    (maxDepth active : Nat) (args : List Int32) :
    p.enter maxDepth active id args =
      if args.length ≠ f.params.length then
        .error (.error (.arity f.name f.params.length args.length))
      else if maxDepth ≤ active then .error (.error (.depthLimit maxDepth f.name))
      else .ok (.entered (.start f args entry)) := by
  simp only [enter, hf, hblocks]

end Program

end Blockform
