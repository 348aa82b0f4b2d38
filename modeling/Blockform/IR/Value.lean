-- SUMMARY: IR types, the numbers of instructions, slots, blocks and functions, and the values operations take.
import Blockform.Text.Quoted
import Blockform.Json

/-!
# Values

The only scalar of the language is the 32-bit integer; `i1` is the type of
comparisons and of truth values on their way into a branch. Everything in the
IR is named by a number, and each kind of number has a type of its own.
-/

namespace Blockform

/-- The type of a value. -/
inductive Ty where
  | i1
  | i32
deriving DecidableEq, Inhabited

/-- The type in IR text. -/
def Ty.text : Ty → String
  | .i1 => "i1"
  | .i32 => "i32"

/-- The type's name in records and JSON. -/
def Ty.name : Ty → String
  | .i1 => "I1"
  | .i32 => "I32"

/-! ## Numbers -/

/-- The result of an instruction, unique within its function. -/
structure InstId where
  val : Nat
deriving DecidableEq, Inhabited

/-- An index into a function's slots. -/
structure SlotId where
  val : Nat
deriving DecidableEq, Inhabited

/-- An index into a function's blocks. -/
structure BlockId where
  val : Nat
deriving DecidableEq, Inhabited

/-- An index into a program's functions. -/
structure FunctionId where
  val : Nat
deriving DecidableEq, Inhabited

/-! ## Values -/

/-- An operand: a constant, an argument of the function, or the result of an
    instruction. -/
inductive Value where
  | const (ty : Ty) (value : Int32)
  | param (index : Nat)
  | inst (id : InstId) (ty : Ty)
deriving DecidableEq, Inhabited

namespace Value

/-- An integer constant. A wider literal keeps its low 32 bits. -/
def int (value : Int64) : Value := .const .i32 value.toInt32

/-- A truth value. -/
def bool (value : Bool) : Value := .const .i1 (if value then 1 else 0)

/-- The type of the value. All parameters are integers. -/
def ty : Value → Ty
  | .const ty _ => ty
  | .param _ => .i32
  | .inst _ ty => ty

@[simp] theorem ty_const (t : Ty) (n : Int32) : (const t n).ty = t := rfl
@[simp] theorem ty_param (i : Nat) : (param i).ty = .i32 := rfl
@[simp] theorem ty_inst (id : InstId) (t : Ty) : (inst id t).ty = t := rfl
@[simp] theorem ty_int (n : Int64) : (int n).ty = .i32 := rfl
@[simp] theorem ty_bool (b : Bool) : (bool b).ty = .i1 := rfl

/-- The record form. -/
def recordForm : Value → String
  | .const ty value => recordText "Const" [("ty", ty.name), ("value", toString value)]
  | .param index => recordText "Param" [("index", toString index)]
  | .inst id ty => recordText "Inst" [("id", "InstId(" ++ toString id.val ++ ")"), ("ty", ty.name)]

/-- The JSON form. -/
def toJson : Value → Json
  | .const ty value =>
    .obj [("Const", .obj [("ty", .str ty.name), ("value", .int value.toInt)])]
  | .param index => .obj [("Param", .obj [("index", .int index)])]
  | .inst id ty => .obj [("Inst", .obj [("id", .int id.val), ("ty", .str ty.name)])]

end Value

end Blockform
