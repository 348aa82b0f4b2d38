-- SUMMARY: IR operations and block terminators.
import Blockform.IR.Value

/-!
# Operations

An operation computes at most one result, `Op.dest`, from its operands. A block
holds operations and ends with a terminator, which says where control goes.
-/

namespace Blockform

/-! ## Operators -/

/-- Arithmetic and logic on two operands of one type. -/
inductive BinaryOp where
  | add
  | sub
  | mul
  | urem
  | and
  | or
deriving DecidableEq, Inhabited

namespace BinaryOp

/-- Every operator, in the order of their declaration. -/
def all : List BinaryOp := [.add, .sub, .mul, .urem, .and, .or]

/-- The operator in IR text. -/
def mnemonic : BinaryOp → String
  | .add => "add"
  | .sub => "sub"
  | .mul => "mul"
  | .urem => "urem"
  | .and => "and"
  | .or => "or"

/-- The operator's name in records and JSON. -/
def name : BinaryOp → String
  | .add => "Add"
  | .sub => "Sub"
  | .mul => "Mul"
  | .urem => "URem"
  | .and => "And"
  | .or => "Or"

end BinaryOp

/-- A comparison of signed integers. -/
inductive Predicate where
  | eq
  | ne
  | sgt
  | sge
  | slt
  | sle
deriving DecidableEq, Inhabited

namespace Predicate

/-- Every comparison, in the order of their declaration. -/
def all : List Predicate := [.eq, .ne, .sgt, .sge, .slt, .sle]

/-- The comparison in IR text. -/
def mnemonic : Predicate → String
  | .eq => "eq"
  | .ne => "ne"
  | .sgt => "sgt"
  | .sge => "sge"
  | .slt => "slt"
  | .sle => "sle"

/-- The comparison's name in records and JSON. -/
def name : Predicate → String
  | .eq => "Eq"
  | .ne => "Ne"
  | .sgt => "Sgt"
  | .sge => "Sge"
  | .slt => "Slt"
  | .sle => "Sle"

/-- Does the comparison hold? -/
def holds : Predicate → Int32 → Int32 → Bool
  | .eq, a, b => a == b
  | .ne, a, b => a != b
  | .sgt, a, b => b < a
  | .sge, a, b => b ≤ a
  | .slt, a, b => a < b
  | .sle, a, b => a ≤ b

end Predicate

/-! ## Operations -/

/-- An operation inside a block. -/
inductive Op where
  | load (dest : InstId) (slot : SlotId)
  | store (value : Value) (slot : SlotId)
  | binary (dest : InstId) (op : BinaryOp) (ty : Ty) (lhs rhs : Value)
  | neg (dest : InstId) (operand : Value)
  | icmp (dest : InstId) (pred : Predicate) (lhs rhs : Value)
  | zext (dest : InstId) (operand : Value)
  | call (dest : InstId) (callee : FunctionId) (args : List Value)
deriving DecidableEq, Inhabited

namespace Op

/-- The result that the operation defines. -/
def dest : Op → Option InstId
  | .store .. => none
  | .load dest _ | .binary dest .. | .neg dest _ | .icmp dest .. | .zext dest _ | .call dest .. =>
    some dest

/-- The values that the operation takes, in order. -/
def operands : Op → List Value
  | .load .. => []
  | .store value _ => [value]
  | .binary _ _ _ lhs rhs | .icmp _ _ lhs rhs => [lhs, rhs]
  | .neg _ operand | .zext _ operand => [operand]
  | .call _ _ args => args

/-- The record form of a result number. -/
def destForm (id : InstId) : String × String := ("dest", "InstId(" ++ toString id.val ++ ")")

/-- The record form of a slot number. -/
def slotForm (id : SlotId) : String × String := ("slot", "SlotId(" ++ toString id.val ++ ")")

/-- The record form. -/
def recordForm : Op → String
  | .load dest slot => recordText "Load" [destForm dest, slotForm slot]
  | .store value slot => recordText "Store" [("value", value.recordForm), slotForm slot]
  | .binary dest op ty lhs rhs =>
    recordText "Binary"
      [destForm dest, ("op", op.name), ("ty", ty.name), ("lhs", lhs.recordForm),
        ("rhs", rhs.recordForm)]
  | .neg dest operand => recordText "Neg" [destForm dest, ("operand", operand.recordForm)]
  | .icmp dest pred lhs rhs =>
    recordText "ICmp"
      [destForm dest, ("pred", pred.name), ("lhs", lhs.recordForm), ("rhs", rhs.recordForm)]
  | .zext dest operand => recordText "ZExt" [destForm dest, ("operand", operand.recordForm)]
  | .call dest callee args =>
    recordText "Call"
      [destForm dest, ("callee", "FunctionId(" ++ toString callee.val ++ ")"),
        ("args", listText (args.map Value.recordForm))]

/-- The JSON form. -/
def toJson : Op → Json
  | .load dest slot =>
    .obj [("Load", .obj [("dest", .int dest.val), ("slot", .int slot.val)])]
  | .store value slot =>
    .obj [("Store", .obj [("value", value.toJson), ("slot", .int slot.val)])]
  | .binary dest op ty lhs rhs =>
    .obj [("Binary", .obj
      [("dest", .int dest.val), ("op", .str op.name), ("ty", .str ty.name), ("lhs", lhs.toJson),
        ("rhs", rhs.toJson)])]
  | .neg dest operand =>
    .obj [("Neg", .obj [("dest", .int dest.val), ("operand", operand.toJson)])]
  | .icmp dest pred lhs rhs =>
    .obj [("ICmp", .obj
      [("dest", .int dest.val), ("pred", .str pred.name), ("lhs", lhs.toJson),
        ("rhs", rhs.toJson)])]
  | .zext dest operand =>
    .obj [("ZExt", .obj [("dest", .int dest.val), ("operand", operand.toJson)])]
  | .call dest callee args =>
    .obj [("Call", .obj
      [("dest", .int dest.val), ("callee", .int callee.val),
        ("args", .arr (args.map Value.toJson))])]

end Op

/-! ## Terminators -/

/-- The end of a block. -/
inductive Terminator where
  | ret (value : Value)
  | br (target : BlockId)
  | condBr (cond : Value) (thenBlock elseBlock : BlockId)
deriving DecidableEq, Inhabited

namespace Terminator

/-- The blocks that may come next. -/
def successors : Terminator → List BlockId
  | .ret _ => []
  | .br target => [target]
  | .condBr _ thenBlock elseBlock => [thenBlock, elseBlock]

/-- The values that the terminator takes. -/
def operands : Terminator → List Value
  | .ret value => [value]
  | .br _ => []
  | .condBr cond _ _ => [cond]

/-- The JSON form. -/
def toJson : Terminator → Json
  | .ret value => .obj [("Ret", .obj [("value", value.toJson)])]
  | .br target => .obj [("Br", .obj [("target", .int target.val)])]
  | .condBr cond thenBlock elseBlock =>
    .obj [("CondBr", .obj
      [("cond", cond.toJson), ("then_block", .int thenBlock.val),
        ("else_block", .int elseBlock.val)])]

end Terminator

end Blockform
