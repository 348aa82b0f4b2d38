-- SUMMARY: Lowering of expressions.
import Blockform.Lowering.Context

/-!
# Expressions

Every expression is lowered to one value in the block under the cursor. No
expression creates a block: the boolean operators take the value of all their
operands, so control flow comes from statements alone.
-/

namespace Blockform

/-! ## Operators -/

/-- The arithmetic of an operator that the language accepts. -/
def BinaryOperator.arithmetic : BinaryOperator → Option BinaryOp
  | .add => some .add
  | .sub => some .sub
  | .mult => some .mul
  | .mod => some .urem
  | .div | .floorDiv | .pow | .lShift | .rShift | .bitOr | .bitXor | .bitAnd => none

/-- The comparison of an operator that the language accepts. -/
def CompareOperator.predicate : CompareOperator → Option Predicate
  | .gt => some .sgt
  | .gtE => some .sge
  | .lt => some .slt
  | .ltE => some .sle
  | .eq => some .eq
  | .notEq => some .ne
  | .is | .isNot | .isIn | .notIn => none

/-- The logic of an operator on truth values. -/
def BoolOperator.logic : BoolOperator → BinaryOp
  | .and => .and
  | .or => .or

namespace Lower

/-! ## Steps of an expression -/

/-- Refuse a construct. -/
def unsupported (what : String) : Lower α := fail (.unsupported what)

/-- Refuse an operator. -/
def unsupportedOperator (name : String) : Lower α := unsupported ("\"" ++ name ++ "\" operator")

/-- The value of a step, widened to an integer. -/
def asInt (x : Lower Value) : Lower Value := do build (Build.toInt (← x))

/-- The truth value of a step, which lowers a node. -/
def asCondition (node : Node) (x : Lower Value) : Lower Value := do
  let value ← x
  locating node (build (Build.toBool value))

/-- Join truth values from the left. -/
def join (op : BinaryOp) (first : Value) (rest : List Value) : Lower Value :=
  rest.foldlM (fun acc v => build (Build.binary op acc v)) first

/-! ## Expressions -/

mutual

/-- Lower a node in the place of an expression. -/
def expr : Node → Lower Value
  | ⟨kind, location, span⟩ => locating ⟨kind, location, span⟩ (exprKind kind)

/-- Lower a kind in the place of an expression. -/
def exprKind : Kind → Lower Value
  | .constant value => pure (.int value)
  | .name id => build (Build.read id)
  | .unaryOp .uSub operand => do
    let v ← asInt (expr operand)
    build (Build.neg v)
  | .unaryOp op _ => unsupportedOperator op.name
  | .binOp left op right =>
    match op.arithmetic with
    | none => unsupportedOperator op.name
    | some arithmetic => do
      let lhs ← asInt (expr left)
      let rhs ← asInt (expr right)
      build (Build.binary arithmetic lhs rhs)
  | .boolOp _ [] => unsupported "empty boolean expression"
  | .boolOp op (first :: rest) => do
    let first ← asCondition first (expr first)
    let rest ← conditions rest
    join op.logic first rest
  | .compare left [op] [right] =>
    match op.predicate with
    | none => unsupportedOperator op.name
    | some predicate => do
      let lhs ← asInt (expr left)
      let rhs ← asInt (expr right)
      build (Build.icmp predicate lhs rhs)
  | .compare .. => unsupported "multiple comparison expression"
  | .call _ _ (_ :: _) => unsupported "keyword arguments"
  | .call ⟨.name id, _, _⟩ args [] => do
    let callee ← resolve id args.length
    let values ← arguments args
    build (Build.call callee values)
  | .call func _ [] =>
    locating func (unsupported ("calling a \"" ++ func.kind.title ++ "\" expression"))
  | .str value => unsupported ("\"" ++ (Kind.str value).title ++ "\" expressions")
  | .attribute value attr =>
    unsupported ("\"" ++ (Kind.attribute value attr).title ++ "\" expressions")
  | kind => unsupported ("\"" ++ kind.title ++ "\" in expression position")

/-- Lower the operands of a boolean operator to truth values. -/
def conditions : List Node → Lower (List Value)
  | [] => pure []
  | n :: rest => do
    let v ← asCondition n (expr n)
    let vs ← conditions rest
    pure (v :: vs)

/-- Lower the arguments of a call to integers. -/
def arguments : List Node → Lower (List Value)
  | [] => pure []
  | n :: rest => do
    let v ← asInt (expr n)
    let vs ← arguments rest
    pure (v :: vs)

end

/-- Lower a node to a truth value. -/
def condition (node : Node) : Lower Value := asCondition node (expr node)

end Lower

end Blockform
