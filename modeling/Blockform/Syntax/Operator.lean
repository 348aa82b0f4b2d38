-- SUMMARY: The operators a syntax tree can name: binary, unary, boolean and comparing.
/-!
# Operators

A tree may name more operators than the compiler accepts, so that lowering can
refuse one by name. Each operator has the name that a tree spells it by and the
symbol that source text writes it with.
-/

namespace Blockform

/-! ## Arithmetic -/

/-- Arithmetic and bitwise operators of two operands. -/
inductive BinaryOperator where
  | add
  | sub
  | mult
  | div
  | floorDiv
  | mod
  | pow
  | lShift
  | rShift
  | bitOr
  | bitXor
  | bitAnd
deriving DecidableEq, Inhabited

namespace BinaryOperator

/-- Every operator, in the order of their declaration. -/
def all : List BinaryOperator :=
  [.add, .sub, .mult, .div, .floorDiv, .mod, .pow, .lShift, .rShift, .bitOr, .bitXor, .bitAnd]

/-- The operator's name in a tree. -/
def name : BinaryOperator → String
  | .add => "Add"
  | .sub => "Sub"
  | .mult => "Mult"
  | .div => "Div"
  | .floorDiv => "FloorDiv"
  | .mod => "Mod"
  | .pow => "Pow"
  | .lShift => "LShift"
  | .rShift => "RShift"
  | .bitOr => "BitOr"
  | .bitXor => "BitXor"
  | .bitAnd => "BitAnd"

/-- The operator in source text. -/
def symbol : BinaryOperator → String
  | .add => "+"
  | .sub => "-"
  | .mult => "*"
  | .div => "/"
  | .floorDiv => "//"
  | .mod => "%"
  | .pow => "**"
  | .lShift => "<<"
  | .rShift => ">>"
  | .bitOr => "|"
  | .bitXor => "^"
  | .bitAnd => "&"

theorem mem_all (op : BinaryOperator) : op ∈ all := by cases op <;> decide

end BinaryOperator

/-- Operators of one operand. -/
inductive UnaryOperator where
  | uSub
  | uAdd
  | not
  | invert
deriving DecidableEq, Inhabited

namespace UnaryOperator

/-- Every operator, in the order of their declaration. -/
def all : List UnaryOperator :=
  [.uSub, .uAdd, .not, .invert]

/-- The operator's name in a tree. -/
def name : UnaryOperator → String
  | .uSub => "USub"
  | .uAdd => "UAdd"
  | .not => "Not"
  | .invert => "Invert"

/-- The operator in source text, with the blank that a word needs behind it. -/
def symbol : UnaryOperator → String
  | .uSub => "-"
  | .uAdd => "+"
  | .not => "not "
  | .invert => "~"

theorem mem_all (op : UnaryOperator) : op ∈ all := by cases op <;> decide

end UnaryOperator

/-! ## Truth values -/

/-- Operators that join any number of truth values. -/
inductive BoolOperator where
  | and
  | or
deriving DecidableEq, Inhabited

namespace BoolOperator

/-- Every operator, in the order of their declaration. -/
def all : List BoolOperator :=
  [.and, .or]

/-- The operator's name in a tree. -/
def name : BoolOperator → String
  | .and => "And"
  | .or => "Or"

/-- The operator in source text. -/
def keyword : BoolOperator → String
  | .and => "and"
  | .or => "or"

theorem mem_all (op : BoolOperator) : op ∈ all := by cases op <;> decide

end BoolOperator

/-- Comparisons. -/
inductive CompareOperator where
  | eq
  | notEq
  | lt
  | ltE
  | gt
  | gtE
  | is
  | isNot
  | isIn
  | notIn
deriving DecidableEq, Inhabited

namespace CompareOperator

/-- Every operator, in the order of their declaration. -/
def all : List CompareOperator :=
  [.eq, .notEq, .lt, .ltE, .gt, .gtE, .is, .isNot, .isIn, .notIn]

/-- The operator's name in a tree. -/
def name : CompareOperator → String
  | .eq => "Eq"
  | .notEq => "NotEq"
  | .lt => "Lt"
  | .ltE => "LtE"
  | .gt => "Gt"
  | .gtE => "GtE"
  | .is => "Is"
  | .isNot => "IsNot"
  | .isIn => "In"
  | .notIn => "NotIn"

/-- The operator in source text. -/
def symbol : CompareOperator → String
  | .eq => "=="
  | .notEq => "!="
  | .lt => "<"
  | .ltE => "<="
  | .gt => ">"
  | .gtE => ">="
  | .is => "is"
  | .isNot => "is not"
  | .isIn => "in"
  | .notIn => "not in"

theorem mem_all (op : CompareOperator) : op ∈ all := by cases op <;> decide

end CompareOperator

end Blockform
