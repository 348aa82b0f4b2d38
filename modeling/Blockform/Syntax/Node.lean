-- SUMMARY: The syntax tree: nodes, their kinds, keyword arguments, and constructors for trees built in memory.
import Blockform.Position
import Blockform.Syntax.Operator

/-!
# Syntax trees

The tree an external parser hands over. It names more constructs than the
compiler accepts, so that lowering can refuse one with a precise message. A
`Node` is a `Kind` with the position it came from, if that is known; statements
and expressions are nodes alike, and a tree may hold either in any place.
-/

namespace Blockform

mutual

/-- A node of the tree. -/
structure Node where
  kind : Kind
  location : Option Location
  span : Option Span

/-- What a node is. -/
inductive Kind where
  | module (body : List Node)
  -- statements
  | functionDef (name : String) (params : List String) (body : List Node)
  | assign (targets : List Node) (value : Node)
  | augAssign (target : Node) (op : BinaryOperator) (value : Node)
  | expr (value : Node)
  | ret (value : Option Node)
  | ifElse (test : Node) (body : List Node) (orelse : List Node)
  | whileLoop (test : Node) (body : List Node) (orelse : List Node)
  | forLoop (target : Node) (iter : Node) (body : List Node) (orelse : List Node)
  | pass
  | breakLoop
  | continueLoop
  -- expressions
  | constant (value : Int64)
  | str (value : String)
  | name (id : String)
  | unaryOp (op : UnaryOperator) (operand : Node)
  | binOp (left : Node) (op : BinaryOperator) (right : Node)
  | boolOp (op : BoolOperator) (values : List Node)
  | compare (left : Node) (ops : List CompareOperator) (comparators : List Node)
  | call (func : Node) (args : List Node) (keywords : List Keyword)
  | attribute (value : Node) (attr : String)

/-- An argument of a call that is passed by name, or a mapping that is spread
    over such arguments. -/
structure Keyword where
  arg : Option String
  value : Node

end

instance : Inhabited Node := ⟨⟨.pass, none, none⟩⟩

namespace Kind

/-- The kind's name, in a tree's JSON and in diagnostics. -/
def title : Kind → String
  | .module .. => "Module"
  | .functionDef .. => "FunctionDef"
  | .assign .. => "Assign"
  | .augAssign .. => "AugAssign"
  | .expr .. => "Expr"
  | .ret .. => "Return"
  | .ifElse .. => "If"
  | .whileLoop .. => "While"
  | .forLoop .. => "For"
  | .pass => "Pass"
  | .breakLoop => "Break"
  | .continueLoop => "Continue"
  | .constant .. => "Constant"
  | .str .. => "Str"
  | .name .. => "Name"
  | .unaryOp .. => "UnaryOp"
  | .binOp .. => "BinOp"
  | .boolOp .. => "BoolOp"
  | .compare .. => "Compare"
  | .call .. => "Call"
  | .attribute .. => "Attribute"

/-- Does the kind have a value? -/
def isExpression : Kind → Bool
  | .constant .. | .str .. | .name .. | .unaryOp .. | .binOp .. | .boolOp .. | .compare ..
  | .call .. | .attribute .. => true
  | _ => false

/-- The nodes right below one of the kind. -/
def parts : Kind → List Node
  | .module body => body
  | .functionDef _ _ body => body
  | .assign targets value => targets ++ [value]
  | .augAssign target _ value => [target, value]
  | .expr value => [value]
  | .ret value => value.toList
  | .ifElse test body orelse => test :: (body ++ orelse)
  | .whileLoop test body orelse => test :: (body ++ orelse)
  | .forLoop target iter body orelse => target :: iter :: (body ++ orelse)
  | .unaryOp _ operand => [operand]
  | .binOp left _ right => [left, right]
  | .boolOp _ values => values
  | .compare left _ comparators => left :: comparators
  | .call func args keywords => func :: (args ++ keywords.map Keyword.value)
  | .attribute value _ => [value]
  | .pass | .breakLoop | .continueLoop | .constant _ | .str _ | .name _ => []

theorem sizeOf_parts {k : Kind} {n : Node} (h : n ∈ k.parts) : sizeOf n < sizeOf k := by
  have hmem {l : List Node} (h : n ∈ l) : sizeOf n < sizeOf l := List.sizeOf_lt_of_mem h
  have hkeyword {l : List Keyword} {w : Keyword} (h : w ∈ l) : sizeOf w.value < sizeOf l := by
    have := List.sizeOf_lt_of_mem h
    cases w
    simp at *
    omega
  cases k <;> simp [parts] at h ⊢ <;> grind

end Kind

/-- What holds of a node whenever it holds of the nodes right below it holds of
    every node. -/
theorem Node.parts_induction {P : Node → Prop}
    (step : ∀ n : Node, (∀ m ∈ n.kind.parts, P m) → P n) (n : Node) : P n :=
  step n fun m hm =>
    have : sizeOf m < sizeOf n := by
      have := Kind.sizeOf_parts hm
      cases n
      simp at *
      omega
    Node.parts_induction step m
termination_by sizeOf n

/-! ## Trees built in memory -/

namespace Node

/-- A node without a position. -/
def ofKind (kind : Kind) : Node := ⟨kind, none, none⟩

def withLocation (n : Node) (l : Location) : Node := { n with location := some l }

def withSpan (n : Node) (s : Span) : Node := { n with span := some s }

def module (body : List Node) : Node := ofKind (.module body)

def name (id : String) : Node := ofKind (.name id)

def int (value : Int64) : Node := ofKind (.constant value)

def functionDef (name : String) (params : List String) (body : List Node) : Node :=
  ofKind (.functionDef name params body)

/-- An assignment to a variable. -/
def assign (target : String) (value : Node) : Node := ofKind (.assign [name target] value)

def assignMany (targets : List Node) (value : Node) : Node := ofKind (.assign targets value)

def exprStmt (value : Node) : Node := ofKind (.expr value)

def ret (value : Node) : Node := ofKind (.ret (some value))

def retNone : Node := ofKind (.ret none)

def ifElse (test : Node) (body orelse : List Node) : Node := ofKind (.ifElse test body orelse)

def whileLoop (test : Node) (body : List Node) : Node := ofKind (.whileLoop test body [])

def unary (op : UnaryOperator) (operand : Node) : Node := ofKind (.unaryOp op operand)

def neg (operand : Node) : Node := unary .uSub operand

def binop (left : Node) (op : BinaryOperator) (right : Node) : Node := ofKind (.binOp left op right)

def and (values : List Node) : Node := ofKind (.boolOp .and values)

def or (values : List Node) : Node := ofKind (.boolOp .or values)

/-- A comparison of one value with each of a chain of others. -/
def compareChain (left : Node) (rest : List (CompareOperator × Node)) : Node :=
  ofKind (.compare left (rest.map Prod.fst) (rest.map Prod.snd))

def compare (left : Node) (op : CompareOperator) (right : Node) : Node :=
  compareChain left [(op, right)]

def call (callee : String) (args : List Node) : Node := ofKind (.call (name callee) args [])

/-- A call with arguments passed by name. -/
def callKeywords (callee : String) (args : List Node) (keywords : List (String × Node)) : Node :=
  ofKind (.call (name callee) args (keywords.map fun (arg, value) => ⟨some arg, value⟩))

end Node

end Blockform
