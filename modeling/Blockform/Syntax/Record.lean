-- SUMMARY: A syntax tree as a one-line record.
import Blockform.Syntax.Node

/-!
# Record form

Every field of every node on one line, for a reader who debugs a tree. A node
shows its kind and, if it is known, its location; spans stay out.
-/

namespace Blockform

mutual

/-- A node: its kind, and its location behind an at sign. -/
def Node.recordForm : Node → String
  | ⟨kind, some location, _⟩ => kind.recordForm ++ " @ " ++ location.text
  | ⟨kind, none, _⟩ => kind.recordForm

/-- A kind with its fields. -/
def Kind.recordForm : Kind → String
  | .module body => recordText "Module" [("body", listText (recordForms body))]
  | .functionDef name params body =>
    recordText "FunctionDef"
      [("name", quoted name), ("params", listText (params.map quoted)),
        ("body", listText (recordForms body))]
  | .assign targets value =>
    recordText "Assign" [("targets", listText (recordForms targets)), ("value", value.recordForm)]
  | .augAssign target op value =>
    recordText "AugAssign"
      [("target", target.recordForm), ("op", op.name), ("value", value.recordForm)]
  | .expr value => recordText "Expr" [("value", value.recordForm)]
  | .ret (some value) => recordText "Return" [("value", optionText (some value.recordForm))]
  | .ret none => recordText "Return" [("value", optionText none)]
  | .ifElse test body orelse =>
    recordText "If"
      [("test", test.recordForm), ("body", listText (recordForms body)),
        ("orelse", listText (recordForms orelse))]
  | .whileLoop test body orelse =>
    recordText "While"
      [("test", test.recordForm), ("body", listText (recordForms body)),
        ("orelse", listText (recordForms orelse))]
  | .forLoop target iter body orelse =>
    recordText "For"
      [("target", target.recordForm), ("iter", iter.recordForm),
        ("body", listText (recordForms body)), ("orelse", listText (recordForms orelse))]
  | .pass => "Pass"
  | .breakLoop => "Break"
  | .continueLoop => "Continue"
  | .constant value => recordText "Constant" [("value", toString value)]
  | .str value => recordText "Str" [("value", quoted value)]
  | .name id => recordText "Name" [("id", quoted id)]
  | .unaryOp op operand => recordText "UnaryOp" [("op", op.name), ("operand", operand.recordForm)]
  | .binOp left op right =>
    recordText "BinOp" [("left", left.recordForm), ("op", op.name), ("right", right.recordForm)]
  | .boolOp op values =>
    recordText "BoolOp" [("op", op.name), ("values", listText (recordForms values))]
  | .compare left ops comparators =>
    recordText "Compare"
      [("left", left.recordForm), ("ops", listText (ops.map CompareOperator.name)),
        ("comparators", listText (recordForms comparators))]
  | .call func args keywords =>
    recordText "Call"
      [("func", func.recordForm), ("args", listText (recordForms args)),
        ("keywords", listText (keywordForms keywords))]
  | .attribute value attr =>
    recordText "Attribute" [("value", value.recordForm), ("attr", quoted attr)]

/-- Each of a list of nodes. -/
def recordForms : List Node → List String
  | [] => []
  | n :: rest => n.recordForm :: recordForms rest

/-- Each of a list of arguments passed by name. -/
def keywordForms : List Keyword → List String
  | [] => []
  | ⟨arg, value⟩ :: rest =>
    recordText "Keyword" [("arg", optionText (arg.map quoted)), ("value", value.recordForm)] ::
      keywordForms rest

end

end Blockform
