-- SUMMARY: A syntax tree as JSON.
import Blockform.Syntax.Node

/-!
# Trees as JSON

A node is an object with its kind, and with its location and span when they are
known. A kind without fields is its bare name; any other is an object whose one
field, the kind's name, holds the kind's fields in order. All of those are
written, empty lists and absent values included. Reading is in
`Blockform.Reader.Form`.
-/

namespace Blockform

/-- An object of one field. -/
def Json.tagged (tag : String) (fields : List (String × Json)) : Json := .obj [(tag, .obj fields)]

mutual

/-- The JSON form of a node. -/
def Node.toJson : Node → Json
  | ⟨kind, location, span⟩ =>
    .obj (("kind", kind.toJson) ::
      ((location.map fun l => ("location", l.toJson)).toList ++
        (span.map fun s => ("span", s.toJson)).toList))

/-- The JSON form of a kind. -/
def Kind.toJson : Kind → Json
  | .module body => .tagged "Module" [("body", .arr (nodesToJson body))]
  | .functionDef name params body =>
    .tagged "FunctionDef"
      [("name", .str name), ("params", .arr (params.map .str)), ("body", .arr (nodesToJson body))]
  | .assign targets value =>
    .tagged "Assign" [("targets", .arr (nodesToJson targets)), ("value", value.toJson)]
  | .augAssign target op value =>
    .tagged "AugAssign" [("target", target.toJson), ("op", .str op.name), ("value", value.toJson)]
  | .expr value => .tagged "Expr" [("value", value.toJson)]
  | .ret (some value) => .tagged "Return" [("value", value.toJson)]
  | .ret none => .tagged "Return" [("value", .null)]
  | .ifElse test body orelse =>
    .tagged "If"
      [("test", test.toJson), ("body", .arr (nodesToJson body)),
        ("orelse", .arr (nodesToJson orelse))]
  | .whileLoop test body orelse =>
    .tagged "While"
      [("test", test.toJson), ("body", .arr (nodesToJson body)),
        ("orelse", .arr (nodesToJson orelse))]
  | .forLoop target iter body orelse =>
    .tagged "For"
      [("target", target.toJson), ("iter", iter.toJson), ("body", .arr (nodesToJson body)),
        ("orelse", .arr (nodesToJson orelse))]
  | .pass => .str "Pass"
  | .breakLoop => .str "Break"
  | .continueLoop => .str "Continue"
  | .constant value => .tagged "Constant" [("value", .int value.toInt)]
  | .str value => .tagged "Str" [("value", .str value)]
  | .name id => .tagged "Name" [("id", .str id)]
  | .unaryOp op operand => .tagged "UnaryOp" [("op", .str op.name), ("operand", operand.toJson)]
  | .binOp left op right =>
    .tagged "BinOp" [("left", left.toJson), ("op", .str op.name), ("right", right.toJson)]
  | .boolOp op values =>
    .tagged "BoolOp" [("op", .str op.name), ("values", .arr (nodesToJson values))]
  | .compare left ops comparators =>
    .tagged "Compare"
      [("left", left.toJson), ("ops", .arr (ops.map fun op => .str op.name)),
        ("comparators", .arr (nodesToJson comparators))]
  | .call func args keywords =>
    .tagged "Call"
      [("func", func.toJson), ("args", .arr (nodesToJson args)),
        ("keywords", .arr (keywordsToJson keywords))]
  | .attribute value attr => .tagged "Attribute" [("value", value.toJson), ("attr", .str attr)]

/-- The JSON form of each node. -/
def nodesToJson : List Node → List Json
  | [] => []
  | n :: rest => n.toJson :: nodesToJson rest

/-- The JSON form of each argument passed by name. -/
def keywordsToJson : List Keyword → List Json
  | [] => []
  | ⟨arg, value⟩ :: rest =>
    .obj [("arg", (arg.map Json.str).getD .null), ("value", value.toJson)] :: keywordsToJson rest

end

end Blockform
