-- SUMMARY: The forms of JSON values the program reads (`Form`), and the fields of their records.
import Blockform.Lowering.Options
import Blockform.Machine.Options
import Blockform.Syntax.Node

/-!
# Forms

A `Form` says what is expected at a place of a JSON text, and `Form.Val` which
type a value of that form is read into. The forms of records are tables: which
fields there are, in which order, and what a field that is missing stands for.
`Blockform.Reader.Record` reads by these tables.
-/

namespace Blockform.Reader

/-- What may be expected of a value. -/
inductive Form where
  | int64
  | size
  | flag
  | text
  | binaryOperator
  | unaryOperator
  | boolOperator
  | compareOperator
  | location
  | span
  | kind
  | node
  | keyword
  | lowerOptions
  | execOptions
  | list (item : Form)

/-- The type that values of a form are read into. -/
def Form.Val : Form → Type
  | .int64 => Int64
  | .size => UInt64
  | .flag => Bool
  | .text => String
  | .binaryOperator => BinaryOperator
  | .unaryOperator => UnaryOperator
  | .boolOperator => BoolOperator
  | .compareOperator => CompareOperator
  | .location => Location
  | .span => Span
  | .kind => Kind
  | .node => Node
  | .keyword => Keyword
  | .lowerOptions => LowerOptions
  | .execOptions => ExecOptions
  | .list item => List item.Val

/-! ## Fields -/

/-- A field of a record. An object may leave out an optional field, and a record
    written as a list may end before it only if `inLists` is set. A defaulted
    field may be left out in both. -/
inductive Field where
  | required (name : String) (form : Form)
  | optional (name : String) (form : Form) (inLists : Bool)
  | defaulted (name : String) (form : Form) (value : form.Val)

namespace Field

/-- The key of the field. -/
def name : Field → String
  | .required name _ => name
  | .optional name _ _ => name
  | .defaulted name _ _ => name

/-- The type of the field's value. -/
def Val : Field → Type
  | .required _ form => form.Val
  | .optional _ form _ => Option form.Val
  | .defaulted _ form _ => form.Val

/-- What a field stands for that an object leaves out. -/
def inObject : (f : Field) → Option f.Val
  | .required _ _ => none
  | .optional _ _ _ => some none
  | .defaulted _ _ value => some value

/-- What a field stands for that a list ends before. -/
def inList : (f : Field) → Option f.Val
  | .required _ _ => none
  | .optional _ _ inLists => if inLists then some none else none
  | .defaulted _ _ value => some value

end Field

/-- The values of a record's fields. -/
def Fields : List Field → Type
  | [] => Unit
  | f :: fs => f.Val × Fields fs

/-- The values that have been read so far. -/
def Partial : List Field → Type
  | [] => Unit
  | f :: fs => Option f.Val × Partial fs

/-- Nothing has been read yet. -/
def Partial.empty : (fs : List Field) → Partial fs
  | [] => ()
  | _ :: fs => (none, Partial.empty fs)

/-- A record: its name in error messages, its fields, and the value they make. -/
structure Record (α : Type) where
  title : String
  fields : List Field
  build : Fields fields → α

/-- The record's name with the number of its fields. -/
def Record.counted (r : Record α) : String :=
  let n := r.fields.length
  r.title ++ " with " ++ toString n ++ (if n = 1 then " element" else " elements")

/-! ## Records of the tree -/

/-- A location; only the line must be given. -/
def locationRecord : Record Location where
  title := "struct Location"
  fields :=
    [.defaulted "file" .text "", .required "line" .size, .defaulted "column" .size (0 : UInt64)]
  build := fun (file, line, column, ()) => ⟨file, line, column⟩

/-- A span. -/
def spanRecord : Record Span where
  title := "struct Span"
  fields := [.required "start" .location, .required "end" .location]
  build := fun (start, finish, ()) => ⟨start, finish⟩

/-- A node of the tree. -/
def nodeRecord : Record Node where
  title := "struct AstNode"
  fields :=
    [.required "kind" .kind, .optional "location" .location true, .optional "span" .span true]
  build := fun (kind, location, span, ()) => ⟨kind, location, span⟩

/-- An argument passed by name. -/
def keywordRecord : Record Keyword where
  title := "struct Keyword"
  fields := [.optional "arg" .text false, .required "value" .node]
  build := fun (arg, value, ()) => ⟨arg, value⟩

/-- The options of a lowering. -/
def lowerOptionsRecord : Record LowerOptions where
  title := "struct LowerOptions"
  fields :=
    let standard : LowerOptions := {}
    [.defaulted "entry_name" .text standard.entryName,
      .defaulted "auto_declare_callees" .flag standard.autoDeclareCallees,
      .defaulted "builtins" (.list .text) standard.builtins]
  build := fun (entryName, autoDeclareCallees, builtins, ()) =>
    ⟨entryName, autoDeclareCallees, builtins⟩

/-- The limits of a run. -/
def execOptionsRecord : Record ExecOptions where
  title := "struct ExecOptions"
  fields :=
    let standard : ExecOptions := {}
    [.defaulted "max_steps" .size standard.maxSteps, .defaulted "max_depth" .size standard.maxDepth,
      .defaulted "trace" .flag standard.trace]
  build := fun (maxSteps, maxDepth, trace, ()) => ⟨maxSteps, maxDepth, trace⟩

/-! ## Kinds of nodes -/

/-- How a kind of node is written: as its bare name, or by a record under that
    name. -/
inductive Variant (α : Type) where
  | bare (name : String) (value : α)
  | record (name : String) (content : Record α)

/-- The name that chooses the variant. -/
def Variant.name : Variant α → String
  | .bare name _ => name
  | .record name _ => name

/-- A kind of node with fields. -/
def kindWith (name : String) (fields : List Field) (build : Fields fields → Kind) : Variant Kind :=
  .record name ⟨"struct variant AstNodeKind::" ++ name, fields, build⟩

/-- Every kind of node, in the order of their declaration. -/
def kindVariants : List (Variant Kind) :=
  let node (name : String) : Field := .required name .node
  let nodes (name : String) : Field := .required name (.list .node)
  let clause : Field := .defaulted "orelse" (.list .node) ([] : List Node)
  [kindWith "Module" [nodes "body"] fun (body, ()) => .module body,
    kindWith "FunctionDef" [.required "name" .text, .required "params" (.list .text), nodes "body"]
      fun (name, params, body, ()) => .functionDef name params body,
    kindWith "Assign" [nodes "targets", node "value"]
      fun (targets, value, ()) => .assign targets value,
    kindWith "AugAssign" [node "target", .required "op" .binaryOperator, node "value"]
      fun (target, op, value, ()) => .augAssign target op value,
    kindWith "Expr" [node "value"] fun (value, ()) => .expr value,
    kindWith "Return" [.optional "value" .node false] fun (value, ()) => .ret value,
    kindWith "If" [node "test", nodes "body", clause]
      fun (test, body, orelse, ()) => .ifElse test body orelse,
    kindWith "While" [node "test", nodes "body", clause]
      fun (test, body, orelse, ()) => .whileLoop test body orelse,
    kindWith "For" [node "target", node "iter", nodes "body", clause]
      fun (target, iter, body, orelse, ()) => .forLoop target iter body orelse,
    .bare "Pass" .pass,
    .bare "Break" .breakLoop,
    .bare "Continue" .continueLoop,
    kindWith "Constant" [.required "value" .int64] fun (value, ()) => .constant value,
    kindWith "Str" [.required "value" .text] fun (value, ()) => .str value,
    kindWith "Name" [.required "id" .text] fun (id, ()) => .name id,
    kindWith "UnaryOp" [.required "op" .unaryOperator, node "operand"]
      fun (op, operand, ()) => .unaryOp op operand,
    kindWith "BinOp" [node "left", .required "op" .binaryOperator, node "right"]
      fun (left, op, right, ()) => .binOp left op right,
    kindWith "BoolOp" [.required "op" .boolOperator, nodes "values"]
      fun (op, values, ()) => .boolOp op values,
    kindWith "Compare" [node "left", .required "ops" (.list .compareOperator), nodes "comparators"]
      fun (left, ops, comparators, ()) => .compare left ops comparators,
    kindWith "Call"
      [node "func", nodes "args", .defaulted "keywords" (.list .keyword) ([] : List Keyword)]
      fun (func, args, keywords, ()) => .call func args keywords,
    kindWith "Attribute" [node "value", .required "attr" .text]
      fun (value, attr, ()) => .attribute value attr]

/-- The variants of a set of operators: bare names. -/
def operatorVariants (name : α → String) (all : List α) : List (Variant α) :=
  all.map fun op => .bare (name op) op

end Blockform.Reader
