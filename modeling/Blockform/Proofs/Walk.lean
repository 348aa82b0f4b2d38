-- SUMMARY: The language that lowering accepts: what a tree asks for, in the order of lowering (`Node.asks`), and the first request that is refused (`firstViolation`).
import Blockform.Lowering.Error
import Blockform.Lowering.Options

/-!
# The accepted language

A tree is accepted if nothing that it asks for is refused. What it asks for is a
list of requests, in the order in which lowering comes across them: to read or to
bind a name, to call a function, to enter and to leave a body, or something that
is never granted. Whether a request is granted depends on the requests before it
only through a `Walk`: the names that are registered, the functions that have
been begun, and the names of the bodies that have been entered.

Nothing here speaks of blocks or of instructions. The operators of the language and
the wording of the errors are stated here as well, and not looked up in the tables of
lowering; that these say the same is a part of what is proved about lowering.
-/

namespace Blockform

/-! ## Operators -/

/-- The operators with two operands that the language has. -/
def BinaryOperator.accepted : List BinaryOperator := [.add, .sub, .mult, .mod]

/-- The comparisons that the language has. -/
def CompareOperator.accepted : List CompareOperator := [.eq, .notEq, .lt, .ltE, .gt, .gtE]

/-! ## Requests -/

/-- Something a tree asks for. -/
inductive Request where
  /-- A construct that is not supported. -/
  | refused (what : String)
  /-- The value of a name. -/
  | read (name : String)
  /-- A value for a name. -/
  | bind (name : String)
  /-- A function that is called. -/
  | call (name : String)
  /-- The start of the body of a function. -/
  | enter (name : String) (params : List String)
  /-- The end of this body. -/
  | leave
  /-- A request of a node, whose position its refusal takes. -/
  | inside (node : Node) (request : Request)

mutual

/-- What a node asks for in the place of an expression. -/
def Node.valueAsks : Node → List Request
  | ⟨kind, location, span⟩ => kind.valueAsks.map (.inside ⟨kind, location, span⟩)

/-- What a kind asks for in the place of an expression. Its own shape comes
    first, and the function of a call before the arguments. -/
def Kind.valueAsks : Kind → List Request
  | .constant _ => []
  | .name id => [.read id]
  | .unaryOp .uSub operand => operand.valueAsks
  | .unaryOp op _ => [.refused ("\"" ++ op.name ++ "\" operator")]
  | .binOp left op right =>
    if op ∈ BinaryOperator.accepted then left.valueAsks ++ right.valueAsks
    else [.refused ("\"" ++ op.name ++ "\" operator")]
  | .boolOp _ [] => [.refused "empty boolean expression"]
  | .boolOp _ (first :: rest) => first.valueAsks ++ allValueAsks rest
  | .compare left [op] [right] =>
    if op ∈ CompareOperator.accepted then left.valueAsks ++ right.valueAsks
    else [.refused ("\"" ++ op.name ++ "\" operator")]
  | .compare .. => [.refused "multiple comparison expression"]
  | .call _ _ (_ :: _) => [.refused "keyword arguments"]
  | .call ⟨.name id, _, _⟩ args [] => .call id :: allValueAsks args
  | .call func _ [] =>
    [.inside func (.refused ("calling a \"" ++ func.kind.title ++ "\" expression"))]
  | .str value => [.refused ("\"" ++ (Kind.str value).title ++ "\" expressions")]
  | .attribute value attr =>
    [.refused ("\"" ++ (Kind.attribute value attr).title ++ "\" expressions")]
  | kind => [.refused ("\"" ++ kind.title ++ "\" in expression position")]

/-- What nodes ask for in the place of expressions, from the left. -/
def allValueAsks : List Node → List Request
  | [] => []
  | n :: rest => n.valueAsks ++ allValueAsks rest

end

mutual

/-- What a node asks for in the place of a statement. -/
def Node.asks : Node → List Request
  | ⟨kind, location, span⟩ => kind.asks.map (.inside ⟨kind, location, span⟩)

/-- What a kind asks for in the place of a statement. The value of an assignment
    comes before its target, and the test of a construct before its bodies. -/
def Kind.asks : Kind → List Request
  | .assign [⟨.name id, _, _⟩] value => value.valueAsks ++ [.bind id]
  | .assign [target] _ =>
    [.inside target (.refused ("assignment to a \"" ++ target.kind.title ++ "\" target"))]
  | .assign .. => [.refused "multiple variable assignment"]
  | .expr value => value.valueAsks
  | .ret (some value) => value.valueAsks
  | .ret none => []
  | .ifElse test body orelse => test.valueAsks ++ (blockAsks body ++ elseAsks orelse)
  | .whileLoop test body [] => test.valueAsks ++ blockAsks body
  | .whileLoop _ _ (_ :: _) => [.refused "While - else statement"]
  | .functionDef name params body => .enter name params :: (blockAsks body ++ [.leave])
  | .augAssign _ op _ => [.refused ("augmented assignment (\"" ++ op.symbol ++ "=\")")]
  | .module _ => [.refused "nested \"Module\" node"]
  | kind =>
    if kind.isExpression then kind.valueAsks
    else [.refused ("\"" ++ kind.title ++ "\" statement")]

/-- What statements ask for, one after the other, whether or not a `return`
    stands before them. -/
def blockAsks : List Node → List Request
  | [] => []
  | n :: rest => n.asks ++ blockAsks rest

/-- What an `else` clause asks for: only its first statement counts. -/
def elseAsks : List Node → List Request
  | [] => []
  | n :: _ => n.asks

end

/-! ## Walks -/

/-- The names that the body of a function knows: its parameters, and what has
    been assigned to in it. -/
structure Body where
  function : String
  params : List String
  bound : List String := []

/-- What has been granted so far: the functions that are registered, in order,
    those that have been begun, and the bodies that have been entered and not
    left, the innermost apart. -/
structure Walk where
  registered : List String
  begun : List String
  body : Body
  outer : List Body := []

namespace Walk

/-- Register a name behind the others, if it is new. -/
def register (w : Walk) (name : String) : Walk :=
  if name ∈ w.registered then w else { w with registered := w.registered ++ [name] }

/-- Bind a name in the innermost body. -/
def bind (w : Walk) (name : String) : Walk :=
  if name ∈ w.body.bound then w
  else { w with body := { w.body with bound := w.body.bound ++ [name] } }

/-- Register a function, and begin it. -/
def claim (w : Walk) (name : String) : Walk :=
  { w.register name with begun := name :: w.begun }

/-- Enter the body of a function. -/
def enter (w : Walk) (name : String) (params : List String) : Walk :=
  { w.claim name with body := { function := name, params }, outer := w.body :: w.outer }

/-- Go back to the body around the innermost one. -/
def leave (w : Walk) : Walk :=
  match w.outer with
  | [] => w
  | body :: outer => { w with body, outer }

/-- Grant a request, or say why not. -/
def step (options : LowerOptions) (w : Walk) : Request → Except LoweringError Walk
  | .refused what =>
    .error {
      kind := .unsupportedConstruct
      message := "Compiler doesn't support " ++ what ++ "." }
  | .read name =>
    if name ∈ w.body.params ∨ name ∈ w.body.bound then .ok w
    else
      .error {
        kind := .unboundName
        message := "Name '" ++ name ++ "' is not defined in function '" ++ w.body.function ++ "'." }
  | .bind name => .ok (w.bind name)
  | .call name =>
    if name ∈ w.registered then .ok w
    else if options.autoDeclareCallees then .ok (w.register name)
    else
      .error {
        kind := .undeclaredCallee
        message := "Function '" ++ name ++ "' is not declared." }
  | .enter name params =>
    if name ∈ w.begun then
      .error {
        kind := .duplicateFunction
        message := "Function '" ++ name ++ "' is defined more than once." }
    else .ok (w.enter name params)
  | .leave => .ok w.leave
  | .inside node request =>
    match step options w request with
    | .ok w => .ok w
    | .error e => .error (e.locate node)

/-- Grant requests in order, up to the first that is refused. -/
def run (options : LowerOptions) (w : Walk) (requests : List Request) :
    Except LoweringError Walk :=
  requests.foldlM (step options) w

/-- The walk that has entered the entry function, with only the builtins before
    it. -/
def start (options : LowerOptions) : Walk :=
  let body := { function := options.entryName, params := [] }
  (options.builtins.foldl register { registered := [], begun := [], body }).claim options.entryName

end Walk

/-- Why a tree is not accepted: its root is no module, or the first of its requests that is
    refused. -/
def firstViolation (tree : Node) (options : LowerOptions) : Option LoweringError :=
  match tree.kind with
  | .module body =>
    match Walk.run options (.start options) (blockAsks body) with
    | .ok _ => none
    | .error e => some e
  | _ =>
    some {
      kind := .unsupportedConstruct
      message := "Compiler doesn't support a top-level \"" ++ tree.kind.title ++
        "\" node (expected \"Module\")."
      location := tree.location
      span := tree.span }

end Blockform
