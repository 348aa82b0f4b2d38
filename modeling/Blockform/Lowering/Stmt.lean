-- SUMMARY: Lowering of statements, and of the functions they make up.
import Blockform.Lowering.Expr

/-!
# Statements

Statements are where blocks come from. An `if` and a `while` build their blocks
here, and a `return` ends the current one. What follows a terminator is lowered
into a block of its own that nothing branches to, so no block is added to behind
its end.

The shape of a construct is a combinator over the steps that lower its parts
(`Lower.branch`, `Lower.loop`, `Context.buildFunction`), so it can be understood
without the recursion over the tree.
-/

namespace Blockform

/-! ## Functions -/

/-- Build a function from the step that lowers its body, and register it. A body
    that falls off its end returns zero. -/
def Context.buildFunction (name : String) (params : List String) (body : Lower Unit) :
    EStateM (Abort LoweringError) Context FunctionId := fun ctx =>
  match ctx.claim name params.length with
  | .error e => .error (.error e) ctx
  | .ok (id, ctx) =>
    let ctx := (ctx.note (.functionStarted name params)).note (.blockCreated name "entry")
    let fallOff : Lower Unit := do
      if !(← Lower.isTerminated) then Lower.build (Build.ret (.int 0))
    match (do body; fallOff : Lower Unit) ⟨ctx, .start name params⟩ with
    | .error e s => .error e s.context
    | .ok _ s => .ok id ((s.context.complete id s.builder).note (.functionFinished name))

namespace Lower

/-- Build another function, and return to the current one. -/
def nested (x : EStateM (Abort LoweringError) Context α) : Lower α := fun s =>
  match x s.context with
  | .ok a context => .ok a { s with context }
  | .error e context => .error e { s with context }

/-! ## Blocks -/

/-- Make room for a statement: behind a terminator, that is a block which nothing
    branches to. -/
def reopen : Lower Unit := do
  if ← isTerminated then
    let dead ← newBlock "unreachable"
    moveTo dead

/-- Leave an arm of a branch that is still open for the block that joins the
    arms, which is created if there is none yet. -/
def fallThrough (join : Option BlockId) : Lower (Option BlockId) := do
  if ← isTerminated then return join
  let target ← match join with
    | some target => pure target
    | none => newBlock "if.end"
  build (Build.br target)
  return some target

/-- Two arms, chosen by a truth value. The joining block exists only if an arm
    falls through; otherwise the cursor stays where the second arm ended. -/
def branch (test : Lower Value) (body orelse : Lower Unit) : Lower Unit := do
  let cond ← test
  let thenBlock ← newBlock "if.then"
  let elseBlock ← newBlock "if.else"
  build (Build.condBr cond thenBlock elseBlock)
  moveTo thenBlock
  body
  let join ← fallThrough none
  moveTo elseBlock
  orelse
  match ← fallThrough join with
  | some target => moveTo target
  | none => pure ()

/-- A body that is repeated while a test holds. The test is lowered once; the
    branch on it is added behind the body. -/
def loop (test : Lower Value) (body : Lower Unit) : Lower Unit := do
  let testBlock ← newBlock "while.test"
  let bodyBlock ← newBlock "while.body"
  let endBlock ← newBlock "while.end"
  build (Build.br testBlock)
  moveTo testBlock
  let cond ← test
  let testExit := (← get).builder.cursor
  moveTo bodyBlock
  body
  if !(← isTerminated) then build (Build.br testBlock)
  moveTo testExit
  build (Build.condBr cond bodyBlock endBlock)
  moveTo endBlock

/-! ## Statements -/

/-- Note that an `else` clause has statements behind its first. -/
def noteShortened (statements : Nat) : Lower Unit := do
  if 1 < statements then note (.elseShortened (← get).builder.name statements)

mutual

/-- Lower statements, one after the other. -/
def block : List Node → Lower Unit
  | [] => pure ()
  | n :: rest => do
    reopen
    statement n
    block rest

/-- Lower the first statement of an `else` clause; the others are dropped. -/
def elseClause : List Node → Lower Unit
  | [] => pure ()
  | n :: rest => do
    noteShortened (n :: rest).length
    statement n

/-- Lower a node in the place of a statement. -/
def statement : Node → Lower Unit
  | ⟨kind, location, span⟩ => locating ⟨kind, location, span⟩ (statementKind kind)

/-- Lower a kind in the place of a statement. -/
def statementKind : Kind → Lower Unit
  | .assign [⟨.name id, _, _⟩] value => do
    let v ← expr value
    build (Build.write id v)
  | .assign [target] _ =>
    locating target (unsupported ("assignment to a \"" ++ target.kind.title ++ "\" target"))
  | .assign .. => unsupported "multiple variable assignment"
  | .expr value => do
    let _ ← expr value
  | .ret (some value) => do
    let v ← expr value
    build (Build.ret v)
  | .ret none => build (Build.ret (.int 0))
  | .ifElse test body orelse => branch (condition test) (block body) (elseClause orelse)
  | .whileLoop test body [] => loop (condition test) (block body)
  | .whileLoop _ _ (_ :: _) => unsupported "While - else statement"
  | .functionDef name params body => do
    let _ ← nested (Context.buildFunction name params (block body))
  | .augAssign _ op _ => unsupported ("augmented assignment (\"" ++ op.symbol ++ "=\")")
  | .module _ => unsupported "nested \"Module\" node"
  | kind =>
    if kind.isExpression then do
      let _ ← exprKind kind
    else unsupported ("\"" ++ kind.title ++ "\" statement")

end

end Lower

/-! ## Trees -/

/-- Lower the body of a tree into the entry function. -/
def Context.lowerModule (body : List Node) : EStateM (Abort LoweringError) Context FunctionId :=
  fun ctx => Context.buildFunction ctx.options.entryName [] (Lower.block body) ctx

/-- The error of a tree whose root is no module. -/
def notAModule (root : Node) : LoweringError :=
  (LoweringError.unsupported
    ("a top-level \"" ++ root.kind.title ++ "\" node (expected \"Module\")")).locate root

/-- Lower a whole tree, noting what is done. The first error ends it. -/
def lowerNoting (tree : Node) (options : LowerOptions) :
    Except (Abort LoweringError) Program × Array Event :=
  match tree.kind with
  | .module body =>
    match Context.lowerModule body (.start options) with
    | .ok _ ctx => (.ok ctx.program, ctx.log.push (.programLowered ctx.program.size))
    | .error e ctx => (.error e, ctx.log)
  | _ => (.error (.error (notAModule tree)), #[])

/-- Lower a whole tree to a program. -/
def lower (tree : Node) (options : LowerOptions) : Except (Abort LoweringError) Program :=
  (lowerNoting tree options).1

end Blockform
