-- SUMMARY: What the functions of one lowering share: the program, the options, the functions under construction and the log.
import Blockform.Log
import Blockform.Lowering.Builder
import Blockform.Lowering.Options

/-!
# Lowering contexts

One context exists for a lowering. It owns the program and remembers which
functions are under construction, so that no function gets two bodies.
-/

namespace Blockform

/-- The state that all functions of a lowering share. -/
structure Context where
  program : Program
  options : LowerOptions
  building : List FunctionId := []
  log : Array Event := #[]
deriving DecidableEq

namespace Context

/-- Note an event. -/
def note (ctx : Context) (e : Event) : Context := { ctx with log := ctx.log.push e }

/-- The start of a lowering: the builtins are declared. -/
def start (options : LowerOptions) : Context :=
  let program := Program.withBuiltins options.builtins
  let declared := program.functions.map fun f => Event.functionDeclared f.name f.signature
  { program, options, log := declared.toArray.push (.builtinsDeclared program.size) }

/-- The number of the function of a name, which is declared with a signature if
    it is not registered yet. -/
def declare (ctx : Context) (name : String) (signature : Signature) : FunctionId × Context :=
  let (id, program) := ctx.program.declare name signature
  let ctx' := { ctx with program }
  if ctx.program.size < program.size then (id, ctx'.note (.functionDeclared name signature))
  else (id, ctx')

/-- The number of a function that must be declared. -/
def get (ctx : Context) (name : String) : Except LoweringError FunctionId :=
  match ctx.program.lookup name with
  | some id => .ok id
  | none => .error (.undeclared name)

/-- The function that a call refers to. One that has not been mentioned yet is
    declared with the call's arity, if the options allow it. -/
def resolve (ctx : Context) (name : String) (arity : Nat) :
    Except LoweringError (FunctionId × Context) :=
  if ctx.options.autoDeclareCallees then .ok (ctx.declare name ⟨arity⟩)
  else (ctx.get name).map (·, ctx)

/-- Claim the number of a function that is about to be built. It must have
    neither a body nor be under construction. -/
def claim (ctx : Context) (name : String) (arity : Nat) :
    Except LoweringError (FunctionId × Context) :=
  let (id, ctx) := ctx.declare name ⟨arity⟩
  let isDeclared := (ctx.program.function? id).any Function.isDeclaration
  if id ∈ ctx.building || !isDeclared then .error (.duplicate name)
  else .ok (id, { ctx with building := id :: ctx.building })

/-- Attach the body that was built for a claimed number. -/
def complete (ctx : Context) (id : FunctionId) (b : Builder) : Context :=
  { ctx with program := ctx.program.define id b.finish, building := ctx.building.filter (· ≠ id) }

end Context

/-! ## Lowering steps -/

/-- The state of lowering inside a function. -/
structure Workspace where
  context : Context
  builder : Builder

/-- A step of lowering inside a function. What it has changed stays when it
    fails. -/
abbrev Lower := EStateM (Abort LoweringError) Workspace

namespace Lower

/-- Give up with an error. -/
def fail (e : LoweringError) : Lower α := throw (.error e)

/-- A step of building. -/
def build (x : Build α) : Lower α := fun s =>
  match x s.builder with
  | .ok a b => .ok a { s with builder := b }
  | .error e b => .error e { s with builder := b }

/-- Note an event. -/
def note (e : Event) : Lower Unit := modify fun s => { s with context := s.context.note e }

/-- The error of a failing step takes the position of the node, unless it has
    one. -/
def locating (node : Node) (x : Lower α) : Lower α := fun s =>
  match x s with
  | .ok a s => .ok a s
  | .error e s => .error (e.map (·.locate node)) s

/-- The function that a call refers to. -/
def resolve (name : String) (arity : Nat) : Lower FunctionId := fun s =>
  match s.context.resolve name arity with
  | .ok (id, context) => .ok id { s with context }
  | .error e => .error (.error e) s

/-- Add an empty block, and note its label. -/
def newBlock (label : String) : Lower BlockId := do
  let id ← build (Build.newBlock label)
  let b := (← get).builder
  note (.blockCreated b.name ((b.block? id).elim label Block.label))
  return id

/-- Put the cursor on a block. -/
def moveTo (block : BlockId) : Lower Unit := build (Build.moveTo block)

/-- Has the block under the cursor its terminator? -/
def isTerminated : Lower Bool := build Build.isTerminated

end Lower

end Blockform
