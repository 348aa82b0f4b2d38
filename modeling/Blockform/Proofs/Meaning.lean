-- SUMMARY: The meaning of trees, without blocks: what a call of a function computes and prints (`meaning`).
import Blockform.Machine.Run
import Blockform.Proofs.Walk

/-!
# The meaning of trees

A tree is run as it is written: statements in order, loops and calls by
recursion, variables by name. Nothing here speaks of blocks, slots or results of
instructions.

Loops and calls need fuel, and a meaning that runs out of it has no result. A
tree yields a result (`Node.Yields`) if some fuel is enough.
-/

namespace Blockform

/-! ## Computations -/

/-- What is computed from a state: nothing if there is no end to it, and
    otherwise the kind of an error, or a value and a state. -/
def Meaning (σ α : Type) : Type := σ → Option (Except ExecErrorKind (α × σ))

namespace Meaning

variable {σ α β : Type}

instance : Monad (Meaning σ) where
  pure a := fun s => some (.ok (a, s))
  bind x f := fun s =>
    match x s with
    | none => none
    | some (.error e) => some (.error e)
    | some (.ok (a, s')) => f a s'

/-- No result. -/
def stuck : Meaning σ α := fun _ => none

/-- Fail with an error of a kind. -/
def raise (kind : ExecErrorKind) : Meaning σ α := fun _ => some (.error kind)

/-- Change the state. -/
def change (f : σ → σ) : Meaning σ Unit := fun s => some (.ok ((), f s))

theorem bind_of_none {x : Meaning σ α} {s : σ} (h : x s = none) (f : α → Meaning σ β) :
    (x >>= f) s = none := by
  change (match x s with | none => _ | some (.error e) => _ | some (.ok (a, s')) => _) = _
  rw [h]

theorem bind_of_error {x : Meaning σ α} {s : σ} {kind : ExecErrorKind}
    (h : x s = some (.error kind)) (f : α → Meaning σ β) :
    (x >>= f) s = some (.error kind) := by
  change (match x s with | none => _ | some (.error e) => _ | some (.ok (a, s')) => _) = _
  rw [h]

theorem bind_of_ok {x : Meaning σ α} {s s' : σ} {a : α} (h : x s = some (.ok (a, s')))
    (f : α → Meaning σ β) : (x >>= f) s = f a s' := by
  change (match x s with | none => _ | some (.error e) => _ | some (.ok (a, s')) => _) = _
  rw [h]

end Meaning

open Meaning

/-! ## Operators -/

/-- A truth value as an integer. -/
def truth (b : Bool) : Int32 := if b then 1 else 0

/-- Arithmetic wraps around, and a remainder is one of unsigned words. -/
def BinaryOperator.apply {σ : Type} : BinaryOperator → Int32 → Int32 → Meaning σ Int32
  | .add, a, b => pure (a + b)
  | .sub, a, b => pure (a - b)
  | .mult, a, b => pure (a * b)
  | .mod, a, b =>
    if b = 0 then raise .remainderByZero else pure (a.toUInt32 % b.toUInt32).toInt32
  | .div, _, _ | .floorDiv, _, _ | .pow, _, _ | .lShift, _, _ | .rShift, _, _ | .bitOr, _, _
  | .bitXor, _, _ | .bitAnd, _, _ => stuck

/-- Comparisons are those of signed integers. -/
def CompareOperator.apply {σ : Type} : CompareOperator → Int32 → Int32 → Meaning σ Int32
  | .eq, a, b => pure (truth (a = b))
  | .notEq, a, b => pure (truth (a ≠ b))
  | .lt, a, b => pure (truth (a < b))
  | .ltE, a, b => pure (truth (a ≤ b))
  | .gt, a, b => pure (truth (a > b))
  | .gtE, a, b => pure (truth (a ≥ b))
  | .is, _, _ | .isNot, _, _ | .isIn, _, _ | .notIn, _, _ => stuck

/-- Whether all operands are true, or any of them is. An integer is true if it
    differs from zero. -/
def BoolOperator.apply (op : BoolOperator) (operands : List Int32) : Int32 :=
  match op with
  | .and => truth (operands.all (· ≠ 0))
  | .or => truth (operands.any (· ≠ 0))

/-! ## Bodies -/

/-- Everything printed, in order. -/
abbrev Printed := Array Int32

/-- What a body works on: its variables, which are zero until they are assigned
    to, and what has been printed. -/
structure Store where
  vars : String → Int32 := fun _ => 0
  printed : Printed

/-- Assign to a variable. -/
def Store.set (σ : Store) (name : String) (v : Int32) : Store :=
  { σ with vars := fun x => if x = name then v else σ.vars x }

/-- What a body is given: its arguments by name, how often a loop may be
    repeated, and the functions to call. -/
structure Env where
  arguments : List (String × Int32)
  fuel : Nat
  call : String → List Int32 → Meaning Printed Int32

/-- What a name stands for: the first argument of that name, and a variable only
    if there is none. -/
def Env.read (env : Env) (name : String) : Meaning Store Int32 := fun σ =>
  some (.ok ((env.arguments.lookup name).getD (σ.vars name), σ))

/-- Call a function. It does not see the variables of the caller. -/
def Env.invoke (env : Env) (name : String) (args : List Int32) : Meaning Store Int32 := fun σ =>
  match env.call name args σ.printed with
  | none => none
  | some (.error e) => some (.error e)
  | some (.ok (v, printed)) => some (.ok (v, { σ with printed }))

/-- How a statement ends: with the next one, or with a return. -/
inductive Flow where
  | next
  | returned (v : Int32)

/-- The value that a body ends with: falling off its end returns zero. -/
def Flow.value : Flow → Int32
  | .next => 0
  | .returned v => v

/-- Repeat a body while a test holds, but no more than a number of times. -/
def repeatWhile (test : Meaning Store Int32) (body : Meaning Store Flow) :
    Nat → Meaning Store Flow
  | 0 => stuck
  | fuel + 1 => do
    if (← test) = 0 then return .next
    else
      match ← body with
      | .next => repeatWhile test body fuel
      | .returned v => return .returned v

mutual

/-- The value of a node. -/
def Node.value (env : Env) : Node → Meaning Store Int32
  | ⟨kind, _, _⟩ => kind.value env

/-- The value of a kind. Operands and arguments are evaluated from the left, all
    of them. -/
def Kind.value (env : Env) : Kind → Meaning Store Int32
  | .constant n => pure n.toInt32
  | .name id => env.read id
  | .unaryOp .uSub operand => do return -(← operand.value env)
  | .binOp left op right => do op.apply (← left.value env) (← right.value env)
  | .boolOp op operands => do return op.apply (← allValues env operands)
  | .compare left [op] [right] => do op.apply (← left.value env) (← right.value env)
  | .call ⟨.name id, _, _⟩ args [] => do env.invoke id (← allValues env args)
  | _ => stuck

/-- The values of nodes, from the left. -/
def allValues (env : Env) : List Node → Meaning Store (List Int32)
  | [] => pure []
  | n :: rest => do return (← n.value env) :: (← allValues env rest)

end

mutual

/-- Run a node. -/
def Node.exec (env : Env) : Node → Meaning Store Flow
  | ⟨kind, _, _⟩ => kind.exec env

/-- Run a kind. A function inside another one does nothing where it stands. -/
def Kind.exec (env : Env) : Kind → Meaning Store Flow
  | .assign [⟨.name id, _, _⟩] value => do
    let v ← value.value env
    change (·.set id v)
    return .next
  | .expr value => do
    let _ ← value.value env
    return .next
  | .ret (some value) => do return .returned (← value.value env)
  | .ret none => return .returned 0
  | .ifElse test body orelse => do
    if (← test.value env) ≠ 0 then blockExec env body else elseExec env orelse
  | .whileLoop test body [] => repeatWhile (test.value env) (blockExec env body) env.fuel
  | .functionDef .. => return .next
  | kind =>
    if kind.isExpression then do
      let _ ← kind.value env
      return .next
    else stuck

/-- Run statements in order, up to a return. -/
def blockExec (env : Env) : List Node → Meaning Store Flow
  | [] => return .next
  | n :: rest => do
    match ← n.exec env with
    | .next => blockExec env rest
    | .returned v => return .returned v

/-- Run an `else` clause: only its first statement. -/
def elseExec (env : Env) : List Node → Meaning Store Flow
  | [] => return .next
  | n :: _ => n.exec env

end

/-! ## Functions -/

/-- A function as the tree defines it. -/
structure Definition where
  name : String
  params : List String
  body : List Node

/-- Run the body of a function, with variables of its own. -/
def Definition.run (d : Definition) (env : Env) : Meaning Printed Int32 := fun printed =>
  match blockExec env d.body { printed } with
  | none => none
  | some (.error e) => some (.error e)
  | some (.ok (flow, σ)) => some (.ok (flow.value, σ.printed))

mutual

/-- The functions that a node defines, whether or not it is reached. -/
def Node.definitions : Node → List Definition
  | ⟨kind, _, _⟩ => kind.definitions

/-- The functions that a kind defines. -/
def Kind.definitions : Kind → List Definition
  | .functionDef name params body => ⟨name, params, body⟩ :: blockDefinitions body
  | .ifElse _ body orelse => blockDefinitions body ++ elseDefinitions orelse
  | .whileLoop _ body [] => blockDefinitions body
  | _ => []

/-- The functions that statements define. -/
def blockDefinitions : List Node → List Definition
  | [] => []
  | n :: rest => n.definitions ++ blockDefinitions rest

/-- The functions that an `else` clause defines: only its first statement
    counts. -/
def elseDefinitions : List Node → List Definition
  | [] => []
  | n :: _ => n.definitions

end

/-- Call a function that the tree does not define: there is only the output
    builtin. -/
def callOutside (name : String) (args : List Int32) : Meaning Printed Int32 :=
  if name = printName then
    match args with
    | [v] => fun printed => some (.ok (0, printed.push v))
    | _ => raise .arityMismatch
  else raise .unknownFunction

/-- Call a function while a number of bodies is active. -/
def callFunction (defs : List Definition) (maxDepth : Nat) :
    Nat → Nat → String → List Int32 → Meaning Printed Int32
  | 0, _, _, _ => stuck
  | fuel + 1, active, name, args =>
    match defs.find? (·.name = name) with
    | none => callOutside name args
    | some d =>
      if args.length ≠ d.params.length then raise .arityMismatch
      else if maxDepth ≤ active then raise .depthLimit
      else
        d.run
          { arguments := d.params.zip args
            fuel
            call := callFunction defs maxDepth fuel (active + 1) }

section Calls

variable {defs : List Definition} {name : String}

theorem callFunction_of_none (h : defs.find? (·.name = name) = none)
    (maxDepth fuel active : Nat) (args : List Int32) :
    callFunction defs maxDepth (fuel + 1) active name args = callOutside name args := by
  rw [callFunction, h]

theorem callFunction_of_some {d : Definition} (h : defs.find? (·.name = name) = some d)
    (maxDepth fuel active : Nat) (args : List Int32) :
    callFunction defs maxDepth (fuel + 1) active name args =
      if args.length ≠ d.params.length then raise .arityMismatch
      else if maxDepth ≤ active then raise .depthLimit
      else
        d.run
          { arguments := d.params.zip args
            fuel
            call := callFunction defs maxDepth fuel (active + 1) } := by
  rw [callFunction, h]

end Calls

/-! ## Trees -/

/-- The function that a request mentions. -/
def Request.mentions : Request → Option String
  | .call name => some name
  | .enter name _ => some name
  | .inside _ request => request.mentions
  | .refused _ | .read _ | .bind _ | .leave => none

/-- The functions of a tree: its own statements under the name of the entry
    function, and those it defines. -/
def moduleDefinitions (body : List Node) (options : LowerOptions) : List Definition :=
  ⟨options.entryName, [], body⟩ :: blockDefinitions body

/-- The names that a tree can be called by: those that it defines or calls, and
    the builtins. -/
def moduleNames (body : List Node) (options : LowerOptions) : List String :=
  options.builtins ++ options.entryName :: (blockAsks body).filterMap Request.mentions

/-- What a call of a function by its name computes and prints, with some fuel. -/
def Node.meaning (tree : Node) (options : LowerOptions) (maxDepth fuel : Nat) (name : String)
    (args : List Int32) : Option (Except ExecErrorKind (Int32 × Printed)) :=
  match tree.kind with
  | .module body =>
    if name ∈ moduleNames body options then
      callFunction (moduleDefinitions body options) maxDepth fuel 0 name args #[]
    else some (.error .unknownFunction)
  | _ => none

/-- A call of a function by its name has a result. -/
def Node.Yields (tree : Node) (options : LowerOptions) (maxDepth : Nat) (name : String)
    (args : List Int32) (result : Except ExecErrorKind (Int32 × Printed)) : Prop :=
  ∃ fuel, tree.meaning options maxDepth fuel name args = some result

end Blockform
