-- SUMMARY: What is kept by the steps that lowering is made of is kept by lowering (`Lower.StepRules`).
import Blockform.Proofs.Inversion

/-!
# Construct by construct

Lowering is made of few steps: the function under construction is changed in one of
a dozen ways or looked at, a callee is resolved, an event is noted, a construct is
refused, a function is built inside of another. A property of steps that holds of
these and is kept by sequences (`Lower.StepRules`) holds of every expression and of
every statement. An expression takes only a few of these steps (`Lower.ExprRules`), so
more can be said of it. The induction over the tree is made once, here, for all such
properties: what a step does to the state, how two runs of it compare, what it may
fail with.
-/

namespace Blockform

/-- The steps of building that lowering takes. -/
inductive Build.Taken : {α : Type} → Build α → Prop where
  | define (ty : Ty) {op : InstId → Op} (hdest : ∀ d, (op d).dest = some d) :
    Taken (Build.define ty op)
  | toInt (v : Value) : Taken (Build.toInt v)
  | toBool (v : Value) : Taken (Build.toBool v)
  | read (name : String) : Taken (Build.read name)
  | write (name : String) (v : Value) : Taken (Build.write name v)
  | ret (v : Value) : Taken (Build.ret v)
  | terminate (t : Terminator) : Taken (Build.terminate t)
  | newBlock (label : String) : Taken (Build.newBlock label)
  | moveTo (block : BlockId) : Taken (Build.moveTo block)
  | isTerminated : Taken Build.isTerminated

namespace Lower

variable {α β : Type}

/-- What follows the body of a function: one that is still open returns zero. -/
def fallOff : Lower Unit := do
  if !(← isTerminated) then build (Build.ret (.int 0))

/-- A function is built from the start of its workspace, once its number is claimed. -/
theorem buildFunction_of_claim {name : String} {params : List String} {body : Lower Unit}
    {ctx ctx₁ : Context} {id : FunctionId}
    (h : ctx.claim name params.length = .ok (id, ctx₁)) :
    Context.buildFunction name params body ctx =
      match (body >>= fun _ => fallOff) (.start ctx₁ name params) with
      | .error e s => .error e s.context
      | .ok _ s => .ok id (s.finished id name) := by
  unfold Context.buildFunction
  rw [h]
  rfl

theorem buildFunction_of_refused {name : String} {params : List String} {body : Lower Unit}
    {ctx : Context} {e : LoweringError} (h : ctx.claim name params.length = .error e) :
    Context.buildFunction name params body ctx = .error (.error e) ctx := by
  unfold Context.buildFunction
  rw [h]

/-! ## Expressions -/

/-- A property is kept by sequences and by passing a node, and holds of all that lowering
    an expression is made of. -/
structure ExprRules (P : ∀ {α : Type}, Lower α → Prop) : Prop where
  pure : ∀ {α : Type} (a : α), P (Pure.pure a : Lower α)
  bind : ∀ {α β : Type} {x : Lower α} {f : α → Lower β}, P x → (∀ a, P (f a)) → P (x >>= f)
  locating : ∀ {α : Type} {x : Lower α} (n : Node), P x → P (Lower.locating n x)
  unsupported : ∀ {α : Type} (what : String), P (Lower.unsupported what : Lower α)
  define : ∀ (ty : Ty) {op : InstId → Op}, (∀ d, (op d).dest = some d) →
    P (Lower.build (Build.define ty op))
  toInt : ∀ v : Value, P (Lower.build (Build.toInt v))
  toBool : ∀ v : Value, P (Lower.build (Build.toBool v))
  read : ∀ name : String, P (Lower.build (Build.read name))
  resolve : ∀ (name : String) (arity : Nat), P (Lower.resolve name arity)

namespace ExprRules

variable {P : ∀ {α : Type}, Lower α → Prop} (h : ExprRules P)
include h

theorem asInt {x : Lower Value} (hx : P x) : P (Lower.asInt x) :=
  h.bind hx fun v => h.toInt v

theorem asCondition {x : Lower Value} (hx : P x) (n : Node) : P (Lower.asCondition n x) :=
  h.bind hx fun v => h.locating n (h.toBool v)

theorem join (op : BinaryOp) (first : Value) (rest : List Value) :
    P (Lower.join op first rest) := by
  induction rest generalizing first with
  | nil => exact h.pure first
  | cons v rest ih =>
    unfold Lower.join
    rw [List.foldlM_cons]
    exact h.bind (h.define _ fun _ => rfl) ih

theorem conditions {ns : List Node} (hns : ∀ n ∈ ns, P (Lower.expr n)) :
    P (Lower.conditions ns) := by
  induction ns with
  | nil => exact h.pure []
  | cons n rest ih =>
    rw [List.forall_mem_cons] at hns
    exact h.bind (h.asCondition hns.1 n) fun v => h.bind (ih hns.2) fun vs => h.pure (v :: vs)

theorem arguments {ns : List Node} (hns : ∀ n ∈ ns, P (Lower.expr n)) :
    P (Lower.arguments ns) := by
  induction ns with
  | nil => exact h.pure []
  | cons n rest ih =>
    rw [List.forall_mem_cons] at hns
    exact h.bind (h.asInt hns.1) fun v => h.bind (ih hns.2) fun vs => h.pure (v :: vs)

/-- An operation on two integers. -/
theorem operands {left right : Node} {f : Value → Value → Lower Value}
    (hleft : P (Lower.expr left)) (hright : P (Lower.expr right))
    (hf : ∀ lhs rhs, P (f lhs rhs)) :
    P (do
      let lhs ← Lower.asInt (Lower.expr left)
      let rhs ← Lower.asInt (Lower.expr right)
      f lhs rhs) :=
  h.bind (h.asInt hleft) fun lhs => h.bind (h.asInt hright) fun rhs => hf lhs rhs

theorem exprKind {k : Kind} (hparts : ∀ n ∈ k.parts, P (Lower.expr n)) :
    P (Lower.exprKind k) := by
  cases k with
  | constant n => exact h.pure _
  | name id => exact h.read id
  | unaryOp op operand =>
    cases op with
    | uSub =>
      exact h.bind (h.asInt (hparts operand (by simp [Kind.parts]))) fun v =>
        h.define _ fun _ => rfl
    | uAdd => exact h.unsupported _
    | not => exact h.unsupported _
    | invert => exact h.unsupported _
  | binOp left op right =>
    rw [Lower.exprKind]
    cases op.arithmetic with
    | none => exact h.unsupported _
    | some arithmetic =>
      exact h.operands (hparts left (by simp [Kind.parts])) (hparts right (by simp [Kind.parts]))
        fun lhs rhs => h.define _ fun _ => rfl
  | boolOp op values =>
    cases values with
    | nil => exact h.unsupported _
    | cons first rest =>
      refine h.bind (h.asCondition (hparts first (by simp [Kind.parts])) first) fun v => ?_
      refine h.bind (h.conditions fun n hn => hparts n ?_) (h.join op.logic v)
      simp [Kind.parts, hn]
  | compare left ops rights =>
    rcases ops with - | ⟨op, - | ⟨op', ops⟩⟩
    · exact h.unsupported _
    · rcases rights with - | ⟨right, - | ⟨right', rights⟩⟩
      · exact h.unsupported _
      · rw [Lower.exprKind]
        cases op.predicate with
        | none => exact h.unsupported _
        | some predicate =>
          exact h.operands (hparts left (by simp [Kind.parts]))
            (hparts right (by simp [Kind.parts])) fun lhs rhs => h.define _ fun _ => rfl
      · exact h.unsupported _
    · exact h.unsupported _
  | call func args keywords =>
    cases keywords with
    | cons keyword rest => exact h.unsupported _
    | nil =>
      obtain ⟨kind, location, span⟩ := func
      cases kind with
      | name id =>
        refine h.bind (h.resolve id args.length) fun callee => ?_
        refine h.bind (h.arguments fun n hn => hparts n ?_) fun values => h.define _ fun _ => rfl
        simp [Kind.parts, hn]
      | _ => exact h.locating _ (h.unsupported _)
  | _ => exact h.unsupported _

theorem expr (n : Node) : P (Lower.expr n) := by
  induction n using Node.parts_induction with
  | step n ih =>
    obtain ⟨kind, location, span⟩ := n
    exact h.locating _ (h.exprKind ih)

theorem condition (n : Node) : P (Lower.condition n) := h.asCondition (h.expr n) n

end ExprRules

/-! ## All of lowering -/

/-- A property is kept by sequences and by passing a node, and holds of all that
    lowering is made of. -/
structure StepRules (P : ∀ {α : Type}, Lower α → Prop) : Prop where
  pure : ∀ {α : Type} (a : α), P (Pure.pure a : Lower α)
  bind : ∀ {α β : Type} {x : Lower α} {f : α → Lower β}, P x → (∀ a, P (f a)) → P (x >>= f)
  /-- What comes next depends on the function under construction. -/
  inspect : ∀ {α : Type} {f : Builder → Lower α}, (∀ b, P (f b)) → P (get >>= fun s => f s.builder)
  locating : ∀ {α : Type} {x : Lower α} (n : Node), P x → P (Lower.locating n x)
  unsupported : ∀ {α : Type} (what : String), P (Lower.unsupported what : Lower α)
  build : ∀ {α : Type} {x : Build α}, Build.Taken x → P (Lower.build x)
  note : ∀ e : Event, P (Lower.note e)
  resolve : ∀ (name : String) (arity : Nat), P (Lower.resolve name arity)
  function : ∀ (name : String) (params : List String) {body : Lower Unit},
    P (body >>= fun _ => fallOff) → P (nested (Context.buildFunction name params body))

namespace StepRules

variable {P : ∀ {α : Type}, Lower α → Prop} (h : StepRules P)
include h

theorem exprRules : ExprRules P where
  pure := h.pure
  bind := h.bind
  locating := h.locating
  unsupported := h.unsupported
  define ty _ hdest := h.build (.define ty hdest)
  toInt v := h.build (.toInt v)
  toBool v := h.build (.toBool v)
  read name := h.build (.read name)
  resolve := h.resolve

/-! ## Blocks -/

theorem newBlock (label : String) : P (Lower.newBlock label) :=
  h.bind (h.build (.newBlock label)) fun id =>
    h.inspect (f := fun b => do
      Lower.note (.blockCreated b.name ((b.block? id).elim label Block.label))
      return id) fun _ => h.bind (h.note _) fun _ => h.pure id

theorem moveTo (block : BlockId) : P (Lower.moveTo block) := h.build (.moveTo block)

theorem isTerminated : P Lower.isTerminated := h.build .isTerminated

theorem reopen : P Lower.reopen := by
  refine h.bind h.isTerminated fun closed => ?_
  cases closed with
  | true => exact h.bind (h.newBlock _) h.moveTo
  | false => exact h.pure ()

theorem fallOff : P Lower.fallOff := by
  refine h.bind h.isTerminated fun closed => ?_
  cases closed with
  | true => exact h.pure ()
  | false => exact h.build (.ret _)

theorem fallThrough (join : Option BlockId) : P (Lower.fallThrough join) := by
  refine h.bind h.isTerminated fun closed => ?_
  have hbranch (target : BlockId) :
      P (do Lower.build (Build.br target); return some target : Lower (Option BlockId)) :=
    h.bind (h.build (.terminate _)) fun _ => h.pure _
  cases closed with
  | true => exact h.pure join
  | false =>
    cases join with
    | some target => exact hbranch target
    | none => exact h.bind (h.newBlock _) hbranch

theorem branch {test : Lower Value} {body orelse : Lower Unit} (htest : P test) (hbody : P body)
    (horelse : P orelse) : P (Lower.branch test body orelse) := by
  refine h.bind htest fun cond => h.bind (h.newBlock _) fun thenBlock => ?_
  refine h.bind (h.newBlock _) fun elseBlock => h.bind (h.build (.terminate _)) fun _ => ?_
  refine h.bind (h.moveTo _) fun _ => h.bind hbody fun _ => ?_
  refine h.bind (h.fallThrough _) fun join => h.bind (h.moveTo _) fun _ => ?_
  refine h.bind horelse fun _ => h.bind (h.fallThrough _) fun join' => ?_
  cases join' with
  | some target => exact h.moveTo target
  | none => exact h.pure ()

theorem loop {test : Lower Value} {body : Lower Unit} (htest : P test) (hbody : P body) :
    P (Lower.loop test body) := by
  have hclose (cond : Value) (testExit bodyBlock endBlock : BlockId) : P (do
      Lower.moveTo testExit
      Lower.build (Build.condBr cond bodyBlock endBlock)
      Lower.moveTo endBlock : Lower Unit) :=
    h.bind (h.moveTo _) fun _ => h.bind (h.build (.terminate _)) fun _ => h.moveTo _
  refine h.bind (h.newBlock _) fun testBlock => h.bind (h.newBlock _) fun bodyBlock => ?_
  refine h.bind (h.newBlock _) fun endBlock => h.bind (h.build (.terminate _)) fun _ => ?_
  refine h.bind (h.moveTo _) fun _ => h.bind htest fun cond => ?_
  -- The cursor is kept, to come back to it behind the body.
  refine h.inspect (f := fun b => do
    Lower.moveTo bodyBlock
    body
    if !(← Lower.isTerminated) then Lower.build (Build.br testBlock)
    Lower.moveTo b.cursor
    Lower.build (Build.condBr cond bodyBlock endBlock)
    Lower.moveTo endBlock) fun b => ?_
  refine h.bind (h.moveTo _) fun _ => h.bind hbody fun _ => ?_
  refine h.bind h.isTerminated fun closed => ?_
  cases closed with
  | true => exact hclose _ _ _ _
  | false => exact h.bind (h.build (.terminate _)) fun _ => hclose _ _ _ _

/-! ## Statements -/

theorem block {ns : List Node} (hns : ∀ n ∈ ns, P (Lower.statement n)) : P (Lower.block ns) := by
  induction ns with
  | nil => exact h.pure ()
  | cons n rest ih =>
    rw [List.forall_mem_cons] at hns
    exact h.bind h.reopen fun _ => h.bind hns.1 fun _ => ih hns.2

theorem noteShortened (statements : Nat) : P (Lower.noteShortened statements) := by
  unfold Lower.noteShortened
  split
  · exact h.inspect (f := fun b => Lower.note (.elseShortened b.name statements)) fun b => h.note _
  · exact h.pure ()

theorem elseClause {ns : List Node} (hns : ∀ n ∈ ns, P (Lower.statement n)) :
    P (Lower.elseClause ns) := by
  cases ns with
  | nil => exact h.pure ()
  | cons n rest => exact h.bind (h.noteShortened _) fun _ => hns n (List.mem_cons_self ..)

theorem statementKind {k : Kind} (hparts : ∀ n ∈ k.parts, P (Lower.statement n)) :
    P (Lower.statementKind k) := by
  have hvalue : P (do let _ ← Lower.exprKind k : Lower Unit) :=
    h.bind (h.exprRules.exprKind fun n _ => h.exprRules.expr n) fun _ => h.pure ()
  cases k with
  | assign targets value =>
    match targets with
    | [] => exact h.unsupported _
    | [⟨kind, location, span⟩] =>
      cases kind with
      | name id => exact h.bind (h.exprRules.expr value) fun v => h.build (.write id v)
      | _ => exact h.locating _ (h.unsupported _)
    | ⟨kind, location, span⟩ :: target :: rest => cases kind <;> exact h.unsupported _
  | expr value => exact h.bind (h.exprRules.expr value) fun _ => h.pure ()
  | ret value =>
    cases value with
    | none => exact h.build (.ret _)
    | some value => exact h.bind (h.exprRules.expr value) fun v => h.build (.ret v)
  | ifElse test body orelse =>
    exact h.branch (h.exprRules.condition test) (h.block fun n hn => hparts n (by simp [Kind.parts, hn]))
      (h.elseClause fun n hn => hparts n (by simp [Kind.parts, hn]))
  | whileLoop test body orelse =>
    cases orelse with
    | cons n rest => exact h.unsupported _
    | nil =>
      exact h.loop (h.exprRules.condition test) (h.block fun n hn => hparts n (by simp [Kind.parts, hn]))
  | functionDef name params body =>
    have hbody := h.block fun n hn => hparts n (by simpa [Kind.parts] using hn)
    exact h.bind (h.function name params (h.bind hbody fun _ => h.fallOff)) fun _ => h.pure ()
  | augAssign target op value => exact h.unsupported _
  | module body => exact h.unsupported _
  | forLoop target iter body orelse => exact h.unsupported _
  | pass => exact h.unsupported _
  | breakLoop => exact h.unsupported _
  | continueLoop => exact h.unsupported _
  | _ => exact hvalue

theorem statement (n : Node) : P (Lower.statement n) := by
  induction n using Node.parts_induction with
  | step n ih =>
    obtain ⟨kind, location, span⟩ := n
    exact h.locating _ (h.statementKind ih)

/-- The body of a function, with the return that may be missing. -/
theorem body (ns : List Node) : P (Lower.block ns >>= fun _ => Lower.fallOff) :=
  h.bind (h.block fun n _ => h.statement n) fun _ => h.fallOff

end StepRules

end Lower

end Blockform
