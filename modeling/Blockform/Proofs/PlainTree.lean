-- SUMMARY: The plain form of a tree (`Node.plain`), in which nothing is left that lowering takes no notice of, and that a tree is lowered as its plain form is.
import Blockform.Proofs.FirstViolation

/-!
# Plain trees

Three things in a tree are of no concern to lowering: the positions of its nodes,
which only errors take; all statements of an `else` clause but the first, which
are dropped unread; and an `Expr` around an expression that stands as a
statement. A tree without them is plain. A tree and its plain form are lowered in
step: the states differ in what was noted, and the errors in their positions
(`Lower.Agrees`), so both give one program, or fail for one reason.
-/

namespace Blockform

/-! ## Plain form -/

/-- An expression that stands as a statement, without the node around it. -/
def Node.unwrapped : Node → Node
  | ⟨.expr value, location, span⟩ =>
    if value.kind.isExpression then value else ⟨.expr value, location, span⟩
  | n => n

mutual

/-- The node without its position, and plain below. -/
def Node.plain : Node → Node
  | ⟨kind, _, _⟩ => ⟨kind.plain, none, none⟩

/-- The kind with plain nodes. -/
def Kind.plain : Kind → Kind
  | .module body => .module (plainStatements body)
  | .functionDef name params body => .functionDef name params (plainStatements body)
  | .assign targets value => .assign (plainNodes targets) value.plain
  | .augAssign target op value => .augAssign target.plain op value.plain
  | .expr value => .expr value.plain
  | .ret none => .ret none
  | .ret (some value) => .ret (some value.plain)
  | .ifElse test body orelse => .ifElse test.plain (plainStatements body) (plainFirst orelse)
  | .whileLoop test body orelse =>
    .whileLoop test.plain (plainStatements body) (plainStatements orelse)
  | .forLoop target iter body orelse =>
    .forLoop target.plain iter.plain (plainNodes body) (plainStatements orelse)
  | .unaryOp op operand => .unaryOp op operand.plain
  | .binOp left op right => .binOp left.plain op right.plain
  | .boolOp op values => .boolOp op (plainNodes values)
  | .compare left ops comparators => .compare left.plain ops (plainNodes comparators)
  | .call func args keywords => .call func.plain (plainNodes args) (plainKeywords keywords)
  | .attribute value attr => .attribute value.plain attr
  | .pass => .pass
  | .breakLoop => .breakLoop
  | .continueLoop => .continueLoop
  | .constant value => .constant value
  | .str value => .str value
  | .name id => .name id

/-- Each node in plain form. -/
def plainNodes : List Node → List Node
  | [] => []
  | n :: rest => n.plain :: plainNodes rest

/-- Each statement in plain form, and expressions without a node around them. -/
def plainStatements : List Node → List Node
  | [] => []
  | n :: rest => n.plain.unwrapped :: plainStatements rest

/-- The first statement of an `else` clause in plain form, without the others. -/
def plainFirst : List Node → List Node
  | [] => []
  | n :: _ => [n.plain.unwrapped]

/-- Each argument in plain form. -/
def plainKeywords : List Keyword → List Keyword
  | [] => []
  | ⟨arg, value⟩ :: rest => ⟨arg, value.plain⟩ :: plainKeywords rest

end

@[simp] theorem Node.plain_kind (n : Node) : n.plain.kind = n.kind.plain := by
  cases n
  rfl

@[simp] theorem Kind.title_plain (k : Kind) : k.plain.title = k.title := by
  cases k with
  | ret value => cases value <;> rfl
  | _ => rfl

@[simp] theorem Kind.isExpression_plain (k : Kind) : k.plain.isExpression = k.isExpression := by
  cases k with
  | ret value => cases value <;> rfl
  | _ => rfl

theorem length_plainNodes (ns : List Node) : (plainNodes ns).length = ns.length := by
  induction ns with
  | nil => rfl
  | cons n rest ih => rw [plainNodes, List.length_cons, List.length_cons, ih]

/-! ## Steps that agree -/

/-- The contexts differ at most in what was noted. -/
structure Context.SameButLog (ctx ctx' : Context) : Prop where
  program : ctx'.program = ctx.program
  options : ctx'.options = ctx.options
  building : ctx'.building = ctx.building

/-- The states differ at most in what was noted. -/
structure Workspace.SameButLog (s s' : Workspace) : Prop where
  context : s.context.SameButLog s'.context
  builder : s'.builder = s.builder

/-- The results are one value with states that are related, or failures for one
    reason, whatever the positions. -/
inductive SameResult {σ α : Type} (R : σ → σ → Prop) :
    EStateM.Result (Abort LoweringError) σ α → EStateM.Result (Abort LoweringError) σ α → Prop where
  | ok {a : α} {s s' : σ} (h : R s s') : SameResult R (.ok a s) (.ok a s')
  | error {e e' : LoweringError} {s s' : σ} (hkind : e'.kind = e.kind)
    (hmessage : e'.message = e.message) :
    SameResult R (.error (.error e) s) (.error (.error e') s')
  | outOfRange {s s' : σ} : SameResult R (.error .outOfRange s) (.error .outOfRange s')

variable {α β : Type}

namespace Context.SameButLog

variable {ctx ctx' : Context}

theorem note (h : ctx.SameButLog ctx') (e e' : Event) : (ctx.note e).SameButLog (ctx'.note e') :=
  ⟨h.program, h.options, h.building⟩

theorem declare (h : ctx.SameButLog ctx') (name : String) (signature : Signature) :
    (ctx'.declare name signature).1 = (ctx.declare name signature).1 ∧
      (ctx.declare name signature).2.SameButLog (ctx'.declare name signature).2 := by
  obtain ⟨hid, hprogram, hoptions, hbuilding⟩ := Context.declare_eq ctx name signature
  obtain ⟨hid', hprogram', hoptions', hbuilding'⟩ := Context.declare_eq ctx' name signature
  rw [hid, hid', h.program]
  refine ⟨rfl, ⟨?_, ?_, ?_⟩⟩
  · rw [hprogram, hprogram', h.program]
  · rw [hoptions, hoptions', h.options]
  · rw [hbuilding, hbuilding', h.building]

theorem complete (h : ctx.SameButLog ctx') (id : FunctionId) {b b' : Builder} (hb : b' = b) :
    (ctx.complete id b).SameButLog (ctx'.complete id b') := by
  refine ⟨?_, h.options, ?_⟩
  · simp only [Context.complete, h.program, hb]
  · simp only [Context.complete, h.building]

end Context.SameButLog

theorem Workspace.SameButLog.shortened {s s' : Workspace} (h : s.SameButLog s')
    (statements statements' : Nat) :
    (s.shortened statements).SameButLog (s'.shortened statements') := by
  have hnote (s : Workspace) (statements : Nat) :
      s.context.SameButLog (s.shortened statements).context := by
    unfold Workspace.shortened
    split <;> exact ⟨rfl, rfl, rfl⟩
  have hleft := hnote s statements
  have hright := hnote s' statements'
  refine ⟨⟨?_, ?_, ?_⟩, ?_⟩
  · rw [hright.program, hleft.program, h.context.program]
  · rw [hright.options, hleft.options, h.context.options]
  · rw [hright.building, hleft.building, h.context.building]
  · rw [shortened_builder, shortened_builder, h.builder]

namespace Lower

open Effect

/-- From states that differ at most in what was noted, the steps give the same
    results up to that and to the positions of errors. -/
def Agrees (x y : Lower α) : Prop :=
  ∀ s s', s.SameButLog s' → SameResult Workspace.SameButLog (x s) (y s')

variable {x y : Lower α}

theorem Agrees.bind {f g : α → Lower β} (hx : Agrees x y) (hf : ∀ a, Agrees (f a) (g a)) :
    Agrees (x >>= f) (y >>= g) := by
  intro s s' hs
  have h := hx s s' hs
  rw [bind_run, bind_run]
  generalize x s = r, y s' = r' at h ⊢
  cases h with
  | ok hs => exact hf _ _ _ hs
  | error hkind hmessage => exact .error hkind hmessage
  | outOfRange => exact .outOfRange

/-- The state is looked at. -/
theorem Agrees.get {f g : Workspace → Lower α}
    (hf : ∀ s s', s.SameButLog s' → Agrees (f s) (g s')) : Agrees (get >>= f) (get >>= g) :=
  fun s s' hs => hf s s' hs s s' hs

theorem Agrees.pure (a : α) : Agrees (pure a : Lower α) (pure a) := fun _ _ hs => .ok hs

theorem Agrees.unsupported (what : String) :
    Agrees (unsupported what : Lower α) (unsupported what) := fun _ _ _ => .error rfl rfl

/-- Where an error came from is of no concern. -/
theorem Agrees.locating (h : Agrees x y) (n n' : Node) :
    Agrees (locating n x) (locating n' y) := by
  intro s s' hs
  have h := h s s' hs
  unfold Lower.locating
  generalize x s = r, y s' = r' at h ⊢
  cases h with
  | ok hs => exact .ok hs
  | error hkind hmessage => exact .error (by simpa using hkind) (by simpa using hmessage)
  | outOfRange => exact .outOfRange

/-- An error that passes another node on its way keeps its cause. -/
theorem Agrees.locating_left (h : Agrees x y) (n : Node) : Agrees (Lower.locating n x) y := by
  intro s s' hs
  have h := h s s' hs
  unfold Lower.locating
  generalize x s = r, y s' = r' at h ⊢
  cases h with
  | ok hs => exact .ok hs
  | error hkind hmessage => exact .error (by simpa using hkind) (by simpa using hmessage)
  | outOfRange => exact .outOfRange

/-- A step of building does not see what was noted. -/
theorem build_agrees (x : Build α) : Agrees (build x) (build x) := by
  intro s s' hs
  unfold build
  rw [hs.builder]
  cases x s.builder with
  | ok a b => exact .ok ⟨hs.context, rfl⟩
  | error e b =>
    cases e with
    | error e => exact .error rfl rfl
    | outOfRange => exact .outOfRange

theorem resolve_agrees (name : String) (arity : Nat) :
    Agrees (resolve name arity) (resolve name arity) := by
  intro s s' hs
  obtain ⟨hid, hctx⟩ := hs.context.declare name ⟨arity⟩
  unfold resolve Context.resolve Context.get
  rw [hs.context.options, hs.context.program]
  cases s.context.options.autoDeclareCallees with
  | true =>
    simp only [if_true, hid]
    exact .ok ⟨hctx, hs.builder⟩
  | false =>
    simp only [Bool.false_eq_true, if_false]
    cases s.context.program.lookup name with
    | some id => exact .ok hs
    | none => exact .error rfl rfl

theorem newBlock_agrees (label : String) : Agrees (newBlock label) (newBlock label) := by
  intro s s' hs
  have hlabel : s'.nextBlock = s.nextBlock := by rw [Workspace.nextBlock, hs.builder]; rfl
  rw [newBlock_run, newBlock_run, hlabel]
  exact .ok ⟨hs.context.note _ _, by rw [Workspace.withBlock_builder, hs.builder]; rfl⟩

theorem moveTo_agrees (block : BlockId) : Agrees (moveTo block) (moveTo block) :=
  build_agrees _

theorem isTerminated_agrees : Agrees isTerminated isTerminated := build_agrees _

/-! ## Expressions -/

theorem asInt_agrees {x y : Lower Value} (h : Agrees x y) : Agrees (asInt x) (asInt y) :=
  h.bind fun _ => build_agrees _

theorem asCondition_agrees {x y : Lower Value} (h : Agrees x y) (n n' : Node) :
    Agrees (asCondition n x) (asCondition n' y) :=
  h.bind fun _ => (build_agrees _).locating n n'

theorem join_agrees (op : BinaryOp) (first : Value) (rest : List Value) :
    Agrees (join op first rest) (join op first rest) := by
  induction rest generalizing first with
  | nil => exact .pure first
  | cons v rest ih =>
    unfold join
    rw [List.foldlM_cons]
    exact (build_agrees _).bind ih

/-- A node and its plain form are the same in the place of an expression. -/
def ExprAgrees (n : Node) : Prop := Agrees (expr n) (expr n.plain)

theorem conditions_agrees {ns : List Node} (hns : ∀ n ∈ ns, ExprAgrees n) :
    Agrees (conditions ns) (conditions (plainNodes ns)) := by
  induction ns with
  | nil => exact .pure []
  | cons n rest ih =>
    rw [List.forall_mem_cons] at hns
    exact (asCondition_agrees hns.1 n n.plain).bind fun v =>
      (ih hns.2).bind fun vs => .pure (v :: vs)

theorem arguments_agrees {ns : List Node} (hns : ∀ n ∈ ns, ExprAgrees n) :
    Agrees (arguments ns) (arguments (plainNodes ns)) := by
  induction ns with
  | nil => exact .pure []
  | cons n rest ih =>
    rw [List.forall_mem_cons] at hns
    exact (asInt_agrees hns.1).bind fun v => (ih hns.2).bind fun vs => .pure (v :: vs)

theorem exprKind_agrees {k : Kind} (hparts : ∀ n ∈ k.parts, ExprAgrees n) :
    Agrees (exprKind k) (exprKind k.plain) := by
  cases k with
  | constant n => exact .pure _
  | name id => exact build_agrees _
  | unaryOp op operand =>
    cases op with
    | uSub =>
      exact (asInt_agrees (hparts operand (by simp [Kind.parts]))).bind fun _ => build_agrees _
    | uAdd => exact .unsupported _
    | not => exact .unsupported _
    | invert => exact .unsupported _
  | binOp left op right =>
    rw [Kind.plain, exprKind, exprKind]
    cases op.arithmetic with
    | none => exact .unsupported _
    | some arithmetic =>
      refine (asInt_agrees (hparts left (by simp [Kind.parts]))).bind fun lhs => ?_
      exact (asInt_agrees (hparts right (by simp [Kind.parts]))).bind fun rhs => build_agrees _
  | boolOp op values =>
    cases values with
    | nil => exact .unsupported _
    | cons first rest =>
      have hfirst := hparts first (by simp [Kind.parts])
      refine (asCondition_agrees hfirst first first.plain).bind fun v => ?_
      refine (conditions_agrees fun n hn => hparts n ?_).bind (join_agrees op.logic v)
      simp [Kind.parts, hn]
  | compare left ops rights =>
    rcases ops with - | ⟨op, - | ⟨op', ops⟩⟩
    · exact .unsupported _
    · rcases rights with - | ⟨right, - | ⟨right', rights⟩⟩
      · exact .unsupported _
      · rw [Kind.plain, plainNodes, plainNodes, exprKind, exprKind]
        cases op.predicate with
        | none => exact .unsupported _
        | some predicate =>
          refine (asInt_agrees (hparts left (by simp [Kind.parts]))).bind fun lhs => ?_
          exact (asInt_agrees (hparts right (by simp [Kind.parts]))).bind fun rhs => build_agrees _
      · exact .unsupported _
    · exact .unsupported _
  | call func args keywords =>
    cases keywords with
    | cons keyword rest =>
      obtain ⟨arg, value⟩ := keyword
      exact .unsupported _
    | nil =>
      obtain ⟨kind, location, span⟩ := func
      cases kind with
      | name id =>
        change Agrees (do
          let callee ← resolve id args.length
          let values ← arguments args
          build (Build.call callee values)) (do
          let callee ← resolve id (plainNodes args).length
          let values ← arguments (plainNodes args)
          build (Build.call callee values))
        rw [length_plainNodes]
        refine (resolve_agrees id args.length).bind fun callee => ?_
        refine (arguments_agrees fun n hn => hparts n ?_).bind fun values => build_agrees _
        simp [Kind.parts, hn]
      | ret value => cases value <;> exact (Agrees.unsupported _).locating _ _
      | _ => exact (Agrees.unsupported _).locating _ _
  | ret value => cases value <;> exact .unsupported _
  | _ => exact .unsupported _

theorem exprAgrees (n : Node) : ExprAgrees n := by
  induction n using Node.parts_induction with
  | step n ih =>
    obtain ⟨kind, location, span⟩ := n
    exact (exprKind_agrees ih).locating _ _

theorem condition_agrees (n : Node) : Agrees (condition n) (condition n.plain) :=
  asCondition_agrees (exprAgrees n) n n.plain

/-! ## Constructs -/

theorem reopen_agrees : Agrees reopen reopen := by
  refine isTerminated_agrees.bind fun closed => ?_
  cases closed with
  | true => exact (newBlock_agrees _).bind moveTo_agrees
  | false => exact .pure ()

theorem fallThrough_agrees (join : Option BlockId) :
    Agrees (fallThrough join) (fallThrough join) := by
  refine isTerminated_agrees.bind fun closed => ?_
  have hbranch (target : BlockId) :
      Agrees (do build (Build.br target); return some target : Lower (Option BlockId))
        (do build (Build.br target); return some target) :=
    (build_agrees _).bind fun _ => .pure _
  cases closed with
  | true => exact .pure join
  | false =>
    cases join with
    | some target => exact hbranch target
    | none => exact (newBlock_agrees _).bind hbranch

theorem branch_agrees {test test' : Lower Value} {body body' orelse orelse' : Lower Unit}
    (htest : Agrees test test') (hbody : Agrees body body') (horelse : Agrees orelse orelse') :
    Agrees (branch test body orelse) (branch test' body' orelse') := by
  refine htest.bind fun cond => ?_
  refine (newBlock_agrees _).bind fun thenBlock => (newBlock_agrees _).bind fun elseBlock => ?_
  refine (build_agrees _).bind fun _ => (moveTo_agrees _).bind fun _ => ?_
  refine hbody.bind fun _ => (fallThrough_agrees _).bind fun join => ?_
  refine (moveTo_agrees _).bind fun _ => ?_
  refine horelse.bind fun _ => (fallThrough_agrees _).bind fun join' => ?_
  cases join' with
  | some target => exact moveTo_agrees target
  | none => exact .pure ()

theorem loop_agrees {test test' : Lower Value} {body body' : Lower Unit}
    (htest : Agrees test test') (hbody : Agrees body body') :
    Agrees (loop test body) (loop test' body') := by
  have hclose (cond : Value) (testExit bodyBlock endBlock : BlockId) :
      Agrees (do
        moveTo testExit
        build (Build.condBr cond bodyBlock endBlock)
        moveTo endBlock : Lower Unit) (do
        moveTo testExit
        build (Build.condBr cond bodyBlock endBlock)
        moveTo endBlock) :=
    (moveTo_agrees _).bind fun _ => (build_agrees _).bind fun _ => moveTo_agrees _
  refine (newBlock_agrees _).bind fun testBlock => (newBlock_agrees _).bind fun bodyBlock => ?_
  refine (newBlock_agrees _).bind fun endBlock => (build_agrees _).bind fun _ => ?_
  refine (moveTo_agrees _).bind fun _ => htest.bind fun cond => ?_
  refine Agrees.get fun s s' hs => ?_
  rw [hs.builder]
  refine (moveTo_agrees _).bind fun _ => hbody.bind fun _ => ?_
  refine isTerminated_agrees.bind fun closed => ?_
  cases closed with
  | true => exact hclose _ _ _ _
  | false => exact (build_agrees _).bind fun _ => hclose _ _ _ _

/-! ## Functions -/

theorem claim_agrees {ctx ctx' : Context} (h : ctx.SameButLog ctx') (name : String) (arity : Nat) :
    (∃ id ctx₁ ctx₁', ctx.claim name arity = .ok (id, ctx₁) ∧
      ctx'.claim name arity = .ok (id, ctx₁') ∧ ctx₁.SameButLog ctx₁') ∨
    ∃ e, ctx.claim name arity = .error e ∧ ctx'.claim name arity = .error e := by
  obtain ⟨hid, hdeclared⟩ := h.declare name ⟨arity⟩
  unfold Context.claim
  generalize ctx.declare name ⟨arity⟩ = r, ctx'.declare name ⟨arity⟩ = r' at hid hdeclared ⊢
  obtain ⟨id, ctx₁⟩ := r
  obtain ⟨id', ctx₁'⟩ := r'
  cases hid
  have hprogram : ctx₁'.program = ctx₁.program := hdeclared.program
  have hbuilding : ctx₁'.building = ctx₁.building := hdeclared.building
  simp only [hprogram, hbuilding]
  split
  · exact .inr ⟨_, rfl, rfl⟩
  · exact .inl ⟨_, _, _, rfl, rfl, ⟨rfl, hdeclared.options, rfl⟩⟩

/-- Steps that agree build the same function. -/
theorem buildFunction_agrees (name : String) (params : List String) {body body' : Lower Unit}
    (hbody : Agrees body body') {ctx ctx' : Context} (h : ctx.SameButLog ctx') :
    SameResult Context.SameButLog (Context.buildFunction name params body ctx)
      (Context.buildFunction name params body' ctx') := by
  have hend : Agrees
      (do if !(← isTerminated) then build (Build.ret (.int 0)) : Lower Unit)
      (do if !(← isTerminated) then build (Build.ret (.int 0))) := by
    refine isTerminated_agrees.bind fun closed => ?_
    cases closed with
    | true => exact .pure ()
    | false => exact build_agrees _
  unfold Context.buildFunction
  rcases claim_agrees h name params.length with
    ⟨id, ctx₁, ctx₁', hclaim, hclaim', hctx⟩ | ⟨e, hclaim, hclaim'⟩
  · have hrun := (hbody.bind fun _ => hend) (.start ctx₁ name params) (.start ctx₁' name params)
      ⟨(hctx.note _ _).note _ _, rfl⟩
    simp only [Workspace.start] at hrun
    simp only [hclaim, hclaim']
    generalize (body >>= _) _ = r, (body' >>= _) _ = r' at hrun ⊢
    cases hrun with
    | ok hs => exact .ok ((hs.context.complete id hs.builder).note _ _)
    | error hkind hmessage => exact .error hkind hmessage
    | outOfRange => exact .outOfRange
  · simp only [hclaim, hclaim']
    exact .error rfl rfl

theorem nested_agrees {x y : EStateM (Abort LoweringError) Context α}
    (h : ∀ ctx ctx', ctx.SameButLog ctx' → SameResult Context.SameButLog (x ctx) (y ctx')) :
    Agrees (nested x) (nested y) := by
  intro s s' hs
  have h := h _ _ hs.context
  unfold nested
  generalize x s.context = r, y s'.context = r' at h ⊢
  cases h with
  | ok hctx => exact .ok ⟨hctx, hs.builder⟩
  | error hkind hmessage => exact .error hkind hmessage
  | outOfRange => exact .outOfRange

/-! ## Statements -/

/-- A node and its plain form are the same in the place of a statement, also
    without the node around an expression. -/
structure StatementAgrees (n : Node) : Prop where
  plain : Agrees (statement n) (statement n.plain)
  unwrapped : Agrees (statement n) (statement n.plain.unwrapped)

theorem block_agrees {ns : List Node} (hns : ∀ n ∈ ns, StatementAgrees n) :
    Agrees (block ns) (block (plainStatements ns)) := by
  induction ns with
  | nil => exact .pure ()
  | cons n rest ih =>
    rw [List.forall_mem_cons] at hns
    exact reopen_agrees.bind fun _ => hns.1.unwrapped.bind fun _ => ih hns.2

/-- That statements are dropped is noted, and no more than that. -/
theorem elseClause_agrees {ns : List Node} (hns : ∀ n ∈ ns, StatementAgrees n) :
    Agrees (elseClause ns) (elseClause (plainFirst ns)) := by
  cases ns with
  | nil => exact .pure ()
  | cons n rest =>
    intro s s' hs
    rw [elseClause_cons, plainFirst, elseClause_cons]
    exact (hns n (List.mem_cons_self ..)).unwrapped _ _ (hs.shortened _ _)

theorem statementKind_agrees {k : Kind} (hparts : ∀ n ∈ k.parts, StatementAgrees n) :
    Agrees (statementKind k) (statementKind k.plain) := by
  have hvalue : Agrees (do let _ ← exprKind k) (do let _ ← exprKind k.plain) :=
    (exprKind_agrees fun n _ => exprAgrees n).bind fun _ => .pure ()
  cases k with
  | assign targets value =>
    match targets with
    | [] => exact .unsupported _
    | [⟨kind, location, span⟩] =>
      cases kind with
      | name id => exact (exprAgrees value).bind fun v => build_agrees _
      | ret value => cases value <;> exact (Agrees.unsupported _).locating _ _
      | _ => exact (Agrees.unsupported _).locating _ _
    | ⟨kind, location, span⟩ :: target :: rest =>
      cases kind with
      | ret value => cases value <;> exact .unsupported _
      | _ => exact .unsupported _
  | expr value => exact (exprAgrees value).bind fun _ => .pure ()
  | ret value =>
    cases value with
    | none => exact build_agrees _
    | some value => exact (exprAgrees value).bind fun v => build_agrees _
  | ifElse test body orelse =>
    exact branch_agrees (condition_agrees test)
      (block_agrees fun n hn => hparts n (by simp [Kind.parts, hn]))
      (elseClause_agrees fun n hn => hparts n (by simp [Kind.parts, hn]))
  | whileLoop test body orelse =>
    cases orelse with
    | cons n rest => exact .unsupported _
    | nil =>
      exact loop_agrees (condition_agrees test)
        (block_agrees fun n hn => hparts n (by simp [Kind.parts, hn]))
  | functionDef name params body =>
    have hbody := block_agrees fun n hn => hparts n (by simpa [Kind.parts] using hn)
    exact (nested_agrees fun _ _ h => buildFunction_agrees name params hbody h).bind fun _ =>
      .pure ()
  | augAssign target op value => exact .unsupported _
  | module body => exact .unsupported _
  | forLoop target iter body orelse => exact .unsupported _
  | pass => exact .unsupported _
  | breakLoop => exact .unsupported _
  | continueLoop => exact .unsupported _
  | _ => exact hvalue

theorem unwrapped_agrees (n : Node) (h : Agrees (statement n) (statement n.plain)) :
    Agrees (statement n) (statement n.plain.unwrapped) := by
  obtain ⟨kind, location, span⟩ := n
  cases kind with
  | expr value =>
    obtain ⟨kind, location', span'⟩ := value
    cases hexpression : kind.isExpression with
    | false =>
      have hsame : (Node.mk (.expr ⟨kind, location', span'⟩) location span).plain.unwrapped =
          (Node.mk (.expr ⟨kind, location', span'⟩) location span).plain := by
        simp [Node.plain, Kind.plain, Node.unwrapped, hexpression]
      rw [hsame]
      exact h
    | true =>
      have hunwrapped : (Node.mk (.expr ⟨kind, location', span'⟩) location span).plain.unwrapped =
          ⟨kind.plain, none, none⟩ := by
        simp [Node.plain, Kind.plain, Node.unwrapped, hexpression]
      have hplain : kind.plain.isExpression = true := by rw [Kind.isExpression_plain, hexpression]
      have hvalue : Agrees (exprKind kind) (exprKind kind.plain) :=
        exprKind_agrees fun n _ => exprAgrees n
      rw [hunwrapped, statement, statement, statementKind_of_isExpression hplain]
      exact ((hvalue.locating_left _).bind fun _ => .pure ()).locating _ _
  | ret value => cases value <;> exact h
  | _ => exact h

theorem statementAgrees (n : Node) : StatementAgrees n := by
  induction n using Node.parts_induction with
  | step n ih =>
    obtain ⟨kind, location, span⟩ := n
    have hplain : Agrees (statement ⟨kind, location, span⟩) (statement ⟨kind.plain, none, none⟩) :=
      (statementKind_agrees ih).locating _ _
    exact ⟨hplain, unwrapped_agrees _ hplain⟩

end Lower

/-! ## Trees -/

/-- A tree is lowered as its plain form is: to the same program, or to an error of
    the same kind with the same message. -/
theorem lower_plain (tree : Node) (options : LowerOptions) :
    match lower tree options, lower tree.plain options with
    | .ok p, .ok p' => p' = p
    | .error (.error e), .error (.error e') => e'.kind = e.kind ∧ e'.message = e.message
    | _, _ => False := by
  obtain ⟨kind, location, span⟩ := tree
  cases kind with
  | module body =>
    have hbody := Lower.block_agrees fun n (_ : n ∈ body) => Lower.statementAgrees n
    have hrun : SameResult Context.SameButLog (Context.lowerModule body (.start options))
        (Context.lowerModule (plainStatements body) (.start options)) :=
      Lower.buildFunction_agrees _ [] hbody ⟨rfl, rfl, rfl⟩
    rw [Node.plain, Kind.plain]
    generalize hr : Context.lowerModule body (.start options) = r,
      hr' : Context.lowerModule (plainStatements body) (.start options) = r' at hrun
    cases hrun with
    | ok hctx =>
      rw [lower_of_ok hr, lower_of_ok hr']
      exact hctx.program
    | error hkind hmessage =>
      rw [lower_of_error hr, lower_of_error hr']
      exact ⟨hkind, hmessage⟩
    | outOfRange =>
      have hfollows := Context.lowerModule_follows body options
      rw [hr] at hfollows
      split at hfollows
      · obtain ⟨_, _, hok, -⟩ := hfollows
        cases hok
      · obtain ⟨_, hfail⟩ := hfollows
        cases hfail
  | ret value => cases value <;> exact ⟨rfl, rfl⟩
  | _ => exact ⟨rfl, rfl⟩

/-- Neither the position of the call nor the statements that are dropped, here a
    call of a function that there is none of, leave a trace. -/
example :
    let tree := Node.module [
      (Node.exprStmt (.call "print" [.int 1])).withLocation { line := 1, column := 0 },
      .ifElse (.int 1) [] [.retNone, .exprStmt (.call "missing" [])]]
    tree.plain.kind = .module [.call "print" [.int 1], .ifElse (.int 1) [] [.retNone]] := rfl

end Blockform
