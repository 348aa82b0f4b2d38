-- SUMMARY: What a success of lowering says: the constructs that the language accepts, with the runs of their parts.
import Blockform.Proofs.Building

/-!
# Successful lowering

Of the many kinds of nodes only a few can be lowered. `Lower.ExprRun` and
`Lower.StatementRun` list them, each with the runs of its parts in order, and a
run that succeeded is one of them. The combinators that statements are made with
are taken apart in the same way.
-/

namespace Blockform

/-! ## Workspaces -/

namespace Workspace

/-- Add an empty block, which is noted. The cursor stays. -/
def withBlock (s : Workspace) (label : String) : Workspace where
  context := s.context.note (.blockCreated s.builder.name (s.builder.freshLabel label))
  builder := s.builder.addBlock label

/-- Put the cursor on a block. -/
def movedTo (s : Workspace) (block : BlockId) : Workspace :=
  { s with builder := { s.builder with cursor := block } }

/-- End the block under the cursor. -/
def closed (s : Workspace) (t : Terminator) : Workspace :=
  { s with builder := s.builder.close t }

/-- It has been noted if an `else` clause has statements behind its first. -/
def shortened (s : Workspace) (statements : Nat) : Workspace :=
  if 1 < statements then
    { s with context := s.context.note (.elseShortened s.builder.name statements) }
  else s

/-- The number that the next block gets. -/
def nextBlock (s : Workspace) : BlockId := ⟨s.builder.blocks.length⟩

/-- The number of the block that is added after the next one. -/
def secondBlock (s : Workspace) : BlockId := ⟨s.builder.blocks.length + 1⟩

/-- The number of the block that is added after these two. -/
def thirdBlock (s : Workspace) : BlockId := ⟨s.builder.blocks.length + 2⟩

/-- The blocks of a branch have been created. -/
def withArms (s : Workspace) : Workspace := (s.withBlock "if.then").withBlock "if.else"

/-- The blocks of a loop have been created. -/
def withLoop (s : Workspace) : Workspace :=
  ((s.withBlock "while.test").withBlock "while.body").withBlock "while.end"

/-- The start of a function whose number has been claimed. -/
def start (ctx : Context) (name : String) (params : List String) : Workspace where
  context := (ctx.note (.functionStarted name params)).note (.blockCreated name "entry")
  builder := .start name params

/-- The context once the function is finished and attached to its number. -/
def finished (s : Workspace) (id : FunctionId) (name : String) : Context :=
  (s.context.complete id s.builder).note (.functionFinished name)

@[simp] theorem withBlock_builder (s : Workspace) (label : String) :
    (s.withBlock label).builder = s.builder.addBlock label := rfl

@[simp] theorem closed_builder (s : Workspace) (t : Terminator) :
    (s.closed t).builder = s.builder.close t := rfl

@[simp] theorem shortened_builder (s : Workspace) (statements : Nat) :
    (s.shortened statements).builder = s.builder := by
  unfold shortened
  split <;> rfl

theorem withBlock_nextBlock (s : Workspace) (label : String) :
    (s.withBlock label).nextBlock = s.secondBlock := by
  simp [nextBlock, secondBlock, Builder.addBlock]

theorem withBlock_secondBlock (s : Workspace) (label : String) :
    (s.withBlock label).secondBlock = s.thirdBlock := by
  simp [secondBlock, thirdBlock, Builder.addBlock]

theorem length_withArms (s : Workspace) (t : Terminator) :
    (s.withArms.closed t).builder.blocks.length = s.builder.blocks.length + 2 := by
  simp [withArms, Builder.addBlock, Builder.close]

theorem length_withLoop (s : Workspace) (t : Terminator) :
    (s.withLoop.closed t).builder.blocks.length = s.builder.blocks.length + 3 := by
  simp [withLoop, Builder.addBlock, Builder.close]

end Workspace

namespace Lower

open Effect

/-! ## Expressions -/

/-- The ways in which an expression is lowered to a value. -/
inductive ExprRun : Kind → Workspace → Value → Workspace → Prop where
  | constant {n : Int64} {s : Workspace} : ExprRun (.constant n) s (.int n) s
  | name {id : String} {s s' : Workspace} {v : Value} (h : build (Build.read id) s = .ok v s') :
    ExprRun (.name id) s v s'
  | neg {operand : Node} {s s₁ s' : Workspace} {v w : Value}
    (hoperand : asInt (expr operand) s = .ok v s₁) (h : build (Build.neg v) s₁ = .ok w s') :
    ExprRun (.unaryOp .uSub operand) s w s'
  | binOp {left right : Node} {op : BinaryOperator} {arithmetic : BinaryOp}
    {s s₁ s₂ s' : Workspace} {lhs rhs v : Value} (hop : op.arithmetic = some arithmetic)
    (hleft : asInt (expr left) s = .ok lhs s₁) (hright : asInt (expr right) s₁ = .ok rhs s₂)
    (h : build (Build.binary arithmetic lhs rhs) s₂ = .ok v s') :
    ExprRun (.binOp left op right) s v s'
  | boolOp {op : BoolOperator} {first : Node} {rest : List Node} {s s₁ s₂ s' : Workspace}
    {v w : Value} {vs : List Value} (hfirst : asCondition first (expr first) s = .ok v s₁)
    (hrest : conditions rest s₁ = .ok vs s₂) (h : join op.logic v vs s₂ = .ok w s') :
    ExprRun (.boolOp op (first :: rest)) s w s'
  | compare {left right : Node} {op : CompareOperator} {predicate : Predicate}
    {s s₁ s₂ s' : Workspace} {lhs rhs v : Value} (hop : op.predicate = some predicate)
    (hleft : asInt (expr left) s = .ok lhs s₁) (hright : asInt (expr right) s₁ = .ok rhs s₂)
    (h : build (Build.icmp predicate lhs rhs) s₂ = .ok v s') :
    ExprRun (.compare left [op] [right]) s v s'
  | call {id : String} {location : Option Location} {span : Option Span} {args : List Node}
    {s s₁ s₂ s' : Workspace} {callee : FunctionId} {vs : List Value} {v : Value}
    (hcallee : resolve id args.length s = .ok callee s₁)
    (hargs : arguments args s₁ = .ok vs s₂) (h : build (Build.call callee vs) s₂ = .ok v s') :
    ExprRun (.call ⟨.name id, location, span⟩ args []) s v s'

variable {s s' : Workspace} {v : Value} {vs : List Value} {u : Unit}

theorem locating_unsupported_ne_ok {α : Type} {a : α} {node : Node} {what : String} :
    (locating node (unsupported what) : Lower α) s ≠ .ok a s' :=
  fun h => unsupported_ne_ok (locating_eq_ok.mp h)

theorem exprKind_run {k : Kind} (h : exprKind k s = .ok v s') : ExprRun k s v s' := by
  cases k with
  | constant n =>
    cases h
    exact .constant
  | name id => exact .name h
  | unaryOp op operand =>
    cases op with
    | uSub =>
      obtain ⟨w, s₁, hoperand, h⟩ := bind_eq_ok.mp h
      exact .neg hoperand h
    | uAdd => exact absurd h unsupported_ne_ok
    | not => exact absurd h unsupported_ne_ok
    | invert => exact absurd h unsupported_ne_ok
  | binOp left op right =>
    rw [exprKind] at h
    cases hop : op.arithmetic with
    | none =>
      rw [hop] at h
      exact absurd h unsupported_ne_ok
    | some arithmetic =>
      rw [hop] at h
      obtain ⟨lhs, s₁, hleft, h⟩ := bind_eq_ok.mp h
      obtain ⟨rhs, s₂, hright, h⟩ := bind_eq_ok.mp h
      exact .binOp hop hleft hright h
  | boolOp op values =>
    cases values with
    | nil => exact absurd h unsupported_ne_ok
    | cons first rest =>
      obtain ⟨w, s₁, hfirst, h⟩ := bind_eq_ok.mp h
      obtain ⟨ws, s₂, hrest, h⟩ := bind_eq_ok.mp h
      exact .boolOp hfirst hrest h
  | compare left ops rights =>
    match ops, rights with
    | [op], [right] =>
      rw [exprKind] at h
      cases hop : op.predicate with
      | none =>
        rw [hop] at h
        exact absurd h unsupported_ne_ok
      | some predicate =>
        rw [hop] at h
        obtain ⟨lhs, s₁, hleft, h⟩ := bind_eq_ok.mp h
        obtain ⟨rhs, s₂, hright, h⟩ := bind_eq_ok.mp h
        exact .compare hop hleft hright h
    | [], _ => exact absurd h unsupported_ne_ok
    | _ :: _ :: _, _ => exact absurd h unsupported_ne_ok
    | [_], [] => exact absurd h unsupported_ne_ok
    | [_], _ :: _ :: _ => exact absurd h unsupported_ne_ok
  | call func args keywords =>
    cases keywords with
    | cons keyword rest => exact absurd h unsupported_ne_ok
    | nil =>
      obtain ⟨kind, location, span⟩ := func
      cases kind with
      | name id =>
        obtain ⟨callee, s₁, hcallee, h⟩ := bind_eq_ok.mp h
        obtain ⟨ws, s₂, hargs, h⟩ := bind_eq_ok.mp h
        exact .call hcallee hargs h
      | _ => exact absurd h locating_unsupported_ne_ok
  | _ => exact absurd h unsupported_ne_ok

theorem expr_run {n : Node} (h : expr n s = .ok v s') : ExprRun n.kind s v s' := by
  obtain ⟨kind, location, span⟩ := n
  exact exprKind_run (locating_eq_ok.mp h)

theorem asInt_eq_ok {x : Lower Value} :
    asInt x s = .ok v s' ↔ ∃ w s₁, x s = .ok w s₁ ∧ build (Build.toInt w) s₁ = .ok v s' :=
  bind_eq_ok

theorem asCondition_eq_ok {node : Node} {x : Lower Value} :
    asCondition node x s = .ok v s' ↔
      ∃ w s₁, x s = .ok w s₁ ∧ build (Build.toBool w) s₁ = .ok v s' := by
  unfold asCondition
  rw [bind_eq_ok]
  exact exists₂_congr fun w s₁ => and_congr_right fun _ => locating_eq_ok

theorem conditions_cons_eq_ok {n : Node} {rest : List Node} :
    conditions (n :: rest) s = .ok vs s' ↔
      ∃ v s₁ ws, asCondition n (expr n) s = .ok v s₁ ∧ conditions rest s₁ = .ok ws s' ∧
        vs = v :: ws := by
  constructor
  · intro h
    obtain ⟨v, s₁, hv, h⟩ := bind_eq_ok.mp h
    obtain ⟨ws, s₂, hws, h⟩ := bind_eq_ok.mp h
    obtain ⟨rfl, rfl⟩ := pure_eq_ok.mp h
    exact ⟨v, s₁, ws, hv, hws, rfl⟩
  · rintro ⟨v, s₁, ws, hv, hws, rfl⟩
    exact bind_eq_ok.mpr ⟨v, s₁, hv, bind_eq_ok.mpr ⟨ws, s', hws, rfl⟩⟩

theorem arguments_cons_eq_ok {n : Node} {rest : List Node} :
    arguments (n :: rest) s = .ok vs s' ↔
      ∃ v s₁ ws, asInt (expr n) s = .ok v s₁ ∧ arguments rest s₁ = .ok ws s' ∧ vs = v :: ws := by
  constructor
  · intro h
    obtain ⟨v, s₁, hv, h⟩ := bind_eq_ok.mp h
    obtain ⟨ws, s₂, hws, h⟩ := bind_eq_ok.mp h
    obtain ⟨rfl, rfl⟩ := pure_eq_ok.mp h
    exact ⟨v, s₁, ws, hv, hws, rfl⟩
  · rintro ⟨v, s₁, ws, hv, hws, rfl⟩
    exact bind_eq_ok.mpr ⟨v, s₁, hv, bind_eq_ok.mpr ⟨ws, s', hws, rfl⟩⟩

theorem join_cons_eq_ok {op : BinaryOp} {acc : Value} :
    join op acc (v :: vs) s = .ok w s' ↔
      ∃ w' s₁, build (Build.binary op acc v) s = .ok w' s₁ ∧ join op w' vs s₁ = .ok w s' := by
  unfold join
  rw [List.foldlM_cons]
  exact bind_eq_ok

/-! ## Blocks -/

theorem newBlock_run (s : Workspace) (label : String) :
    newBlock label s = .ok s.nextBlock (s.withBlock label) := by
  have hbuild : build (Build.newBlock label) s =
      .ok s.nextBlock { s with builder := s.builder.addBlock label } := rfl
  have hlabel : ((s.builder.addBlock label).block? s.nextBlock).elim label Block.label =
      s.builder.freshLabel label := by
    simp [Builder.block?, Builder.addBlock, Workspace.nextBlock]
  unfold newBlock
  rw [bind_of_ok hbuild]
  change EStateM.Result.ok s.nextBlock _ = _
  simp only [hlabel]
  rfl

theorem moveTo_run (s : Workspace) (target : BlockId) :
    moveTo target s = .ok () (s.movedTo target) := rfl

theorem isTerminated_eq_ok {closed : Bool} :
    isTerminated s = .ok closed s' ↔
      s' = s ∧ s.builder.HasCursor ∧ (closed = false ↔ s.builder.IsOpen) := by
  unfold isTerminated
  rw [build_eq_ok]
  constructor
  · rintro ⟨b, h, rfl⟩
    obtain ⟨rfl, hopen⟩ := Build.isTerminated_eq_ok.mp h
    exact ⟨rfl, hopen⟩
  · rintro ⟨rfl, hopen⟩
    exact ⟨s'.builder, Build.isTerminated_eq_ok.mpr ⟨rfl, hopen⟩, rfl⟩

theorem exists_isTerminated (hs : s.builder.HasCursor) :
    ∃ closed, isTerminated s = .ok closed s ∧ (closed = false ↔ s.builder.IsOpen) := by
  by_cases hopen : s.builder.IsOpen
  · exact ⟨false, isTerminated_eq_ok.mpr ⟨rfl, hs, by simp [hopen]⟩, by simp [hopen]⟩
  · exact ⟨true, isTerminated_eq_ok.mpr ⟨rfl, hs, by simp [hopen]⟩, by simp [hopen]⟩

theorem terminate_eq_ok {t : Terminator} :
    build (Build.terminate t) s = .ok u s' ↔ s.builder.IsOpen ∧ s' = s.closed t := by
  rw [build_eq_ok]
  constructor
  · rintro ⟨b, h, rfl⟩
    obtain ⟨hopen, rfl⟩ := Build.terminate_eq_ok.mp h
    exact ⟨hopen, rfl⟩
  · rintro ⟨hopen, rfl⟩
    exact ⟨_, Build.terminate_of_open hopen t, rfl⟩

theorem terminate_of_open (hs : s.builder.IsOpen) (t : Terminator) :
    build (Build.terminate t) s = .ok () (s.closed t) :=
  terminate_eq_ok.mpr ⟨hs, rfl⟩

/-- A statement behind a terminator goes to a block that nothing branches to. -/
theorem reopen_eq_ok :
    reopen s = .ok u s' ↔
      s.builder.HasCursor ∧
        ((s.builder.IsOpen ∧ s' = s) ∨
          (¬ s.builder.IsOpen ∧ s' = (s.withBlock "unreachable").movedTo s.nextBlock)) := by
  unfold reopen
  rw [bind_eq_ok]
  constructor
  · rintro ⟨closed, s₁, hclosed, h⟩
    obtain ⟨rfl, hcursor, hopen⟩ := isTerminated_eq_ok.mp hclosed
    refine ⟨hcursor, ?_⟩
    cases closed with
    | false =>
      obtain ⟨-, rfl⟩ := pure_eq_ok.mp h
      exact .inl ⟨hopen.mp rfl, rfl⟩
    | true =>
      simp only [if_true] at h
      rw [bind_of_ok (newBlock_run _ _), moveTo_run] at h
      cases h
      exact .inr ⟨by simp [← hopen], rfl⟩
  · rintro ⟨hcursor, ⟨hopen, rfl⟩ | ⟨hclosed, rfl⟩⟩
    · refine ⟨false, s', isTerminated_eq_ok.mpr ⟨rfl, hcursor, by simp [hopen]⟩, rfl⟩
    · refine ⟨true, s, isTerminated_eq_ok.mpr ⟨rfl, hcursor, by simp [hclosed]⟩, ?_⟩
      simp only [if_true]
      rw [bind_of_ok (newBlock_run _ _), moveTo_run]

theorem exists_reopen (hs : s.builder.HasCursor) : ∃ s', reopen s = .ok () s' := by
  by_cases hopen : s.builder.IsOpen
  · exact ⟨_, reopen_eq_ok.mpr ⟨hs, .inl ⟨hopen, rfl⟩⟩⟩
  · exact ⟨_, reopen_eq_ok.mpr ⟨hs, .inr ⟨hopen, rfl⟩⟩⟩

/-- An arm that has not ended leaves for the block that joins the arms, which is
    created for the first arm that needs it. -/
theorem fallThrough_eq_ok {join join' : Option BlockId} :
    fallThrough join s = .ok join' s' ↔
      s.builder.HasCursor ∧
        ((¬ s.builder.IsOpen ∧ join' = join ∧ s' = s) ∨
          (s.builder.IsOpen ∧ ∃ target s₁, join' = some target ∧ s' = s₁.closed (.br target) ∧
            ((join = some target ∧ s₁ = s) ∨
              (join = none ∧ target = s.nextBlock ∧ s₁ = s.withBlock "if.end")))) := by
  have hbranch {s₁ : Workspace} {target : BlockId} :
      (do build (Build.br target); return some target : Lower (Option BlockId)) s₁ = .ok join' s' ↔
        s₁.builder.IsOpen ∧ join' = some target ∧ s' = s₁.closed (.br target) := by
    rw [bind_eq_ok]
    constructor
    · rintro ⟨u, s₂, hbr, h⟩
      obtain ⟨hopen, rfl⟩ := terminate_eq_ok.mp hbr
      obtain ⟨rfl, rfl⟩ := pure_eq_ok.mp h
      exact ⟨hopen, rfl, rfl⟩
    · rintro ⟨hopen, rfl, rfl⟩
      exact ⟨(), _, terminate_eq_ok.mpr ⟨hopen, rfl⟩, rfl⟩
  unfold fallThrough
  rw [bind_eq_ok]
  constructor
  · rintro ⟨closed, s₁, hclosed, h⟩
    obtain ⟨rfl, hcursor, hopen⟩ := isTerminated_eq_ok.mp hclosed
    refine ⟨hcursor, ?_⟩
    cases closed with
    | true =>
      obtain ⟨rfl, rfl⟩ := pure_eq_ok.mp h
      exact .inl ⟨by simp [← hopen], rfl, rfl⟩
    | false =>
      refine .inr ⟨hopen.mp rfl, ?_⟩
      cases join with
      | some target =>
        obtain ⟨-, rfl, rfl⟩ := hbranch.mp h
        exact ⟨target, s₁, rfl, rfl, .inl ⟨rfl, rfl⟩⟩
      | none =>
        change (newBlock "if.end" >>= fun target => do
          build (Build.br target); return some target : Lower (Option BlockId)) s₁ = _ at h
        rw [bind_of_ok (newBlock_run _ _)] at h
        obtain ⟨-, rfl, rfl⟩ := hbranch.mp h
        exact ⟨_, _, rfl, rfl, .inr ⟨rfl, rfl, rfl⟩⟩
  · rintro ⟨hcursor, ⟨hclosed, rfl, rfl⟩ | ⟨hopen, target, s₁, rfl, rfl, hjoin⟩⟩
    · exact ⟨true, s', isTerminated_eq_ok.mpr ⟨rfl, hcursor, by simp [hclosed]⟩, rfl⟩
    · refine ⟨false, s, isTerminated_eq_ok.mpr ⟨rfl, hcursor, by simp [hopen]⟩, ?_⟩
      rcases hjoin with ⟨rfl, rfl⟩ | ⟨rfl, rfl, rfl⟩
      · exact hbranch.mpr ⟨hopen, rfl, rfl⟩
      · change (newBlock "if.end" >>= fun target => do
          build (Build.br target); return some target : Lower (Option BlockId)) s = _
        rw [bind_of_ok (newBlock_run _ _)]
        exact hbranch.mpr ⟨hopen.addBlock _, rfl, rfl⟩

theorem exists_fallThrough (hs : s.builder.HasCursor) (join : Option BlockId) :
    ∃ join' s', fallThrough join s = .ok join' s' := by
  by_cases hopen : s.builder.IsOpen
  · cases join with
    | some target =>
      exact ⟨_, _, fallThrough_eq_ok.mpr
        ⟨hs, .inr ⟨hopen, target, s, rfl, rfl, .inl ⟨rfl, rfl⟩⟩⟩⟩
    | none =>
      exact ⟨_, _, fallThrough_eq_ok.mpr
        ⟨hs, .inr ⟨hopen, _, _, rfl, rfl, .inr ⟨rfl, rfl, rfl⟩⟩⟩⟩
  · exact ⟨_, _, fallThrough_eq_ok.mpr ⟨hs, .inl ⟨hopen, rfl, rfl⟩⟩⟩

/-- The stages of lowering a branch. -/
inductive BranchRun (test : Lower Value) (body orelse : Lower Unit) :
    Workspace → Workspace → Prop where
  | mk {s s₁ s₂ s₃ s₄ s₅ : Workspace} {cond : Value} {join join' : Option BlockId}
    (htest : test s = .ok cond s₁) (hopen : s₁.withArms.builder.IsOpen)
    (hbody :
      body ((s₁.withArms.closed (.condBr cond s₁.nextBlock s₁.secondBlock)).movedTo s₁.nextBlock) =
        .ok () s₂)
    (hthen : fallThrough none s₂ = .ok join s₃)
    (horelse : orelse (s₃.movedTo s₁.secondBlock) = .ok () s₄)
    (helse : fallThrough join s₄ = .ok join' s₅) :
    BranchRun test body orelse s (join'.elim s₅ s₅.movedTo)

theorem branch_run {test : Lower Value} {body orelse : Lower Unit}
    (h : branch test body orelse s = .ok u s') : BranchRun test body orelse s s' := by
  unfold branch at h
  obtain ⟨cond, s₁, htest, h⟩ := bind_eq_ok.mp h
  rw [bind_of_ok (newBlock_run _ _), bind_of_ok (newBlock_run _ _),
    Workspace.withBlock_nextBlock] at h
  obtain ⟨_, _, hcond, h⟩ := bind_eq_ok.mp h
  obtain ⟨hopen, rfl⟩ := terminate_eq_ok.mp hcond
  rw [bind_of_ok (moveTo_run _ _)] at h
  obtain ⟨_, s₂, hbody, h⟩ := bind_eq_ok.mp h
  obtain ⟨join, s₃, hthen, h⟩ := bind_eq_ok.mp h
  rw [bind_of_ok (moveTo_run _ _)] at h
  obtain ⟨_, s₄, horelse, h⟩ := bind_eq_ok.mp h
  obtain ⟨join', s₅, helse, h⟩ := bind_eq_ok.mp h
  have hs' : s' = join'.elim s₅ s₅.movedTo := by
    cases join' with
    | none =>
      obtain ⟨-, rfl⟩ := pure_eq_ok.mp h
      rfl
    | some target =>
      cases h
      rfl
  rw [hs']
  exact .mk htest hopen hbody hthen horelse helse

/-- The stages of lowering a loop. -/
inductive LoopRun (test : Lower Value) (body : Lower Unit) : Workspace → Workspace → Prop where
  | mk {s s₁ s₂ s₃ : Workspace} {cond : Value} (hopen : s.withLoop.builder.IsOpen)
    (htest : test ((s.withLoop.closed (.br s.nextBlock)).movedTo s.nextBlock) = .ok cond s₁)
    (hbody : body (s₁.movedTo s.secondBlock) = .ok () s₂) (hcursor : s₂.builder.HasCursor)
    (hback :
      (s₂.builder.IsOpen ∧ s₃ = s₂.closed (.br s.nextBlock)) ∨ (¬ s₂.builder.IsOpen ∧ s₃ = s₂))
    (hexit : (s₃.movedTo s₁.builder.cursor).builder.IsOpen) :
    LoopRun test body s
      (((s₃.movedTo s₁.builder.cursor).closed (.condBr cond s.secondBlock s.thirdBlock)).movedTo
        s.thirdBlock)

theorem loop_run {test : Lower Value} {body : Lower Unit} (h : loop test body s = .ok u s') :
    LoopRun test body s s' := by
  unfold loop at h
  rw [bind_of_ok (newBlock_run _ _), bind_of_ok (newBlock_run _ _),
    bind_of_ok (newBlock_run _ _), Workspace.withBlock_nextBlock, Workspace.withBlock_nextBlock,
    Workspace.withBlock_secondBlock] at h
  obtain ⟨_, _, hbr, h⟩ := bind_eq_ok.mp h
  obtain ⟨hopen, rfl⟩ := terminate_eq_ok.mp hbr
  rw [bind_of_ok (moveTo_run _ _)] at h
  obtain ⟨cond, s₁, htest, h⟩ := bind_eq_ok.mp h
  have hget : (get : Lower Workspace) s₁ = .ok s₁ s₁ := rfl
  rw [bind_of_ok hget, bind_of_ok (moveTo_run _ _)] at h
  obtain ⟨_, s₂, hbody, h⟩ := bind_eq_ok.mp h
  have hclose {s₃ : Workspace}
      (hback : (s₂.builder.IsOpen ∧ s₃ = s₂.closed (.br s.nextBlock)) ∨
        (¬ s₂.builder.IsOpen ∧ s₃ = s₂))
      (hcursor : s₂.builder.HasCursor)
      (h : (do
        moveTo s₁.builder.cursor
        build (Build.condBr cond s.secondBlock s.thirdBlock)
        moveTo s.thirdBlock : Lower Unit) s₃ = .ok u s') : LoopRun test body s s' := by
    rw [bind_of_ok (moveTo_run _ _)] at h
    obtain ⟨_, _, hcond, h⟩ := bind_eq_ok.mp h
    obtain ⟨hexit, rfl⟩ := terminate_eq_ok.mp hcond
    cases h
    exact .mk hopen htest hbody hcursor hback hexit
  obtain ⟨closed, _, hclosed, h⟩ := bind_eq_ok.mp h
  obtain ⟨rfl, hcursor, hback⟩ := isTerminated_eq_ok.mp hclosed
  cases closed with
  | true => exact hclose (.inr ⟨by simp [← hback], rfl⟩) hcursor h
  | false =>
    obtain ⟨_, _, hbr, h⟩ := bind_eq_ok.mp h
    obtain ⟨hopen', rfl⟩ := terminate_eq_ok.mp hbr
    exact hclose (.inl ⟨hopen', rfl⟩) hcursor h

/-! ## Functions -/

/-- The stages of building a function. -/
inductive FunctionRun (name : String) (params : List String) (body : Lower Unit)
    (id : FunctionId) : Context → Context → Prop where
  | mk {ctx ctx₁ : Context} {s s' : Workspace}
    (hclaim : ctx.claim name params.length = .ok (id, ctx₁))
    (hbody : body (.start ctx₁ name params) = .ok () s) (hcursor : s.builder.HasCursor)
    (hend :
      (s.builder.IsOpen ∧ s' = s.closed (.ret (.int 0))) ∨ (¬ s.builder.IsOpen ∧ s' = s)) :
    FunctionRun name params body id ctx (s'.finished id name)

theorem buildFunction_run {name : String} {params : List String} {body : Lower Unit}
    {ctx ctx' : Context} {id : FunctionId}
    (h : Context.buildFunction name params body ctx = .ok id ctx') :
    FunctionRun name params body id ctx ctx' := by
  unfold Context.buildFunction at h
  cases hclaim : ctx.claim name params.length with
  | error e =>
    rw [hclaim] at h
    cases h
  | ok claimed =>
    obtain ⟨id', ctx₁⟩ := claimed
    simp only [hclaim] at h
    split at h
    · cases h
    · rename_i s' hrun
      cases h
      obtain ⟨_, s₁, hbody, hrun⟩ := bind_eq_ok.mp hrun
      obtain ⟨closed, s₂, hclosed, hrun⟩ := bind_eq_ok.mp hrun
      obtain ⟨rfl, hcursor, hopen⟩ := isTerminated_eq_ok.mp hclosed
      refine .mk hclaim hbody hcursor ?_
      cases closed with
      | true =>
        obtain ⟨-, rfl⟩ := pure_eq_ok.mp hrun
        exact .inr ⟨by simp [← hopen], rfl⟩
      | false =>
        refine .inl ⟨hopen.mp rfl, ?_⟩
        exact (terminate_eq_ok.mp hrun).2

/-! ## Statements -/

theorem ExprRun.isExpression {k : Kind} (h : ExprRun k s v s') : k.isExpression = true := by
  cases h <;> rfl

/-- An expression that stands as a statement is lowered, and its value is not
    used. -/
theorem statementKind_of_isExpression {k : Kind} (h : k.isExpression = true) :
    statementKind k = (do let _ ← exprKind k) := by
  cases k <;> first | rfl | cases h

/-- The ways in which a statement is lowered. -/
inductive StatementRun : Kind → Workspace → Workspace → Prop where
  | assign {id : String} {location : Option Location} {span : Option Span} {value : Node}
    {s s₁ s' : Workspace} {v : Value} (hvalue : expr value s = .ok v s₁)
    (h : build (Build.write id v) s₁ = .ok () s') :
    StatementRun (.assign [⟨.name id, location, span⟩] value) s s'
  | expr {value : Node} {s s' : Workspace} {v : Value} (h : expr value s = .ok v s') :
    StatementRun (.expr value) s s'
  | ret {value : Node} {s s₁ s' : Workspace} {v : Value} (hvalue : Lower.expr value s = .ok v s₁)
    (h : build (Build.ret v) s₁ = .ok () s') : StatementRun (.ret (some value)) s s'
  | retNone {s s' : Workspace} (h : build (Build.ret (.int 0)) s = .ok () s') :
    StatementRun (.ret none) s s'
  | ifElse {test : Node} {body orelse : List Node} {s s' : Workspace}
    (h : branch (condition test) (block body) (elseClause orelse) s = .ok () s') :
    StatementRun (.ifElse test body orelse) s s'
  | whileLoop {test : Node} {body : List Node} {s s' : Workspace}
    (h : loop (condition test) (block body) s = .ok () s') :
    StatementRun (.whileLoop test body []) s s'
  | functionDef {name : String} {params : List String} {body : List Node} {s : Workspace}
    {id : FunctionId} {ctx : Context}
    (h : Context.buildFunction name params (block body) s.context = .ok id ctx) :
    StatementRun (.functionDef name params body) s { s with context := ctx }
  | value {k : Kind} {s s' : Workspace} {v : Value} (h : ExprRun k s v s') : StatementRun k s s'

theorem statementKind_run {k : Kind} (h : statementKind k s = .ok u s') :
    StatementRun k s s' := by
  cases k with
  | assign targets value =>
    match targets with
    | [] => exact absurd h unsupported_ne_ok
    | ⟨kind, location, span⟩ :: target :: rest =>
      cases kind <;> exact absurd h unsupported_ne_ok
    | [⟨kind, location, span⟩] =>
      cases kind with
      | name id =>
        obtain ⟨v, s₁, hvalue, h⟩ := bind_eq_ok.mp h
        exact .assign hvalue h
      | _ => exact absurd h locating_unsupported_ne_ok
  | expr value =>
    obtain ⟨v, s₁, hvalue, h⟩ := bind_eq_ok.mp h
    obtain ⟨-, rfl⟩ := pure_eq_ok.mp h
    exact .expr hvalue
  | ret value =>
    cases value with
    | none => exact .retNone h
    | some value =>
      obtain ⟨v, s₁, hvalue, h⟩ := bind_eq_ok.mp h
      exact .ret hvalue h
  | ifElse test body orelse => exact .ifElse h
  | whileLoop test body orelse =>
    cases orelse with
    | nil => exact .whileLoop h
    | cons n rest => exact absurd h unsupported_ne_ok
  | functionDef name params body =>
    obtain ⟨id, s₁, hnested, h⟩ := bind_eq_ok.mp h
    obtain ⟨-, rfl⟩ := pure_eq_ok.mp h
    obtain ⟨ctx, hbuild, rfl⟩ := nested_eq_ok.mp hnested
    exact .functionDef hbuild
  | augAssign target op value => exact absurd h unsupported_ne_ok
  | module body => exact absurd h unsupported_ne_ok
  | forLoop target iter body orelse => exact absurd h unsupported_ne_ok
  | pass => exact absurd h unsupported_ne_ok
  | breakLoop => exact absurd h unsupported_ne_ok
  | continueLoop => exact absurd h unsupported_ne_ok
  | _ =>
    obtain ⟨v, s₁, hvalue, h⟩ := bind_eq_ok.mp h
    obtain ⟨-, rfl⟩ := pure_eq_ok.mp h
    exact .value (exprKind_run hvalue)

theorem statement_run {n : Node} (h : statement n s = .ok u s') : StatementRun n.kind s s' := by
  obtain ⟨kind, location, span⟩ := n
  exact statementKind_run (locating_eq_ok.mp h)

theorem block_cons_eq_ok {n : Node} {rest : List Node} :
    block (n :: rest) s = .ok u s' ↔
      ∃ s₁ s₂, reopen s = .ok () s₁ ∧ statement n s₁ = .ok () s₂ ∧ block rest s₂ = .ok () s' := by
  constructor
  · intro h
    obtain ⟨_, s₁, hreopen, h⟩ := bind_eq_ok.mp h
    obtain ⟨_, s₂, hn, hrest⟩ := bind_eq_ok.mp h
    exact ⟨s₁, s₂, hreopen, hn, hrest⟩
  · rintro ⟨s₁, s₂, hreopen, hn, hrest⟩
    exact bind_eq_ok.mpr ⟨(), s₁, hreopen, bind_eq_ok.mpr ⟨(), s₂, hn, hrest⟩⟩

theorem noteShortened_run (s : Workspace) (statements : Nat) :
    noteShortened statements s = .ok () (s.shortened statements) := by
  unfold noteShortened Workspace.shortened
  by_cases h : 1 < statements
  · rw [if_pos h, if_pos h]
    rfl
  · rw [if_neg h, if_neg h]
    rfl

/-- The first statement of an `else` clause is all that is lowered of it. -/
theorem elseClause_cons (n : Node) (rest : List Node) (s : Workspace) :
    elseClause (n :: rest) s = statement n (s.shortened (n :: rest).length) :=
  bind_of_ok (noteShortened_run _ _)

end Lower

end Blockform
