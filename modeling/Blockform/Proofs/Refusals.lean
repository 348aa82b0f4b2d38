-- SUMMARY: Statements lowered from any point of a function: they are refused or succeed, never put behind a terminator, and leave nothing open (`Lower.block_promises`).
import Blockform.Proofs.Framing

/-!
# Lowering from any point

Statements may be lowered wherever the cursor is on a block, open or not, and
whatever the functions around them are. If that fails, the tree is refused
(`Lower.Refuses`): an instruction never comes behind a terminator, and no block is
looked for that does not exist. Where an expression or a statement starts the
cursor is on an open block, where a statement ends it is on some block, and what a
construct puts aside is found again as it was left (`Builder.Framed`).
-/

namespace Blockform

open Effect

/-- The tree is refused. The other ways to stop are defects of lowering: an
    instruction behind a terminator, and a number without an entry. -/
def Abort.IsRefusal (e : Abort LoweringError) : Prop :=
  ∃ refusal, e = .error refusal ∧ refusal.kind ≠ .closedBlock

namespace Lower

open Builder

variable {α β : Type} {x : Lower α} {f : α → Lower β} {s s' : Workspace} {a : α}

/-! ## Sequences -/

/-- If the step fails, the tree is refused. -/
def Refuses (x : Lower α) (s : Workspace) : Prop := ∀ e s', x s = .error e s' → e.IsRefusal

namespace Refuses

theorem of_ok (h : x s = .ok a s') : Refuses x s := by
  intro e s'' herror
  cases h.symm.trans herror

theorem of_error {e : LoweringError} (h : x s = .error (.error e) s')
    (he : e.kind ≠ .closedBlock) : Refuses x s := by
  intro e' s'' herror
  cases h.symm.trans herror
  exact ⟨e, rfl, he⟩

theorem bind (hx : Refuses x s) (hf : ∀ a s', x s = .ok a s' → Refuses (f a) s') :
    Refuses (x >>= f) s := by
  intro e s'' h
  cases hrun : x s with
  | ok a s' =>
    rw [bind_of_ok hrun] at h
    exact hf a s' hrun _ _ h
  | error e' s' =>
    rw [bind_of_error hrun] at h
    cases h
    exact hx _ _ hrun

/-- A step behind one that has succeeded. -/
theorem after (h : x s = .ok a s') (hf : Refuses (f a) s') : Refuses (x >>= f) s := by
  intro e s'' herror
  rw [bind_of_ok h] at herror
  exact hf _ _ herror

theorem locating (hx : Refuses x s) (n : Node) : Refuses (locating n x) s := by
  intro e s' h
  unfold Lower.locating at h
  cases hrun : x s with
  | ok a s'' =>
    rw [hrun] at h
    cases h
  | error e' s'' =>
    rw [hrun] at h
    cases h
    obtain ⟨refusal, rfl, hkind⟩ := hx _ _ hrun
    exact ⟨refusal.locate n, rfl, by rwa [LoweringError.locate_kind]⟩

/-- A value that is not used. -/
theorem discard (hx : Refuses x s) : Refuses (do let _ ← x) s := hx.bind fun _ _ _ => of_ok rfl

theorem unsupported (what : String) : Refuses (unsupported what : Lower α) s :=
  of_error rfl (by simp [LoweringError.unsupported])

end Refuses

/-! ## Steps of building -/

theorem define_refuses (hs : s.builder.IsOpen) {ty : Ty} {op : InstId → Op}
    (hop : ∀ dest, (op dest).dest = some dest) : Refuses (build (Build.define ty op)) s :=
  .of_ok (build_of_ok (Build.define_of_open hs hop))

theorem toInt_refuses (hs : s.builder.IsOpen) (v : Value) : Refuses (build (Build.toInt v)) s := by
  obtain ⟨w, b, hint, -⟩ := Build.exists_toInt hs v
  exact .of_ok (build_of_ok hint)

theorem toBool_refuses (hs : s.builder.IsOpen) (v : Value) :
    Refuses (build (Build.toBool v)) s := by
  unfold Build.toBool
  cases v.ty with
  | i1 => exact .of_ok (build_of_ok rfl)
  | i32 => exact define_refuses hs fun _ => rfl

/-- A name is read, or it is unbound. -/
theorem read_refuses (hs : s.builder.IsOpen) (name : String) :
    Refuses (build (Build.read name)) s := by
  cases hparam : s.builder.param? name with
  | some v => exact .of_ok (build_of_ok (Build.read_eq_ok.mpr (.inl ⟨hparam, rfl⟩)))
  | none =>
    cases hslot : s.builder.slot? name with
    | some slot =>
      exact .of_ok (build_of_ok
        (Build.read_eq_ok.mpr (.inr ⟨hparam, slot, hslot, hs, rfl, rfl⟩)))
    | none =>
      have hfail : build (Build.read name) s =
          .error (.error (.unbound name s.builder.name)) s := by
        unfold build
        rw [Build.read_of_unbound hparam hslot]
      exact .of_error hfail (by simp [LoweringError.unbound])

theorem write_refuses (hs : s.builder.IsOpen) (name : String) (v : Value) :
    Refuses (build (Build.write name v)) s := by
  obtain ⟨w, b, hint, hopen⟩ := Build.exists_toInt hs v
  exact .of_ok (a := ()) (build_of_ok (Build.write_eq_ok.mpr ⟨w, b, hint, hopen, rfl⟩))

theorem ret_refuses (hs : s.builder.IsOpen) (v : Value) : Refuses (build (Build.ret v)) s := by
  obtain ⟨w, b, hint, hopen⟩ := Build.exists_toInt hs v
  exact .of_ok (a := ()) (build_of_ok (Build.ret_eq_ok.mpr ⟨w, b, hint, hopen, rfl⟩))

/-- A callee is known or declared, or it is undeclared. -/
theorem resolve_refuses (name : String) (arity : Nat) (s : Workspace) :
    Refuses (resolve name arity) s := by
  intro e s' h
  unfold resolve Context.resolve at h
  cases hauto : s.context.options.autoDeclareCallees with
  | true =>
    rw [hauto] at h
    cases h
  | false =>
    rw [hauto] at h
    simp only [Bool.false_eq_true, if_false, Context.get] at h
    cases hlookup : s.context.program.lookup name with
    | some id =>
      rw [hlookup] at h
      cases h
    | none =>
      rw [hlookup] at h
      cases h
      exact ⟨.undeclared name, rfl, by simp [LoweringError.undeclared]⟩

/-! ## Expressions -/

/-- Lowering a node in the place of an expression at an open block is refused or
    succeeds. -/
def ExprRefuses (n : Node) : Prop := ∀ s : Workspace, s.builder.IsOpen → Refuses (expr n) s

theorem asInt_refuses {n : Node} (hn : ExprRefuses n) (hs : s.builder.IsOpen) :
    Refuses (asInt (expr n)) s :=
  (hn s hs).bind fun v _ hv => toInt_refuses ((expr_emits hv).isOpen_iff.mpr hs) v

theorem asCondition_refuses {n : Node} (hn : ExprRefuses n) (hs : s.builder.IsOpen) (m : Node) :
    Refuses (asCondition m (expr n)) s :=
  (hn s hs).bind fun v _ hv => (toBool_refuses ((expr_emits hv).isOpen_iff.mpr hs) v).locating m

theorem join_refuses (hs : s.builder.IsOpen) (op : BinaryOp) (first : Value)
    (rest : List Value) : Refuses (join op first rest) s := by
  induction rest generalizing first s with
  | nil => exact .of_ok rfl
  | cons v rest ih =>
    unfold join
    rw [List.foldlM_cons]
    refine (define_refuses hs fun _ => rfl).bind fun w s₁ hw => ?_
    exact ih ((build_emits Build.binary_emits hw).isOpen_iff.mpr hs) w

theorem conditions_refuses {ns : List Node} (hns : ∀ n ∈ ns, ExprRefuses n)
    (hs : s.builder.IsOpen) : Refuses (conditions ns) s := by
  induction ns generalizing s with
  | nil => exact .of_ok rfl
  | cons n rest ih =>
    rw [List.forall_mem_cons] at hns
    refine (asCondition_refuses hns.1 hs n).bind fun v s₁ hv => ?_
    have hs₁ := (asCondition_emits (exprEmits n) hv).isOpen_iff.mpr hs
    exact (ih hns.2 hs₁).bind fun _ _ _ => .of_ok rfl

theorem arguments_refuses {ns : List Node} (hns : ∀ n ∈ ns, ExprRefuses n)
    (hs : s.builder.IsOpen) : Refuses (arguments ns) s := by
  induction ns generalizing s with
  | nil => exact .of_ok rfl
  | cons n rest ih =>
    rw [List.forall_mem_cons] at hns
    refine (asInt_refuses hns.1 hs).bind fun v s₁ hv => ?_
    have hs₁ := (asInt_emits (exprEmits n) hv).isOpen_iff.mpr hs
    exact (ih hns.2 hs₁).bind fun _ _ _ => .of_ok rfl

/-- Two operands, from the left, and a result that is added behind them. -/
theorem operands_refuses {left right : Node} {f : Value → Value → Lower Value}
    (hleft : ExprRefuses left) (hright : ExprRefuses right) (hs : s.builder.IsOpen)
    (hf : ∀ l r (s' : Workspace), s'.builder.IsOpen → Refuses (f l r) s') :
    Refuses (do f (← asInt (expr left)) (← asInt (expr right))) s := by
  refine (asInt_refuses hleft hs).bind fun l s₁ hl => ?_
  have hs₁ := (asInt_emits (exprEmits left) hl).isOpen_iff.mpr hs
  refine (asInt_refuses hright hs₁).bind fun r s₂ hr => ?_
  exact hf l r s₂ ((asInt_emits (exprEmits right) hr).isOpen_iff.mpr hs₁)

theorem exprKind_refuses {k : Kind} (hparts : ∀ n ∈ k.parts, ExprRefuses n)
    (hs : s.builder.IsOpen) : Refuses (exprKind k) s := by
  cases k with
  | constant n => exact .of_ok rfl
  | name id => exact read_refuses hs id
  | unaryOp op operand =>
    cases op with
    | uSub =>
      refine (asInt_refuses (hparts operand (by simp [Kind.parts])) hs).bind fun v s₁ hv => ?_
      exact define_refuses ((asInt_emits (exprEmits operand) hv).isOpen_iff.mpr hs) fun _ => rfl
    | uAdd => exact .unsupported _
    | not => exact .unsupported _
    | invert => exact .unsupported _
  | binOp left op right =>
    rw [exprKind]
    cases op.arithmetic with
    | none => exact .unsupported _
    | some arithmetic =>
      exact operands_refuses (hparts left (by simp [Kind.parts]))
        (hparts right (by simp [Kind.parts])) hs fun _ _ _ hs' => define_refuses hs' fun _ => rfl
  | boolOp op values =>
    cases values with
    | nil => exact .unsupported _
    | cons first rest =>
      have hfirst := hparts first (by simp [Kind.parts])
      have hrest : ∀ n ∈ rest, ExprRefuses n := fun n hn => hparts n (by simp [Kind.parts, hn])
      refine (asCondition_refuses hfirst hs first).bind fun v s₁ hv => ?_
      have hs₁ := (asCondition_emits (exprEmits first) hv).isOpen_iff.mpr hs
      refine (conditions_refuses hrest hs₁).bind fun vs s₂ hvs => ?_
      have hs₂ := (conditions_emits (fun n _ => exprEmits n) hvs).isOpen_iff.mpr hs₁
      exact join_refuses hs₂ op.logic v vs
  | compare left ops rights =>
    rcases ops with - | ⟨op, - | ⟨op', ops⟩⟩
    · exact .unsupported _
    · rcases rights with - | ⟨right, - | ⟨right', rights⟩⟩
      · exact .unsupported _
      · rw [exprKind]
        cases op.predicate with
        | none => exact .unsupported _
        | some predicate =>
          exact operands_refuses (hparts left (by simp [Kind.parts]))
            (hparts right (by simp [Kind.parts])) hs
            fun _ _ _ hs' => define_refuses hs' fun _ => rfl
      · exact .unsupported _
    · exact .unsupported _
  | call func args keywords =>
    cases keywords with
    | cons keyword rest => exact .unsupported _
    | nil =>
      obtain ⟨kind, location, span⟩ := func
      cases kind with
      | name id =>
        refine (resolve_refuses id args.length s).bind fun callee s₁ hcallee => ?_
        obtain ⟨ctx, -, rfl⟩ := resolve_eq_ok.mp hcallee
        have hargs : ∀ n ∈ args, ExprRefuses n := fun n hn => hparts n (by simp [Kind.parts, hn])
        have hs₁ : ({ s with context := ctx } : Workspace).builder.IsOpen := hs
        refine (arguments_refuses hargs hs₁).bind fun vs s₂ hvs => ?_
        have hs₂ := (arguments_emits (fun n _ => exprEmits n) hvs).isOpen_iff.mpr hs₁
        exact define_refuses hs₂ fun _ => rfl
      | _ => exact (Refuses.unsupported _).locating _
  | _ => exact .unsupported _

theorem exprRefuses (n : Node) : ExprRefuses n := by
  induction n using Node.parts_induction with
  | step n ih =>
    obtain ⟨kind, location, span⟩ := n
    exact fun s hs => (exprKind_refuses ih hs).locating _

theorem condition_refuses (n : Node) (hs : s.builder.IsOpen) : Refuses (condition n) s :=
  asCondition_refuses (exprRefuses n) hs n

/-! ## Constructs -/

/-- A step that may be taken wherever the cursor is on a block. -/
def BodyRefuses (x : Lower Unit) : Prop :=
  ∀ s : Workspace, s.builder.HasCursor → Refuses x s

/-- A step that is taken where the cursor is on an open block. -/
def StepRefuses (x : Lower Unit) : Prop :=
  ∀ s : Workspace, s.builder.IsOpen → Refuses x s

theorem branch_refuses {test : Lower Value} {body orelse : Lower Unit}
    (htest : ∀ s : Workspace, s.builder.IsOpen → Refuses test s)
    (hemits : ∀ {s v s'}, test s = .ok v s' → s.builder.Emits s'.builder)
    (hbody : BodyRefuses body) (hsettles : StepSettles body) (horelse : StepRefuses orelse)
    (hsettles' : StepSettles orelse) : StepRefuses (branch test body orelse) := by
  intro s hs
  refine (htest s hs).bind fun cond s₁ hcond => ?_
  have hopen : s₁.builder.IsOpen := (hemits hcond).isOpen_iff.mpr hs
  have hopen' : s₁.withArms.builder.IsOpen := (hopen.addBlock _).addBlock _
  refine .after (newBlock_run _ _) (.after (newBlock_run _ _) ?_)
  rw [Workspace.withBlock_nextBlock]
  refine .after (terminate_of_open hopen' _) (.after (moveTo_run _ _) ?_)
  refine (hbody _ (firstArm_hasCursor ..)).bind fun _ s₂ hthen => ?_
  have hcursor₂ := (hsettles _ _ hthen).toFramed.hasCursor (firstArm_hasCursor ..)
  obtain ⟨join, s₃, hjoin⟩ := exists_fallThrough hcursor₂ none
  refine .after hjoin (.after (moveTo_run _ _) ?_)
  have hopen₃ := secondArm_isOpen hopen.hasCursor (hsettles _ _ hthen) (fallThrough_run hjoin)
  refine (horelse _ hopen₃).bind fun _ s₄ helse => ?_
  have hcursor₄ := (hsettles' _ _ helse).toFramed.hasCursor hopen₃.hasCursor
  obtain ⟨join', s₅, hjoin'⟩ := exists_fallThrough hcursor₄ join
  refine .after hjoin' ?_
  cases join' with
  | none => exact .of_ok rfl
  | some target => exact .of_ok (moveTo_run _ _)

theorem loop_refuses {test : Lower Value} {body : Lower Unit}
    (htest : ∀ s : Workspace, s.builder.IsOpen → Refuses test s)
    (hemits : ∀ {s v s'}, test s = .ok v s' → s.builder.Emits s'.builder)
    (hbody : BodyRefuses body) (hsettles : StepSettles body) : StepRefuses (loop test body) := by
  intro s hs
  have hopen' : s.withLoop.builder.IsOpen := ((hs.addBlock _).addBlock _).addBlock _
  refine .after (newBlock_run _ _) (.after (newBlock_run _ _) (.after (newBlock_run _ _) ?_))
  rw [Workspace.withBlock_nextBlock, Workspace.withBlock_nextBlock, Workspace.withBlock_secondBlock]
  refine .after (terminate_of_open hopen' _) (.after (moveTo_run _ _) ?_)
  have hopen : ((s.withLoop.closed (.br s.nextBlock)).movedTo s.nextBlock).builder.IsOpen := by
    refine openAt_close.mpr ⟨?_, Nat.ne_of_gt hs.lt⟩
    exact openAt_addBlock.mpr (.inl (openAt_addBlock.mpr (.inl (openAt_addBlock.mpr (.inr rfl)))))
  refine (htest _ hopen).bind fun cond s₁ hcond => ?_
  have hopen₁ : s₁.builder.IsOpen := (hemits hcond).isOpen_iff.mpr hopen
  have hlength : s.builder.blocks.length + 3 ≤ s₁.builder.blocks.length :=
    Nat.le_trans (Nat.le_of_eq (s.length_withLoop _).symm) (hemits hcond).settles.length
  have hcursor₁ : (s₁.movedTo s.secondBlock).builder.HasCursor :=
    Nat.lt_of_lt_of_le (Nat.lt_succ_self _) (Nat.le_trans (Nat.le_succ _) hlength)
  have hget : (get : Lower Workspace) s₁ = .ok s₁ s₁ := rfl
  refine .after hget (.after (moveTo_run _ _) ?_)
  refine (hbody _ hcursor₁).bind fun _ s₂ hrun => ?_
  -- The test was put aside while the body was lowered.
  have hne : s₁.builder.cursor.val ≠ s.secondBlock.val := by
    rw [(hemits hcond).cursor_eq]
    exact Nat.ne_of_lt (Nat.lt_succ_self _)
  have hexit : s₂.builder.OpenAt s₁.builder.cursor.val :=
    ((hsettles _ _ hrun).openAt_iff hopen₁.lt hne).mpr hopen₁
  have hcursor₂ := (hsettles _ _ hrun).toFramed.hasCursor hcursor₁
  have hend {s₃ : Workspace} (hexit : s₃.builder.OpenAt s₁.builder.cursor.val) :
      Refuses (do
        moveTo s₁.builder.cursor
        build (Build.condBr cond s.secondBlock s.thirdBlock)
        moveTo s.thirdBlock) s₃ := by
    have hopen₃ : (s₃.movedTo s₁.builder.cursor).builder.IsOpen := hexit
    exact .after (moveTo_run _ _) (.after (terminate_of_open hopen₃ _) (.of_ok (moveTo_run _ _)))
  obtain ⟨closed, hclosed₂, hback⟩ := exists_isTerminated hcursor₂
  refine .after hclosed₂ ?_
  cases closed with
  | true => exact hend hexit
  | false =>
    refine .after (terminate_of_open (hback.mp rfl) _) (hend (openAt_close.mpr ⟨hexit, ?_⟩))
    exact (hsettles _ _ hrun).ne_cursor hopen₁.lt hne

/-! ## Functions -/

/-- A number is not claimed for a second body. -/
theorem claim_refuses {ctx : Context} {name : String} {arity : Nat} {e : LoweringError}
    (h : ctx.claim name arity = .error e) : e = .duplicate name := by
  unfold Context.claim at h
  generalize ctx.declare name ⟨arity⟩ = declared at h
  obtain ⟨id, ctx₁⟩ := declared
  simp only at h
  split at h <;> cases h
  rfl

/-- A function that is built inside another one starts with a block of its own. -/
theorem buildFunction_refuses {name : String} {params : List String} {body : Lower Unit}
    (hbody : BodyRefuses body) (hsettles : StepSettles body) {ctx ctx' : Context}
    {e : Abort LoweringError}
    (h : Context.buildFunction name params body ctx = .error e ctx') : e.IsRefusal := by
  unfold Context.buildFunction at h
  cases hclaim : ctx.claim name params.length with
  | error e' =>
    rw [hclaim] at h
    cases h
    exact ⟨e', rfl, by simp [claim_refuses hclaim, LoweringError.duplicate]⟩
  | ok claimed =>
    obtain ⟨id, ctx₁⟩ := claimed
    simp only [hclaim] at h
    have hcursor : (Workspace.start ctx₁ name params).builder.HasCursor := Nat.zero_lt_one
    have hwhole : Refuses (do
        body
        if !(← isTerminated) then build (Build.ret (.int 0))) (.start ctx₁ name params) := by
      refine (hbody _ hcursor).bind fun _ s hrun => ?_
      have hcursor' := (hsettles _ _ hrun).toFramed.hasCursor hcursor
      obtain ⟨closed, hclosed, hopen⟩ := exists_isTerminated hcursor'
      refine .after hclosed ?_
      cases closed with
      | true => exact .of_ok rfl
      | false => exact ret_refuses (hopen.mp rfl) _
    split at h
    · rename_i e' s' hrun
      cases h
      exact hwhole _ _ hrun
    · cases h

theorem functionDef_refuses {name : String} {params : List String} {body : Lower Unit}
    (hbody : BodyRefuses body) (hsettles : StepSettles body) :
    Refuses (nested (Context.buildFunction name params body)) s := by
  intro e s' h
  unfold nested at h
  cases hrun : Context.buildFunction name params body s.context with
  | ok id ctx =>
    rw [hrun] at h
    cases h
  | error e' ctx =>
    rw [hrun] at h
    cases h
    exact buildFunction_refuses hbody hsettles hrun

/-! ## Statements -/

theorem block_refuses {ns : List Node} (hns : ∀ n ∈ ns, StepRefuses (statement n)) :
    BodyRefuses (block ns) := by
  induction ns with
  | nil => exact fun s _ => .of_ok rfl
  | cons n rest ih =>
    intro s hs
    rw [List.forall_mem_cons] at hns
    obtain ⟨s₁, hreopen⟩ := exists_reopen hs
    have hopen := reopen_isOpen hreopen
    refine .after hreopen ((hns.1 _ hopen).bind fun _ s₂ hn => ?_)
    exact ih hns.2 _ ((statement_settles n _ _ hn).toFramed.hasCursor hopen.hasCursor)

theorem elseClause_refuses {ns : List Node} (hns : ∀ n ∈ ns, StepRefuses (statement n)) :
    StepRefuses (elseClause ns) := by
  intro s hs
  cases ns with
  | nil => exact .of_ok rfl
  | cons n rest =>
    refine .after (noteShortened_run _ _) (hns n (List.mem_cons_self ..) _ ?_)
    rwa [Workspace.shortened_builder]

theorem statementKind_refuses {k : Kind} (hparts : ∀ n ∈ k.parts, StepRefuses (statement n)) :
    StepRefuses (statementKind k) := by
  intro s hs
  have hvalue : Refuses (do let _ ← exprKind k) s :=
    (exprKind_refuses (fun n _ => exprRefuses n) hs).discard
  cases k with
  | assign targets value =>
    match targets with
    | [] => exact .unsupported _
    | [⟨kind, location, span⟩] =>
      cases kind with
      | name id =>
        refine (exprRefuses value s hs).bind fun v s₁ hv => ?_
        exact write_refuses ((expr_emits hv).isOpen_iff.mpr hs) id v
      | _ => exact (Refuses.unsupported _).locating _
    | ⟨kind, location, span⟩ :: target :: rest =>
      cases kind <;> exact .unsupported _
  | expr value => exact (exprRefuses value s hs).discard
  | ret value =>
    cases value with
    | none => exact ret_refuses hs _
    | some value =>
      refine (exprRefuses value s hs).bind fun v s₁ hv => ?_
      exact ret_refuses ((expr_emits hv).isOpen_iff.mpr hs) v
  | ifElse test body orelse =>
    exact branch_refuses (fun s => condition_refuses test) condition_emits
      (block_refuses fun n hn => hparts n (by simp [Kind.parts, hn]))
      (block_settles fun n _ => statement_settles n)
      (elseClause_refuses fun n hn => hparts n (by simp [Kind.parts, hn]))
      (elseClause_settles fun n _ => statement_settles n) s hs
  | whileLoop test body orelse =>
    cases orelse with
    | cons n rest => exact .unsupported _
    | nil =>
      exact loop_refuses (fun s => condition_refuses test) condition_emits
        (block_refuses fun n hn => hparts n (by simp [Kind.parts, hn]))
        (block_settles fun n _ => statement_settles n) s hs
  | functionDef name params body =>
    have hbody := block_refuses fun n hn => hparts n (by simpa [Kind.parts] using hn)
    exact (functionDef_refuses hbody (block_settles fun n _ => statement_settles n)).discard
  | augAssign target op value => exact .unsupported _
  | module body => exact .unsupported _
  | forLoop target iter body orelse => exact .unsupported _
  | pass => exact .unsupported _
  | breakLoop => exact .unsupported _
  | continueLoop => exact .unsupported _
  | _ => exact hvalue

theorem statementRefuses (n : Node) : StepRefuses (statement n) := by
  induction n using Node.parts_induction with
  | step n ih =>
    obtain ⟨kind, location, span⟩ := n
    exact fun s hs => (statementKind_refuses ih s hs).locating _

/-- Statements may be lowered from any point of a function. They are refused or
    succeed, but never come behind a terminator. Of the blocks that were there, only
    the one under the cursor changes, and only if it was open: operations are added
    at its end, and it may get its terminator. Of the new blocks only the one that
    the cursor ends on may be open, and the cursor leaves no open block. -/
theorem block_from_anywhere (ns : List Node) (s : Workspace) (hs : s.builder.HasCursor) :
    (∀ e s', block ns s = .error e s' → e.IsRefusal) ∧
    ∀ s', block ns s = .ok () s' →
      s'.builder.HasCursor ∧
      (∀ i k, s.builder.block? i = some k → ∃ k', s'.builder.block? i = some k' ∧
        (i ≠ s.builder.cursor ∨ k.isTerminated = true → k' = k) ∧
        k'.label = k.label ∧ k.ops <+: k'.ops) ∧
      (∀ i k', s.builder.blocks.length ≤ i.val → s'.builder.block? i = some k' →
        k'.isTerminated = false → i = s'.builder.cursor) ∧
      (s'.builder.cursor ≠ s.builder.cursor →
        ∃ k', s'.builder.block? s.builder.cursor = some k' ∧ k'.isTerminated = true) := by
  refine ⟨block_refuses (fun n _ => statementRefuses n) s hs, fun s' hrun => ?_⟩
  have hsettles : s.builder.Settles s'.builder :=
    block_settles (fun n _ => statement_settles n) _ _ hrun
  have hopen {i : BlockId} {k : Block} (hk : s'.builder.block? i = some k)
      (hends : k.isTerminated = false) : s'.builder.OpenAt i.val :=
    ⟨k, hk, by simpa [Block.isTerminated] using hends⟩
  have hcursor {i : BlockId} (hi : i.val = s'.builder.cursor.val) : i = s'.builder.cursor :=
    congrArg BlockId.mk hi
  refine ⟨hsettles.toFramed.hasCursor hs, fun i k hk => ?_, fun i k' hnew hk' hends => ?_,
    fun hmoved => ?_⟩
  · obtain ⟨k', hk', hgrows⟩ := hsettles.blocks i.val k hk
    refine ⟨k', hk', ?_, hgrows.label, hgrows.ops⟩
    rintro (hne | hends)
    · have hlt : i.val < s.builder.blocks.length := (List.getElem?_eq_some_iff.mp hk).1
      have hne' : i.val ≠ s.builder.cursor.val := fun heq => hne (congrArg BlockId.mk heq)
      have hkept : s'.builder.blocks[i.val]? = some k := (hsettles.others i.val hlt hne').trans hk
      exact Option.some.inj (hk'.symm.trans hkept)
    · exact hgrows.ended (Option.isSome_iff_ne_none.mp hends)
  · exact hcursor (hsettles.closed i.val (.inr hnew) (hopen hk' hends))
  · obtain ⟨k', hk', -⟩ := hsettles.blocks _ _ (List.getElem?_eq_getElem hs)
    refine ⟨k', hk', ?_⟩
    cases hends : k'.isTerminated with
    | true => rfl
    | false =>
      exact absurd (hcursor (hsettles.closed _ (.inl rfl) (hopen hk' hends))).symm hmoved

/-- A function that has returned already. -/
def returned : Workspace where
  context := .start {}
  builder := (Builder.start "f" ["n"]).close (.ret (.int 0))

/-- A statement behind the return goes to a new block, which it ends. -/
theorem block_from_returned :
    ∃ s', block [.ret (.name "n")] returned = .ok () s' ∧
      s'.builder.block? ⟨0⟩ = returned.builder.block? ⟨0⟩ ∧
      s'.builder.cursor = ⟨1⟩ ∧ s'.builder.HasCursor := by
  obtain ⟨-, hok⟩ := block_from_anywhere [.ret (.name "n")] returned Nat.zero_lt_one
  have hrun : ∃ s', block [.ret (.name "n")] returned = .ok () s' ∧ s'.builder.cursor = ⟨1⟩ :=
    ⟨_, rfl, rfl⟩
  obtain ⟨s', hrun, hcursor⟩ := hrun
  obtain ⟨hexists, hold, -, -⟩ := hok s' hrun
  obtain ⟨k', hk', hsame, -⟩ := hold ⟨0⟩ _ rfl
  exact ⟨s', hrun, hk'.trans (congrArg some (hsame (.inr rfl))), hcursor, hexists⟩

end Lower

end Blockform
