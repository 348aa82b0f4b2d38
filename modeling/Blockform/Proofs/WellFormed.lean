-- SUMMARY: Lowered programs pass verification.
import Blockform.Compile
import Blockform.Proofs.Registry
import Blockform.Proofs.Typing

/-!
# Lowered programs pass verification

Lowering keeps the function that it works on sound, and all finished functions
verified (`Workspace.Sound`). A function is finished behind a statement, so
its blocks have all been closed but for the one under the cursor, which is closed
then. It has passed verification at this point, and keeps doing so while others
are added.
-/

namespace Blockform

/-- What the function of a workspace is checked against. -/
def Workspace.scope (s : Workspace) : Function.Scope := s.builder.scope s.context.program

/-- The finished functions are verified, and the one under construction is
    sound. -/
structure Workspace.Sound (s : Workspace) : Prop where
  program : s.context.program.verify = .ok ()
  builder : s.builder.Sound s.context.program

/-! ## Programs -/

namespace Program

variable {p : Program}

theorem verify_declare (hp : p.verify = .ok ()) (name : String) (signature : Signature) :
    (p.declare name signature).2.verify = .ok () := by
  have hsize := (declare_grows p name signature).size_le
  cases h : p.lookup name with
  | some id =>
    rw [declare_of_some h]
    exact hp
  | none =>
    rw [declare_of_none h] at hsize ⊢
    refine verify_eq_ok.mpr fun f hf hd => ?_
    rcases List.mem_append.mp hf with hf | hf
    · exact (verify_eq_ok.mp hp f hf hd).mono hsize rfl rfl rfl
    · rw [List.mem_singleton.mp hf] at hd
      cases hd

/-- A body that is verified may be attached to any function. -/
theorem verify_define (hp : p.verify = .ok ()) (id : FunctionId) {body : Function}
    (hbody : body.Verified p) : (p.define id body).verify = .ok () := by
  have hsize : p.size ≤ (p.define id body).size := by simp
  refine verify_eq_ok.mpr fun f hf hd => ?_
  obtain ⟨i, hi⟩ := List.mem_iff_getElem?.mp hf
  have hlt : i < p.functions.length := by
    simpa [define] using (List.getElem?_eq_some_iff.mp hi).1
  obtain ⟨g, hg⟩ : ∃ g, p.functions[i]? = some g := ⟨_, List.getElem?_eq_getElem hlt⟩
  by_cases hid : id.val = i
  · subst hid
    have hg : p.function? id = some g := hg
    have heq := function?_define_self hg body
    rw [function?, hi] at heq
    cases heq
    exact hbody.mono hsize rfl rfl rfl
  · have heq : (p.define id body).functions[i]? = some g := by simp [define, hid, hg]
    rw [hi] at heq
    cases heq
    exact (verify_eq_ok.mp hp f (List.mem_of_getElem? hg) hd).mono hsize rfl rfl rfl

theorem verify_withBuiltins (names : List String) : (withBuiltins names).verify = .ok () := by
  suffices h : ∀ (p : Program), p.verify = .ok () →
      (names.foldl (fun p name => (p.declare name ⟨1⟩).2) p).verify = .ok () from h _ rfl
  induction names with
  | nil => exact fun p hp => hp
  | cons name names ih => exact fun p hp => ih _ (verify_declare hp name ⟨1⟩)

end Program

/-! ## Expressions -/

namespace Lower

variable {s s' : Workspace} {v w : Value} {vs : List Value}

/-- What is admitted stays so while other expressions are lowered. -/
theorem sub_of_grows (hb : s.builder.Grows s'.builder) (hc : s.context.Grows s'.context) :
    s.scope.Sub s'.scope :=
  hb.sub hc.program.size_le

theorem resolve_sound {name : String} {arity : Nat} {callee : FunctionId} (hs : s.Sound)
    (h : resolve name arity s = .ok callee s') :
    s'.Sound ∧ callee.val < s'.context.program.size := by
  obtain ⟨ctx, hctx, rfl⟩ := resolve_eq_ok.mp h
  have hsize := (Context.resolve_grows hctx).program.size_le
  obtain ⟨hlookup, hsame⟩ := Context.resolve_eq_ok hctx
  refine ⟨⟨?_, hs.builder.mono hsize⟩, Program.lookup_lt hlookup⟩
  rcases hsame with rfl | rfl
  · exact hs.program
  · obtain ⟨-, hprogram, -⟩ := Context.declare_eq s.context name ⟨arity⟩
    rw [hprogram]
    exact Program.verify_declare hs.program name ⟨arity⟩

theorem join_sound {op : BinaryOp} {acc : Value} (hs : s.Sound) (hacc : s.scope.Has acc .i1)
    (hvs : ∀ v ∈ vs, s.scope.Has v .i1) (h : join op acc vs s = .ok w s') :
    s'.Sound ∧ s'.scope.Has w .i1 := by
  induction vs generalizing acc s with
  | nil =>
    obtain ⟨rfl, rfl⟩ := Effect.pure_eq_ok.mp h
    exact ⟨hs, hacc⟩
  | cons v vs ih =>
    obtain ⟨acc', s₁, hbinary, hrest⟩ := join_cons_eq_ok.mp h
    obtain ⟨b, hb, rfl⟩ := build_eq_ok.mp hbinary
    rw [List.forall_mem_cons] at hvs
    have hsub : s.scope.Sub (b.scope s.context.program) :=
      (Build.binary_emits hb).settles.sub (Nat.le_refl _)
    obtain ⟨hsound, hacc'⟩ := Build.binary_sound hs.builder hacc hvs.1 hb
    have hs₁ : Workspace.Sound { s with builder := b } := ⟨hs.program, hsound⟩
    exact ih hs₁ hacc' (fun v hv => hsub.has (hvs.2 v hv)) hrest

/-- Lowering a node in the place of an expression keeps a workspace sound and
    gives an admitted value. -/
def ExprSound (n : Node) : Prop :=
  ∀ s v s', ExprRun n.kind s v s' → s.Sound → s'.Sound ∧ s'.scope.Admits v

theorem asInt_sound {n : Node} (hn : ExprSound n) (hs : s.Sound)
    (h : asInt (expr n) s = .ok v s') : s'.Sound ∧ s'.scope.Has v .i32 := by
  obtain ⟨w, s₁, hw, h⟩ := asInt_eq_ok.mp h
  obtain ⟨hs₁, hadmits⟩ := hn _ _ _ (expr_run hw) hs
  obtain ⟨b, hb, rfl⟩ := build_eq_ok.mp h
  obtain ⟨hsound, hv⟩ := Build.toInt_sound hs₁.builder hadmits hb
  exact ⟨⟨hs₁.program, hsound⟩, hv⟩

theorem asCondition_sound {n m : Node} (hn : ExprSound n) (hs : s.Sound)
    (h : asCondition m (expr n) s = .ok v s') : s'.Sound ∧ s'.scope.Has v .i1 := by
  obtain ⟨w, s₁, hw, h⟩ := asCondition_eq_ok.mp h
  obtain ⟨hs₁, hadmits⟩ := hn _ _ _ (expr_run hw) hs
  obtain ⟨b, hb, rfl⟩ := build_eq_ok.mp h
  obtain ⟨hsound, hv⟩ := Build.toBool_sound hs₁.builder hadmits hb
  exact ⟨⟨hs₁.program, hsound⟩, hv⟩

theorem conditions_sub {ns : List Node} (h : conditions ns s = .ok vs s') :
    s.scope.Sub s'.scope :=
  sub_of_grows (conditions_emits (fun n _ => exprEmits n) h).settles.toGrows
    (conditions_grows _ _ _ _ h)

theorem arguments_sub {ns : List Node} (h : arguments ns s = .ok vs s') :
    s.scope.Sub s'.scope :=
  sub_of_grows (arguments_emits (fun n _ => exprEmits n) h).settles.toGrows
    (arguments_grows _ _ _ _ h)

theorem asInt_sub {n : Node} (h : asInt (expr n) s = .ok v s') : s.scope.Sub s'.scope :=
  sub_of_grows (asInt_emits (exprEmits n) h).settles.toGrows (asInt_grows n _ _ _ h)

theorem conditions_sound {ns : List Node} (hns : ∀ n ∈ ns, ExprSound n) (hs : s.Sound)
    (h : conditions ns s = .ok vs s') : s'.Sound ∧ ∀ v ∈ vs, s'.scope.Has v .i1 := by
  induction ns generalizing s vs with
  | nil =>
    obtain ⟨rfl, rfl⟩ := Effect.pure_eq_ok.mp h
    exact ⟨hs, by simp⟩
  | cons n rest ih =>
    rw [List.forall_mem_cons] at hns
    obtain ⟨v, s₁, ws, hv, hws, rfl⟩ := conditions_cons_eq_ok.mp h
    obtain ⟨hs₁, hv⟩ := asCondition_sound hns.1 hs hv
    obtain ⟨hs', hrest⟩ := ih hns.2 hs₁ hws
    exact ⟨hs', List.forall_mem_cons.mpr ⟨(conditions_sub hws).has hv, hrest⟩⟩

theorem arguments_sound {ns : List Node} (hns : ∀ n ∈ ns, ExprSound n) (hs : s.Sound)
    (h : arguments ns s = .ok vs s') : s'.Sound ∧ ∀ v ∈ vs, s'.scope.Admits v := by
  induction ns generalizing s vs with
  | nil =>
    obtain ⟨rfl, rfl⟩ := Effect.pure_eq_ok.mp h
    exact ⟨hs, by simp⟩
  | cons n rest ih =>
    rw [List.forall_mem_cons] at hns
    obtain ⟨v, s₁, ws, hv, hws, rfl⟩ := arguments_cons_eq_ok.mp h
    obtain ⟨hs₁, hv⟩ := asInt_sound hns.1 hs hv
    obtain ⟨hs', hrest⟩ := ih hns.2 hs₁ hws
    exact ⟨hs', List.forall_mem_cons.mpr ⟨(arguments_sub hws).admits hv.1, hrest⟩⟩

theorem exprSound (n : Node) : ExprSound n := by
  induction n using Node.parts_induction with
  | step n ih =>
    obtain ⟨kind, location, span⟩ := n
    intro s v s' h hs
    cases h with
    | constant => exact ⟨hs, trivial⟩
    | name h =>
      obtain ⟨b, hb, rfl⟩ := build_eq_ok.mp h
      obtain ⟨hsound, hv⟩ := Build.read_sound hs.builder hb
      exact ⟨⟨hs.program, hsound⟩, hv.1⟩
    | neg hoperand h =>
      obtain ⟨hs₁, ho⟩ := asInt_sound (ih _ (by simp [Kind.parts])) hs hoperand
      obtain ⟨b, hb, rfl⟩ := build_eq_ok.mp h
      obtain ⟨hsound, hv⟩ := Build.neg_sound hs₁.builder ho.1 hb
      exact ⟨⟨hs₁.program, hsound⟩, hv.1⟩
    | binOp hop hleft hright h =>
      obtain ⟨hs₁, hl⟩ := asInt_sound (ih _ (by simp [Kind.parts])) hs hleft
      obtain ⟨hs₂, hr⟩ := asInt_sound (ih _ (by simp [Kind.parts])) hs₁ hright
      obtain ⟨b, hb, rfl⟩ := build_eq_ok.mp h
      obtain ⟨hsound, hv⟩ := Build.binary_sound hs₂.builder ((asInt_sub hright).has hl) hr hb
      exact ⟨⟨hs₂.program, hsound⟩, hv.1⟩
    | compare hop hleft hright h =>
      obtain ⟨hs₁, hl⟩ := asInt_sound (ih _ (by simp [Kind.parts])) hs hleft
      obtain ⟨hs₂, hr⟩ := asInt_sound (ih _ (by simp [Kind.parts])) hs₁ hright
      obtain ⟨b, hb, rfl⟩ := build_eq_ok.mp h
      obtain ⟨hsound, hv⟩ := Build.icmp_sound hs₂.builder ((asInt_sub hright).admits hl.1) hr.1 hb
      exact ⟨⟨hs₂.program, hsound⟩, hv.1⟩
    | boolOp hfirst hrest h =>
      obtain ⟨hs₁, hv⟩ := asCondition_sound (ih _ (by simp [Kind.parts])) hs hfirst
      obtain ⟨hs₂, hvs⟩ := conditions_sound (fun n hn => ih n (by simp [Kind.parts, hn])) hs₁ hrest
      obtain ⟨hs', hw⟩ := join_sound hs₂ ((conditions_sub hrest).has hv) hvs h
      exact ⟨hs', hw.1⟩
    | call hcallee hargs h =>
      obtain ⟨hs₁, hlt⟩ := resolve_sound hs hcallee
      obtain ⟨hs₂, hvs⟩ := arguments_sound (fun n hn => ih n (by simp [Kind.parts, hn])) hs₁ hargs
      obtain ⟨b, hb, rfl⟩ := build_eq_ok.mp h
      obtain ⟨hsound, hv⟩ :=
        Build.call_sound hs₂.builder (Nat.lt_of_lt_of_le hlt (arguments_sub hargs).size) hvs hb
      exact ⟨⟨hs₂.program, hsound⟩, hv.1⟩

theorem condition_sound {n : Node} (hs : s.Sound) (h : condition n s = .ok v s') :
    s'.Sound ∧ s'.scope.Has v .i1 :=
  asCondition_sound (exprSound n) hs h

/-! ## Constructs -/

/-- A step keeps workspaces sound. -/
def StepSound (x : Lower Unit) : Prop := ∀ s s', x s = .ok () s' → s.Sound → s'.Sound

end Lower

namespace Workspace.Sound

variable {s : Workspace}

theorem withBlock (hs : s.Sound) (label : String) : (s.withBlock label).Sound :=
  ⟨hs.program, hs.builder.addBlock label⟩

theorem movedTo (hs : s.Sound) (block : BlockId) : (s.movedTo block).Sound :=
  ⟨hs.program, hs.builder.movedTo block⟩

theorem closed (hs : s.Sound) (hopen : s.builder.IsOpen) {t : Terminator}
    (ht : s.scope.Leaves t) : (s.closed t).Sound :=
  ⟨hs.program, hs.builder.close hopen ht⟩

theorem shortened (hs : s.Sound) (statements : Nat) : (s.shortened statements).Sound := by
  unfold Workspace.shortened
  split
  · exact ⟨hs.program, hs.builder⟩
  · exact hs

end Workspace.Sound

namespace Lower

variable {s s' : Workspace}

theorem reopen_sound : StepSound reopen := by
  intro s s' h hs
  obtain ⟨-, ⟨-, rfl⟩ | ⟨-, rfl⟩⟩ := reopen_eq_ok.mp h
  · exact hs
  · exact (hs.withBlock _).movedTo _

theorem fallThrough_sound {join join' : Option BlockId} (hs : s.Sound)
    (hjoin : ∀ target, join = some target → s.scope.HasBlock target)
    (h : fallThrough join s = .ok join' s') : s'.Sound := by
  obtain ⟨-, ⟨-, -, rfl⟩ | ⟨hopen, target, s₁, -, rfl, ⟨heq, rfl⟩ | ⟨-, rfl, rfl⟩⟩⟩ :=
    fallThrough_eq_ok.mp h
  · exact hs
  · exact hs.closed hopen (hjoin target heq)
  · refine (hs.withBlock _).closed (hopen.addBlock _) ?_
    simp [Workspace.scope, Builder.scope, Function.scope, Function.Scope.Leaves,
      Function.Scope.HasBlock, Builder.finish, Builder.addBlock, Workspace.nextBlock]

theorem branch_sound {test : Lower Value} {body orelse : Lower Unit}
    (htest : ∀ {s v s'}, test s = .ok v s' → s.Sound → s'.Sound ∧ s'.scope.Has v .i1)
    (hbody : StepSound body) (horelse : StepSound orelse) (hsettles : StepSettles orelse) :
    StepSound (branch test body orelse) := by
  intro s s' h hs
  cases branch_run h with
  | @mk s₁ s₂ s₃ s₄ s₅ cond join join' hcond hopen hthen hjoin helse hjoin' =>
    obtain ⟨hs₁, hcond⟩ := htest hcond hs
    have hsub : s₁.scope.Sub s₁.withArms.scope :=
      ((Builder.Framed.addBlock _ _).trans (.addBlock _ _)).sub (Nat.le_refl _)
    have hlength : s₁.withArms.builder.blocks.length = s₁.builder.blocks.length + 2 := by
      simp [Workspace.withArms, Builder.addBlock]
    have hleaves : s₁.withArms.scope.Leaves (.condBr cond s₁.nextBlock s₁.secondBlock) := by
      refine ⟨hsub.admits hcond.1, hcond.2, ?_, ?_⟩
      · exact Nat.lt_of_lt_of_eq (Nat.lt_add_of_pos_right (by decide)) hlength.symm
      · exact Nat.lt_of_lt_of_eq (Nat.lt_succ_self _) hlength.symm
    have hs₂ := hbody _ _ hthen ((((hs₁.withBlock _).withBlock _).closed hopen hleaves).movedTo _)
    have hs₃ := fallThrough_sound hs₂ (by simp) hjoin
    have hs₄ := horelse _ _ helse (hs₃.movedTo _)
    have hjoined : ∀ target, join = some target → s₄.scope.HasBlock target := by
      intro target heq
      rcases (fallThrough_run hjoin).target target heq with hnone | ⟨-, hlt⟩
      · cases hnone
      · exact Nat.lt_of_lt_of_le hlt (hsettles _ _ helse).length
    have hs₅ := fallThrough_sound hs₄ hjoined hjoin'
    cases join' with
    | none => exact hs₅
    | some target => exact hs₅.movedTo target

theorem loop_sound {test : Lower Value} {body : Lower Unit}
    (htest : ∀ {s v s'}, test s = .ok v s' → s.Sound → s'.Sound ∧ s'.scope.Has v .i1)
    (hemits : ∀ {s v s'}, test s = .ok v s' → s.builder.Emits s'.builder)
    (hbody : StepSound body) (hsettles : StepSettles body) (hgrows : StepGrows body) :
    StepSound (loop test body) := by
  intro s s' h hs
  cases loop_run h with
  | @mk s₁ s₂ s₃ cond hopen hcond hrun hcursor hback hexit =>
    have hlength : s.builder.blocks.length + 3 = s.withLoop.builder.blocks.length := by
      simp [Workspace.withLoop, Builder.addBlock]
    have hlength₁ : s.builder.blocks.length + 3 ≤ s₁.builder.blocks.length := by
      refine Nat.le_trans (Nat.le_of_eq hlength) (Nat.le_trans ?_ (hemits hcond).settles.length)
      exact (Builder.Framed.close hopen _).length
    have hs₀ : s.withLoop.Sound := ((hs.withBlock _).withBlock _).withBlock _
    have hbr : s.withLoop.scope.Leaves (.br s.nextBlock) :=
      Nat.lt_of_lt_of_le (Nat.lt_add_of_pos_right (by decide)) (Nat.le_of_eq hlength)
    obtain ⟨hs₁, hcond⟩ := htest hcond ((hs₀.closed hopen hbr).movedTo s.nextBlock)
    have hs₂ := hbody _ _ hrun (hs₁.movedTo _)
    have hsub₂ : (s₁.movedTo s.secondBlock).scope.Sub s₂.scope :=
      sub_of_grows (hsettles _ _ hrun).toGrows (hgrows _ _ _ hrun)
    have hhas : ∀ target : BlockId, target.val < s.builder.blocks.length + 3 →
        s₂.scope.HasBlock target :=
      fun target hlt => Nat.lt_of_lt_of_le hlt (Nat.le_trans hlength₁ hsub₂.blocks)
    have hs₃ : s₃.Sound ∧ s₂.scope.Sub s₃.scope := by
      rcases hback with ⟨hopen₂, rfl⟩ | ⟨-, rfl⟩
      · refine ⟨hs₂.closed hopen₂ (hhas _ (Nat.lt_add_of_pos_right (by decide))), ?_⟩
        exact (Builder.Framed.close hopen₂ _).sub (Nat.le_refl _)
      · exact ⟨hs₂, (Builder.Grows.refl _).sub (Nat.le_refl _)⟩
    have hleaves : s₃.scope.Leaves (.condBr cond s.secondBlock s.thirdBlock) := by
      refine hs₃.2.leaves ⟨hsub₂.admits hcond.1, hcond.2, hhas _ ?_, hhas _ ?_⟩
      · exact Nat.add_lt_add_left (by decide) _
      · exact Nat.lt_succ_self _
    exact ((hs₃.1.movedTo _).closed hexit hleaves).movedTo _

/-! ## Functions -/

/-- A function that starts is sound: it has no operations and no terminators. -/
theorem start_sound (p : Program) (name : String) (params : List String) :
    (Builder.start name params).Sound p := by
  constructor <;> simp [Builder.start, Builder.addBlock, Function.dests, Function.ops,
    Builder.finish]

/-- A function that is finished has no open block. -/
theorem finish_closed {name : String} {params : List String} {b b' : Builder}
    (hsettles : (Builder.start name params).Settles b)
    (hend : (b.IsOpen ∧ b' = b.close (.ret (.int 0))) ∨ (¬ b.IsOpen ∧ b' = b)) (i : Nat) :
    ¬ b'.OpenAt i := by
  have hwork : i = (Builder.start name params).cursor.val ∨
      (Builder.start name params).blocks.length ≤ i := by
    have hstart : (Builder.start name params).cursor.val = 0 := rfl
    have hlength : (Builder.start name params).blocks.length = 1 := rfl
    omega
  intro hopen
  rcases hend with ⟨-, rfl⟩ | ⟨hclosed, rfl⟩
  · obtain ⟨hi, hne⟩ := Builder.openAt_close.mp hopen
    exact hne (hsettles.closed i hwork hi)
  · have heq := hsettles.closed i hwork hopen
    rw [heq] at hopen
    exact hclosed hopen

theorem buildFunction_sound {name : String} {params : List String} {body : Lower Unit}
    (hbody : StepSound body) (hsettles : StepSettles body) {ctx ctx' : Context} {id : FunctionId}
    (h : Context.buildFunction name params body ctx = .ok id ctx')
    (hctx : ctx.program.verify = .ok ()) : ctx'.program.verify = .ok () := by
  cases buildFunction_run h with
  | @mk ctx₁ s s' hclaim hrun hcursor hend =>
    obtain ⟨-, -, -, rfl⟩ := Context.claim_eq_ok hclaim
    obtain ⟨-, hprogram, -⟩ := Context.declare_eq ctx name ⟨params.length⟩
    have hverify : (ctx.declare name ⟨params.length⟩).2.program.verify = .ok () := by
      rw [hprogram]
      exact Program.verify_declare hctx name ⟨params.length⟩
    have hs : s.Sound := hbody _ _ hrun ⟨hverify, start_sound _ name params⟩
    have hs' : s'.Sound := by
      rcases hend with ⟨hopen, rfl⟩ | ⟨-, rfl⟩
      · exact hs.closed hopen trivial
      · exact hs
    have hclosed : ∀ i, ¬ s'.builder.OpenAt i := by
      refine finish_closed (hsettles _ _ hrun) ?_
      rcases hend with ⟨hopen, rfl⟩ | ⟨hclosed, rfl⟩
      · exact .inl ⟨hopen, rfl⟩
      · exact .inr ⟨hclosed, rfl⟩
    exact Program.verify_define hs'.program id (hs'.builder.verified hclosed)

/-! ## Statements -/

theorem block_sound {ns : List Node} (hns : ∀ n ∈ ns, StepSound (statement n)) :
    StepSound (block ns) := by
  induction ns with
  | nil =>
    intro s s' h hs
    obtain ⟨-, rfl⟩ := Effect.pure_eq_ok.mp h
    exact hs
  | cons n rest ih =>
    intro s s' h hs
    rw [List.forall_mem_cons] at hns
    obtain ⟨s₁, s₂, hreopen, hn, hrest⟩ := block_cons_eq_ok.mp h
    exact ih hns.2 _ _ hrest (hns.1 _ _ hn (reopen_sound _ _ hreopen hs))

theorem elseClause_sound {ns : List Node} (hns : ∀ n ∈ ns, StepSound (statement n)) :
    StepSound (elseClause ns) := by
  intro s s' h hs
  cases ns with
  | nil =>
    obtain ⟨-, rfl⟩ := Effect.pure_eq_ok.mp h
    exact hs
  | cons n rest =>
    rw [List.forall_mem_cons] at hns
    rw [elseClause_cons] at h
    exact hns.1 _ _ h (hs.shortened _)

theorem statement_sound (n : Node) : StepSound (statement n) := by
  induction n using Node.parts_induction with
  | step n ih =>
    obtain ⟨kind, location, span⟩ := n
    intro s s' hrun hs
    cases statement_run hrun with
    | assign hvalue h =>
      obtain ⟨hs₁, hv⟩ := exprSound _ _ _ _ (expr_run hvalue) hs
      obtain ⟨b, hwrite, rfl⟩ := build_eq_ok.mp h
      exact ⟨hs₁.program, Build.write_sound hs₁.builder hv hwrite⟩
    | expr h => exact (exprSound _ _ _ _ (expr_run h) hs).1
    | ret hvalue h =>
      obtain ⟨hs₁, hv⟩ := exprSound _ _ _ _ (expr_run hvalue) hs
      obtain ⟨b, hret, rfl⟩ := build_eq_ok.mp h
      exact ⟨hs₁.program, Build.ret_sound hs₁.builder hv hret⟩
    | retNone h =>
      obtain ⟨b, hret, rfl⟩ := build_eq_ok.mp h
      have hzero : s.scope.Admits (.int 0) := trivial
      exact ⟨hs.program, Build.ret_sound hs.builder hzero hret⟩
    | ifElse h =>
      exact branch_sound (fun h hs => condition_sound hs h)
        (block_sound fun n hn => ih n (by simp [Kind.parts, hn]))
        (elseClause_sound fun n hn => ih n (by simp [Kind.parts, hn]))
        (elseClause_settles fun n _ => statement_settles n) _ _ h hs
    | whileLoop h =>
      exact loop_sound (fun h hs => condition_sound hs h) condition_emits
        (block_sound fun n hn => ih n (by simp [Kind.parts, hn]))
        (block_settles fun n _ => statement_settles n)
        (block_grows _) _ _ h hs
    | functionDef h =>
      have hgrows := buildFunction_grows (grows_stepRules.body _) h
      have hverify := buildFunction_sound (block_sound ih)
        (block_settles fun n _ => statement_settles n) h hs.program
      exact ⟨hverify, hs.builder.mono hgrows.program.size_le⟩
    | value h => exact (exprSound ⟨kind, location, span⟩ _ _ _ h hs).1

end Lower

/-! ## Trees -/

theorem lower_verify {tree : Node} {options : LowerOptions} {p : Program}
    (h : lower tree options = .ok p) : p.verify = .ok () := by
  unfold lower lowerNoting at h
  split at h
  · rename_i body _
    split at h
    · rename_i hbuild
      cases h
      refine Lower.buildFunction_sound (Lower.block_sound fun n _ => Lower.statement_sound n)
        (Lower.block_settles fun n _ => Lower.statement_settles n) hbuild ?_
      exact Program.verify_withBuiltins options.builtins
    · cases h
  · cases h

/-- An error of a compilation is one of reading the tree or one of lowering it. -/
theorem compile_error {source : Source} {options : LowerOptions} {e : Abort Diagnostic}
    (h : (compileNoting source options).1 = .error e) :
    (∃ e', source.tree = .error e' ∧ e = .error e'.diagnostic) ∨
      ∃ tree e', source.tree = .ok tree ∧ lower tree options = .error e' ∧
        e = e'.map LoweringError.diagnostic := by
  unfold compileNoting at h
  cases htree : source.tree with
  | error e' =>
    rw [htree] at h
    cases h
    exact .inl ⟨e', rfl, rfl⟩
  | ok tree =>
    rw [htree] at h
    simp only at h
    cases hlower : (lowerNoting tree options).1 with
    | error e' =>
      rw [hlower] at h
      cases h
      exact .inr ⟨tree, e', rfl, hlower, rfl⟩
    | ok p =>
      have hverify : p.verify = .ok () := lower_verify hlower
      simp only [hlower, hverify] at h
      cases h

/-- Every program that lowering gives passes verification, so that no compilation
    ends with a verification error, whatever its source. -/
theorem lowering_passes_verification :
    (∀ tree options p, lower tree options = .ok p → p.verify = .ok ()) ∧
      ∀ source options (e : VerifyError),
        (compileNoting source options).1 ≠ .error (.error e.diagnostic) := by
  refine ⟨fun tree options p h => lower_verify h, fun source options e h => ?_⟩
  rcases compile_error h with ⟨e', -, heq⟩ | ⟨tree, e', -, -, heq⟩
  · have hissuer : "pyll.verify" = "pyll.source" :=
      congrArg Diagnostic.issuer (Abort.error.inj heq)
    exact absurd hissuer (by decide)
  · cases e' with
    | outOfRange => cases heq
    | error e' =>
      have hissuer := congrArg Diagnostic.issuer (Abort.error.inj heq)
      have hne : "pyll.verify" ≠ "pyll.lower." ++ e'.kind.label := by
        cases e'.kind <;> decide
      exact hne hissuer

/-- A tree with a loop, whose test is closed behind its body. -/
def countingTree : Node :=
  .module [.assign "x" (.int 3),
    .whileLoop (.name "x") [.assign "x" (.binop (.name "x") .sub (.int 1))],
    .ret (.name "x")]

theorem countingTree_passes_verification :
    ∃ p, lower countingTree {} = .ok p ∧ p.verify = .ok () := by
  have hlowered : (lower countingTree {}).isOk = true := by decide +kernel
  cases h : lower countingTree {} with
  | ok p => exact ⟨p, rfl, lowering_passes_verification.1 countingTree {} p h⟩
  | error e =>
    rw [h] at hlowered
    cases hlowered

end Blockform
