-- SUMMARY: The operations of an expression compute its value.
import Blockform.Proofs.Registry
import Blockform.Proofs.Standing

/-!
# Evaluation

A machine that stands where an expression was lowered executes the operations
that were added for it, and has its value then. Operands are evaluated in the
order in which their operations were added, and a value that is needed later
survives the operations in between. A comparison has a truth value, which is
widened or tested where an integer or a truth value is needed.

Calls are left open here: what a call does is a premise (`Env.Fits`), which holds
for calls with less fuel.
-/

namespace Blockform

open Machine Effect

variable {p : Program} {limits : ExecOptions} {a : Activation} {σ : Store} {b b' b'' : Builder}
  {m m' m'' : Machine} {n k : Int32} {v w : Value} {bound : Nat}

/-! ## Truth values -/

theorem truth_and_one (q : Bool) : truth q &&& 1 = truth q := by
  cases q <;> decide

theorem truth_ne_zero (q : Bool) : truth (decide (truth q ≠ 0)) = truth q := by
  cases q <;> decide

/-- To branch on the truth value of an integer is to branch on the integer. -/
theorem ite_truth {α : Type} (n : Int32) (x y : α) :
    (if truth (decide (n ≠ 0)) ≠ 0 then x else y) = if n ≠ 0 then x else y := by
  by_cases h : n = 0 <;> simp [h, truth]

/-- The logic of an operator on two truth values. -/
def BoolOperator.combine : BoolOperator → Bool → Bool → Bool
  | .and => Bool.and
  | .or => Bool.or

theorem BoolOperator.logic_eval (op : BoolOperator) (q q' : Bool) :
    op.logic.eval (truth q) (truth q') = some (truth (op.combine q q')) := by
  cases op <;> cases q <;> cases q' <;> decide

/-- Truth values joined from the left, with the first of them apart. -/
theorem BoolOperator.foldl_combine (op : BoolOperator) (q : Bool) (ns : List Int32) :
    truth (ns.foldl (fun q n => op.combine q (decide (n ≠ 0))) q) =
      match op with
      | .and => truth (q && ns.all (· ≠ 0))
      | .or => truth (q || ns.any (· ≠ 0)) := by
  induction ns generalizing q with
  | nil => cases op <;> simp
  | cons n rest ih =>
    rw [List.foldl_cons, ih]
    cases op with
    | and => simp only [combine, List.all_cons, Bool.and_assoc]
    | or => simp only [combine, List.any_cons, Bool.or_assoc]

theorem BoolOperator.apply_cons (op : BoolOperator) (n : Int32) (rest : List Int32) :
    op.apply (n :: rest) =
      truth (rest.foldl (fun q k => op.combine q (decide (k ≠ 0))) (decide (n ≠ 0))) := by
  rw [foldl_combine]
  cases op <;> rfl

theorem Predicate.eval_eq (pred : Predicate) (x y : Int32) :
    pred.eval x y = truth (pred.holds x y) := rfl

theorem Predicate.eval_zero_ne (n : Int32) : Predicate.ne.eval 0 n = truth (decide (n ≠ 0)) := by
  rw [eval_eq]
  by_cases h : n = 0
  · rw [h]
    decide
  · have hne : (0 != n) = true := bne_iff_ne.mpr (Ne.symm h)
    simp [holds, h, hne]

/-- An operator that the language accepts means what its predicate says. -/
theorem CompareOperator.apply_of_predicate {σ : Type} {op : CompareOperator} {pred : Predicate}
    (h : op.predicate = some pred) (x y : Int32) :
    op.apply x y = (pure (pred.eval x y) : Meaning σ Int32) := by
  rw [Predicate.eval_eq]
  cases op <;> cases h <;> try rfl
  simp only [apply, Predicate.holds, ne_eq, decide_not]
  rfl

/-- An operator that the language accepts means what its arithmetic says. -/
theorem BinaryOperator.apply_of_arithmetic {σ : Type} {op : BinaryOperator} {arithmetic : BinaryOp}
    (h : op.arithmetic = some arithmetic) (x y : Int32) :
    op.apply x y =
      match arithmetic.eval x y with
      | some z => (pure z : Meaning σ Int32)
      | none => Meaning.raise .remainderByZero := by
  cases op <;> cases h <;> try rfl
  simp only [apply, BinaryOp.eval]
  split <;> rfl

/-! ## Steps of building -/

namespace Machine

/-- What was computed before is kept while more is computed. -/
theorem Computed.trans (h : Computed a b b' m v n σ m') {τ : Store}
    (h' : Computed a b' b'' m' w k τ m'') (hle : b.nextInst ≤ b'.nextInst) :
    Computed a b b'' m w k τ m'' :=
  ⟨h'.stands, h'.holds, h.keeps.trans h'.keeps hle⟩

theorem toInt_gets (h : Build.toInt v b = .ok w b') (hgrows : b'.Grows a.body)
    (hm : Stands a σ b m) (hv : m.frame.Holds b.nextInst v n) :
    Gets p limits (fun m' => Computed a b b' m w n σ m' ∧ w.ty = .i32) m := by
  rcases Build.toInt_eq_ok.mp h with ⟨hty, rfl, rfl⟩ | ⟨hty, -, rfl, rfl⟩
  · exact .done ⟨⟨hm, hv, .refl _ _⟩, hty⟩
  · obtain ⟨q, rfl⟩ := hv.truth hty
    have hwiden : Gets p limits (Computed a b _ m _ (truth q) σ) m :=
      (hm.compute hgrows rfl .i32 nofun fun rest => by
        simp only [execute, withValue, fetched_eval, hv.eval, truth_and_one]).gets
    exact hwiden.andThen fun m' hcomputed => .done ⟨hcomputed, rfl⟩

theorem toBool_gets (h : Build.toBool v b = .ok w b') (hgrows : b'.Grows a.body)
    (hm : Stands a σ b m) (hv : m.frame.Holds b.nextInst v n) :
    Gets p limits (Computed a b b' m w (truth (decide (n ≠ 0))) σ) m := by
  rcases Build.toBool_eq_ok.mp h with ⟨hty, rfl, rfl⟩ | ⟨hty, -, rfl, rfl⟩
  · obtain ⟨q, rfl⟩ := hv.truth hty
    rw [truth_ne_zero]
    exact .done ⟨hm, hv, .refl _ _⟩
  · have hzero : m.frame.eval (.int 0) = .ok 0 := rfl
    exact (hm.compute hgrows rfl .i1 (fun _ => ⟨_, rfl⟩) fun rest => by
      simp only [execute, withValue, fetched_eval, hv.eval, hzero, Predicate.eval_zero_ne]).gets

theorem neg_gets (h : Build.neg v b = .ok w b') (hgrows : b'.Grows a.body) (hm : Stands a σ b m)
    (hv : m.frame.Holds b.nextInst v n) : GetsIn p limits 1 (Computed a b b' m w (-n) σ) m := by
  obtain ⟨-, rfl, rfl⟩ := Build.neg_eq_ok.mp h
  exact hm.compute hgrows rfl .i32 nofun fun rest => by
    simp only [execute, withValue, fetched_eval, hv.eval]

theorem icmp_gets {pred : Predicate} {u : Value} (h : Build.icmp pred v w b = .ok u b')
    (hgrows : b'.Grows a.body) (hm : Stands a σ b m) (hv : m.frame.Holds b.nextInst v n)
    (hw : m.frame.Holds b.nextInst w k) :
    GetsIn p limits 1 (Computed a b b' m u (pred.eval n k) σ) m := by
  obtain ⟨-, rfl, rfl⟩ := Build.icmp_eq_ok.mp h
  exact hm.compute hgrows rfl .i1 (fun _ => ⟨_, rfl⟩) fun rest => by
    simp only [execute, withValue, fetched_eval, hv.eval, hw.eval]

/-- Arithmetic that has a value computes it. -/
theorem binary_gets {op : BinaryOp} {u : Value} (h : Build.binary op v w b = .ok u b')
    (hgrows : b'.Grows a.body) (hm : Stands a σ b m) (hv : m.frame.Holds b.nextInst v n)
    (hw : m.frame.Holds b.nextInst w k) {z : Int32} (hz : op.eval n k = some z)
    (htruth : v.ty = .i1 → ∃ q, z = truth q) :
    GetsIn p limits 1 (Computed a b b' m u z σ) m := by
  obtain ⟨-, rfl, rfl⟩ := Build.binary_eq_ok.mp h
  exact hm.compute hgrows rfl v.ty htruth fun rest => by
    simp only [execute, withValue, fetched_eval, hv.eval, hw.eval, hz]

/-- Arithmetic that has none is a remainder by zero. -/
theorem binary_fails {op : BinaryOp} {u : Value} (h : Build.binary op v w b = .ok u b')
    (hgrows : b'.Grows a.body) (hm : Stands a σ b m) (hv : m.frame.Holds b.nextInst v n)
    (hw : m.frame.Holds b.nextInst w k) (hnone : op.eval n k = none) {α : Type}
    {post : α → Machine → Prop} :
    Attains p limits bound post m (some (.error .remainderByZero)) := by
  obtain ⟨-, rfl, rfl⟩ := Build.binary_eq_ok.mp h
  obtain ⟨rest, hrest, -⟩ := hm.fetch limits hgrows
  have hfailed : m.advance p limits = .halted
      (.error (.error (.remainderByZero m.frame.function.name)))
      (m.fetched limits (.binary ⟨b.nextInst⟩ op v.ty v w) rest) := by
    rw [advance_cons hrest]
    simp only [execute, withValue, fetched_eval, hv.eval, hw.eval, hnone]
    rfl
  exact .failed hfailed

end Machine

/-! ## Names -/

/-- A slot keeps its number. -/
theorem Builder.Grows.slot? (h : b.Grows b') {name : String} {slot : SlotId}
    (hslot : b.slot? name = some slot) : b'.slot? name = some slot := by
  obtain ⟨more, hmore⟩ := h.slots
  rw [Builder.slot?_eq] at hslot ⊢
  obtain ⟨i, hi, rfl⟩ := Option.map_eq_some_iff.mp hslot
  rw [← hmore, List.findIdx?_append, hi]
  rfl

/-- The first argument of a name is that of the first parameter of this name. -/
theorem lookup_zip (name : String) {params : List String} {args : List Int32}
    (h : args.length = params.length) :
    (params.zip args).lookup name =
      (params.findIdx? (· = name)).bind fun i => args[i]? := by
  induction params generalizing args with
  | nil => rfl
  | cons x params ih =>
    cases args with
    | nil => cases h
    | cons n args =>
      rw [List.zip_cons_cons, List.lookup_cons, List.findIdx?_cons, ih (Nat.succ.inj h)]
      by_cases hx : x = name
      · simp [hx]
      · have hx' : (name == x) = false := by simpa using Ne.symm hx
        simp only [hx, hx', decide_false, Bool.false_eq_true, if_false]
        cases params.findIdx? (· = name) <;> rfl

/-! ## Surroundings -/

/-- From a call operation of the name, the machine attains what the call means,
    with the result in the calling frame. -/
def CallAttains (p : Program) (limits : ExecOptions) (bound active : Nat)
    (call : String → List Int32 → Meaning Printed Int32) : Prop :=
  ∀ (m : Machine) (name : String) (ns : List Int32) (dest : InstId) (callee : FunctionId)
    (args : List Value) (rest : List Op), m.active = active → p.lookup name = some callee →
    m.frame.rest = .call dest callee args :: rest → m.frame.evalAll args = .ok ns →
    Attains p limits bound (fun r m' => m'.frame = { m.frame with rest }.define dest r.1 ∧
      m'.callers = m.callers ∧ m'.active = m.active ∧ m'.output = r.2) m (call name ns m.output)

/-- What a body is given is what its frame has. -/
structure Env.Fits (env : Env) (p : Program) (limits : ExecOptions) (a : Activation) : Prop where
  arguments : env.arguments = a.body.params.zip a.args
  arity : a.args.length = a.body.params.length
  call : CallAttains p limits env.fuel a.active env.call

/-- A state of lowering from which the finished function and the finished
    program come about. -/
structure Workspace.Precedes (s : Workspace) (a : Activation) (p : Program) : Prop where
  builder : s.builder.Grows a.body
  program : s.context.program.Grows p

theorem Workspace.Precedes.before {s s' : Workspace} (h : s'.Precedes a p)
    (hbuilder : s.builder.Grows s'.builder) (hcontext : s.context.Grows s'.context) :
    s.Precedes a p :=
  ⟨hbuilder.trans h.builder, hcontext.program.trans h.program⟩

namespace Machine

variable {env : Env}

/-- A parameter has an argument, as the frame was entered with as many. -/
theorem Stands.param_holds (hm : Stands a σ b m) (harity : a.args.length = a.body.params.length)
    (hparams : a.body.params = b.params) {name : String} (h : b.param? name = some v) :
    ∃ n, (a.body.params.zip a.args).lookup name = some n ∧ m.frame.Holds b.nextInst v n := by
  rw [Builder.param?_eq] at h
  obtain ⟨i, hi, rfl⟩ := Option.map_eq_some_iff.mp h
  have hlt : i < a.args.length := by
    rw [harity, hparams]
    exact (List.findIdx?_eq_some_iff_getElem.mp hi).1
  have harg : a.args[i]? = some a.args[i] := List.getElem?_eq_getElem hlt
  refine ⟨a.args[i], ?_, ?_, nofun, nofun⟩
  · rw [lookup_zip name harity, hparams, hi, Option.bind_some, harg]
  · rw [Frame.eval_param, hm.args]
    exact harg

theorem read_gets (henv : env.Fits p limits a) {name : String} (h : Build.read name b = .ok v b')
    (hgrows : b'.Grows a.body) (hm : Stands a σ b m) :
    Gets p limits
      (Computed a b b' m v ((env.arguments.lookup name).getD (σ.vars name)) σ) m := by
  have hparams : b'.params = b.params := by
    obtain ⟨ops, rfl, -⟩ := Build.read_emits h
    rfl
  have hparams' : a.body.params = b.params := hgrows.params.trans hparams
  rw [henv.arguments]
  rcases Build.read_eq_ok.mp h with ⟨hparam, rfl⟩ | ⟨hparam, slot, hslot, -, rfl, rfl⟩
  · obtain ⟨n, hn, hholds⟩ := hm.param_holds henv.arity hparams' hparam
    rw [hn]
    exact .done ⟨hm, hholds, .refl _ _⟩
  · have hnone : b.params.findIdx? (· = name) = none :=
      Option.map_eq_none_iff.mp (b.param?_eq name ▸ hparam)
    rw [lookup_zip name henv.arity, hparams', hnone]
    have hvalue : m.frame.slots[slot.val]? = some (σ.vars name) :=
      hm.slots name slot (hgrows.slot? (b := b.emitted _) hslot)
    exact (hm.compute hgrows rfl .i32 nofun fun rest => by
      have hvalue : (m.fetched limits (.load ⟨b.nextInst⟩ slot) rest).frame.slots[slot.val]? =
          some (σ.vars name) := hvalue
      simp only [execute, hvalue]
      rfl).gets

theorem call_attains (henv : env.Fits p limits a) {callee : FunctionId} {args : List Value}
    {ns : List Int32} {name : String} (h : Build.call callee args b = .ok v b')
    (hgrows : b'.Grows a.body) (hm : Stands a σ b m) (hargs : m.frame.HoldsAll b.nextInst args ns)
    (hname : p.lookup name = some callee) :
    Attains p limits env.fuel (fun r m' => Computed a b b' m v r.1 r.2 m') m
      (env.invoke name ns σ) := by
  obtain ⟨-, rfl, rfl⟩ := Build.call_eq_ok.mp h
  obtain ⟨rest, hrest, hstands⟩ := hm.fetch limits hgrows
  have hcall := henv.call m name ns _ callee args rest hm.active hname hrest hargs.evalAll
  rw [hm.printed] at hcall
  refine hcall.andThen (fun (n, printed) hok m' hpost => ?_) (fun kind herror => ?_)
    fun hnone => ?_
  · obtain ⟨hframe, hcallers, hactive, hprinted⟩ := hpost
    unfold Env.invoke
    rw [hok]
    have hkeeps : m.frame.Keeps m'.frame b.nextInst := by
      have hkeeps : m.frame.Keeps { m.frame with rest } b.nextInst := ⟨rfl, fun _ _ => rfl⟩
      rw [hframe]
      exact hkeeps.trans (.define _ _ _) (Nat.le_refl _)
    refine .done ⟨⟨?_, ?_, ?_, ?_, hprinted, ?_, ?_, ?_⟩, ⟨?_, ?_, nofun⟩, hkeeps⟩
    · rw [hframe]
      exact hstands.function
    · rw [hframe]
      exact hstands.args
    · exact hcallers.trans hm.callers
    · exact hactive.trans hm.active
    · rw [hframe]
      exact hstands.slots
    · rw [hframe]
      exact hstands.block
    · rw [hframe]
      exact hstands.rest
    · rw [hframe]
      simp [Frame.eval_inst, Frame.define]
    · rintro id ty ⟨⟩
      simp [Builder.emitted, Op.dest]
  · unfold Env.invoke
    rw [herror]
  · unfold Env.invoke
    rw [hnone]

end Machine

/-! ## Expressions -/

namespace Lower

variable {env : Env} {s s' : Workspace} {vs : List Value}

/-- From where a node was lowered in the place of an expression, the machine
    computes its value. -/
def ExprAttains (p : Program) (limits : ExecOptions) (a : Activation) (env : Env) (n : Node) :
    Prop :=
  ∀ s v s', ExprRun n.kind s v s' → s'.Precedes a p → ∀ σ m, Stands a σ s.builder m →
    Attains p limits env.fuel (fun r m' => Computed a s.builder s'.builder m v r.1 r.2 m') m
      (n.value env σ)

theorem asInt_attains {n : Node} (hn : ExprAttains p limits a env n)
    (h : asInt (expr n) s = .ok v s') (hs' : s'.Precedes a p) (hm : Stands a σ s.builder m) :
    Attains p limits env.fuel
      (fun r m' => Computed a s.builder s'.builder m v r.1 r.2 m' ∧ v.ty = .i32) m
      (n.value env σ) := by
  obtain ⟨w, s₁, hw, h⟩ := asInt_eq_ok.mp h
  obtain ⟨b, hint, rfl⟩ := build_eq_ok.mp h
  have hs₁ : s₁.Precedes a p := hs'.before (Build.toInt_emits hint).settles.toGrows (.refl _)
  refine (hn _ _ _ (expr_run hw) hs₁ σ m hm).extend fun r m₁ hr => ?_
  refine (toInt_gets hint hs'.builder hr.stands hr.holds).andThen fun m₂ hint' => ?_
  exact .done ⟨hr.trans hint'.1 (expr_emits hw).settles.nextInst, hint'.2⟩

theorem asCondition_attains {n node : Node} (hn : ExprAttains p limits a env n)
    (h : asCondition node (expr n) s = .ok v s') (hs' : s'.Precedes a p)
    (hm : Stands a σ s.builder m) :
    Attains p limits env.fuel
      (fun r m' => Computed a s.builder s'.builder m v (truth (decide (r.1 ≠ 0))) r.2 m') m
      (n.value env σ) := by
  obtain ⟨w, s₁, hw, h⟩ := asCondition_eq_ok.mp h
  obtain ⟨b, hbool, rfl⟩ := build_eq_ok.mp h
  have hs₁ : s₁.Precedes a p := hs'.before (Build.toBool_emits hbool).settles.toGrows (.refl _)
  refine (hn _ _ _ (expr_run hw) hs₁ σ m hm).extend fun r m₁ hr => ?_
  refine (toBool_gets hbool hs'.builder hr.stands hr.holds).andThen fun m₂ hbool' => ?_
  exact .done (hr.trans hbool' (expr_emits hw).settles.nextInst)

/-- The machine has computed values, while the builder added what computes
    them. -/
structure ComputedAll (a : Activation) (b b' : Builder) (m : Machine) (vs : List Value)
    (ns : List Int32) (σ : Store) (m' : Machine) : Prop where
  stands : Stands a σ b' m'
  holds : m'.frame.HoldsAll b'.nextInst vs ns
  keeps : m.frame.Keeps m'.frame b.nextInst

theorem ComputedAll.nil (hm : Stands a σ b m) : ComputedAll a b b m [] [] σ m :=
  ⟨hm, trivial, .refl _ _⟩

/-- A value that was computed first is kept while the others are computed. -/
theorem ComputedAll.cons {τ : Store} {ns : List Int32} (h : Computed a b b' m v n σ m')
    (h' : ComputedAll a b' b'' m' vs ns τ m'') (hle : b.nextInst ≤ b'.nextInst)
    (hle' : b'.nextInst ≤ b''.nextInst) : ComputedAll a b b'' m (v :: vs) (n :: ns) τ m'' where
  stands := h'.stands
  holds := ⟨h.holds.keep h'.keeps hle', h'.holds⟩
  keeps := h.keeps.trans h'.keeps hle

/-- A value is computed from others. -/
theorem ComputedAll.combine {τ : Store} {ns : List Int32} (h : ComputedAll a b b' m vs ns σ m')
    (h' : Computed a b' b'' m' w k τ m'') (hle : b.nextInst ≤ b'.nextInst) :
    Computed a b b'' m w k τ m'' :=
  ⟨h'.stands, h'.holds, h.keeps.trans h'.keeps hle⟩

/-- Two operands are computed one after the other, as integers. -/
theorem operands_attains {left right : Node} {s₁ : Workspace} {α : Type}
    {f : Int32 → Int32 → Meaning Store α} {post : α × Store → Machine → Prop}
    (hleft : ExprAttains p limits a env left) (hright : ExprAttains p limits a env right)
    (h : asInt (expr left) s = .ok v s₁) (h' : asInt (expr right) s₁ = .ok w s')
    (hs' : s'.Precedes a p) (hm : Stands a σ s.builder m)
    (hf : ∀ x y τ m', ComputedAll a s.builder s'.builder m [v, w] [x, y] τ m' → v.ty = .i32 →
      Attains p limits env.fuel post m' (f x y τ)) :
    Attains p limits env.fuel post m
      ((do f (← left.value env) (← right.value env) : Meaning Store α) σ) := by
  have hemits := asInt_emits (exprEmits left) h
  have hemits' := asInt_emits (exprEmits right) h'
  have hs₁ : s₁.Precedes a p :=
    hs'.before hemits'.settles.toGrows (asInt_grows right _ _ _ h')
  refine (asInt_attains hleft h hs₁ hm).bind fun x τ m₁ hx => ?_
  refine (asInt_attains hright h' hs' hx.1.stands).bind fun y τ' m₂ hy => ?_
  have hboth := ComputedAll.cons hx.1 (.cons hy.1 (.nil hy.1.stands) hemits'.settles.nextInst
    (Nat.le_refl _)) hemits.settles.nextInst hemits'.settles.nextInst
  exact hf x y τ' m₂ hboth hx.2

theorem conditions_attains {ns : List Node} (hns : ∀ n ∈ ns, ExprAttains p limits a env n)
    (h : conditions ns s = .ok vs s') (hs' : s'.Precedes a p) (hm : Stands a σ s.builder m) :
    Attains p limits env.fuel
      (fun r m' => ComputedAll a s.builder s'.builder m vs
        (r.1.map fun n => truth (decide (n ≠ 0))) r.2 m') m (allValues env ns σ) := by
  induction ns generalizing s vs σ m with
  | nil =>
    obtain ⟨rfl, rfl⟩ := pure_eq_ok.mp h
    exact .done (.nil hm)
  | cons n rest ih =>
    rw [List.forall_mem_cons] at hns
    obtain ⟨v, s₁, ws, hv, hws, rfl⟩ := conditions_cons_eq_ok.mp h
    have hemits := conditions_emits (fun n _ => exprEmits n) hws
    have hs₁ : s₁.Precedes a p := hs'.before hemits.settles.toGrows
      (conditions_grows _ _ _ _ hws)
    refine (asCondition_attains hns.1 hv hs₁ hm).bind fun k τ m₁ hk => ?_
    refine (ih hns.2 hws hk.stands).bind fun ks τ' m₂ hks => ?_
    have hnext := (asCondition_emits (exprEmits n) hv).settles.nextInst
    exact .done (.cons hk hks hnext hemits.settles.nextInst)

theorem arguments_attains {ns : List Node} (hns : ∀ n ∈ ns, ExprAttains p limits a env n)
    (h : arguments ns s = .ok vs s') (hs' : s'.Precedes a p) (hm : Stands a σ s.builder m) :
    Attains p limits env.fuel
      (fun r m' => ComputedAll a s.builder s'.builder m vs r.1 r.2 m') m (allValues env ns σ) := by
  induction ns generalizing s vs σ m with
  | nil =>
    obtain ⟨rfl, rfl⟩ := pure_eq_ok.mp h
    exact .done (.nil hm)
  | cons n rest ih =>
    rw [List.forall_mem_cons] at hns
    obtain ⟨v, s₁, ws, hv, hws, rfl⟩ := arguments_cons_eq_ok.mp h
    have hemits := arguments_emits (fun n _ => exprEmits n) hws
    have hs₁ : s₁.Precedes a p := hs'.before hemits.settles.toGrows
      (arguments_grows _ _ _ _ hws)
    refine (asInt_attains hns.1 hv hs₁ hm).bind fun k τ m₁ hk => ?_
    refine (ih hns.2 hws hk.1.stands).bind fun ks τ' m₂ hks => ?_
    have hnext := (asInt_emits (exprEmits n) hv).settles.nextInst
    exact .done (.cons hk.1 hks hnext hemits.settles.nextInst)

/-- Truth values are joined by the logic of their operator. -/
theorem join_gets {op : BoolOperator} {q : Bool} {ns : List Int32}
    (h : join op.logic v vs s = .ok w s') (hgrows : s'.builder.Grows a.body)
    (hm : Stands a σ s.builder m) (hv : m.frame.Holds s.builder.nextInst v (truth q))
    (hvs : m.frame.HoldsAll s.builder.nextInst vs (ns.map fun n => truth (decide (n ≠ 0)))) :
    Gets p limits (Computed a s.builder s'.builder m w
      (truth (ns.foldl (fun q n => op.combine q (decide (n ≠ 0))) q)) σ) m := by
  induction vs generalizing v s q m ns with
  | nil =>
    obtain ⟨rfl, rfl⟩ := pure_eq_ok.mp h
    cases ns with
    | nil => exact .done ⟨hm, hv, .refl _ _⟩
    | cons n ns => exact hvs.elim
  | cons v' vs ih =>
    cases ns with
    | nil => exact hvs.elim
    | cons n ns =>
      obtain ⟨u, s₁, hu, hrest⟩ := join_cons_eq_ok.mp h
      obtain ⟨b, hbinary, rfl⟩ := build_eq_ok.mp hu
      have hgrows₁ : b.Grows a.body := (join_emits hrest).settles.toGrows.trans hgrows
      have hnext := (Build.binary_emits hbinary).settles.nextInst
      refine (binary_gets hbinary hgrows₁ hm hv hvs.1 (op.logic_eval q (decide (n ≠ 0)))
        fun _ => ⟨_, rfl⟩).gets.andThen fun m₁ hcomputed => ?_
      refine (ih hrest hcomputed.stands hcomputed.holds
        (hvs.2.keep hcomputed.keeps hnext)).andThen fun m₂ hjoined => ?_
      exact .done (hcomputed.trans hjoined hnext)

/-- An expression means what its operations compute. -/
theorem exprAttains (henv : env.Fits p limits a) (n : Node) : ExprAttains p limits a env n := by
  induction n using Node.parts_induction with
  | step n ih =>
    obtain ⟨kind, location, span⟩ := n
    intro s v s' hrun hs' σ m hm
    cases hrun with
    | constant => exact .done ⟨hm, Frame.holds_int _ _ _, .refl _ _⟩
    | name h =>
      obtain ⟨b, hread, rfl⟩ := build_eq_ok.mp h
      exact read_gets henv hread hs'.builder hm
    | neg hoperand h =>
      obtain ⟨b, hneg, rfl⟩ := build_eq_ok.mp h
      have hs₁ := hs'.before (Build.neg_emits hneg).settles.toGrows (.refl _)
      refine (asInt_attains (ih _ (by simp [Kind.parts])) hoperand hs₁ hm).bind
        fun k τ m₁ hk => ?_
      have hnext := (asInt_emits (exprEmits _) hoperand).settles.nextInst
      exact (neg_gets hneg hs'.builder hk.1.stands hk.1.holds).gets.andThen fun m₂ hneg' =>
        .done (hk.1.trans hneg' hnext)
    | binOp hop hleft hright h =>
      obtain ⟨b, hbinary, rfl⟩ := build_eq_ok.mp h
      have hs₂ := hs'.before (Build.binary_emits hbinary).settles.toGrows (.refl _)
      have hnext := (asInt_emits (exprEmits _) hleft).settles.nextInst
      have hnext' := (asInt_emits (exprEmits _) hright).settles.nextInst
      refine operands_attains (ih _ (by simp [Kind.parts])) (ih _ (by simp [Kind.parts])) hleft
        hright hs₂ hm fun x y τ m₁ hxy hty => ?_
      obtain ⟨hx, hy, -⟩ := hxy.holds
      rw [BinaryOperator.apply_of_arithmetic hop]
      cases heval : BinaryOp.eval _ x y with
      | none => exact binary_fails hbinary hs'.builder hxy.stands hx hy heval
      | some z =>
        refine (binary_gets hbinary hs'.builder hxy.stands hx hy heval
          fun htruth => ?_).gets.andThen fun m₂ hz =>
            .done (hxy.combine hz (Nat.le_trans hnext hnext'))
        cases hty.symm.trans htruth
    | compare hop hleft hright h =>
      obtain ⟨b, hicmp, rfl⟩ := build_eq_ok.mp h
      have hs₂ := hs'.before (Build.icmp_emits hicmp).settles.toGrows (.refl _)
      have hnext := (asInt_emits (exprEmits _) hleft).settles.nextInst
      have hnext' := (asInt_emits (exprEmits _) hright).settles.nextInst
      refine operands_attains (ih _ (by simp [Kind.parts])) (ih _ (by simp [Kind.parts])) hleft
        hright hs₂ hm fun x y τ m₁ hxy _ => ?_
      obtain ⟨hx, hy, -⟩ := hxy.holds
      rw [CompareOperator.apply_of_predicate hop]
      exact (icmp_gets hicmp hs'.builder hxy.stands hx hy).gets.andThen fun m₂ hz =>
        .done (hxy.combine hz (Nat.le_trans hnext hnext'))
    | boolOp hfirst hrest h =>
      have hall := conditions_cons_eq_ok.mpr ⟨_, _, _, hfirst, hrest, rfl⟩
      have hs₂ := hs'.before (join_emits h).settles.toGrows (join_grows _ _ _ _ _ _ h)
      have hparts :=
        conditions_attains (fun n hn => ih n (by simpa [Kind.parts] using hn)) hall hs₂ hm
      refine hparts.bind fun ks τ m₁ hks => ?_
      have hnext := (conditions_emits (fun n _ => exprEmits n) hall).settles.nextInst
      cases ks with
      | nil => exact hks.holds.elim
      | cons k ks =>
        rw [BoolOperator.apply_cons]
        refine (join_gets h hs'.builder hks.stands hks.holds.1 hks.holds.2).andThen
          fun m₂ hjoined => ?_
        exact .done (hks.combine hjoined hnext)
    | call hcallee hargs h =>
      obtain ⟨b, hcall, rfl⟩ := build_eq_ok.mp h
      obtain ⟨ctx, hresolve, rfl⟩ := resolve_eq_ok.mp hcallee
      have hs₂ := hs'.before (Build.call_emits hcall).settles.toGrows (.refl _)
      have hgrows := (arguments_grows _ _ _ _ hargs).program
      have hname := hs₂.program.lookup (hgrows.lookup (Context.resolve_eq_ok hresolve).1)
      refine (arguments_attains (fun n hn => ih n (by simp [Kind.parts, hn])) hargs hs₂ hm).bind
        fun ks τ m₁ hks => ?_
      have hnext := (arguments_emits (fun n _ => exprEmits n) hargs).settles.nextInst
      have hcalled := call_attains henv hcall hs'.builder hks.stands hks.holds hname
      refine hcalled.extend fun r m₂ hr => ?_
      exact .done (hks.combine hr hnext)

theorem expr_attains (henv : env.Fits p limits a) {n : Node} (h : expr n s = .ok v s')
    (hs' : s'.Precedes a p) (hm : Stands a σ s.builder m) :
    Attains p limits env.fuel (fun r m' => Computed a s.builder s'.builder m v r.1 r.2 m') m
      (n.value env σ) :=
  exprAttains henv n _ _ _ (expr_run h) hs' σ m hm

/-- From where a step of lowering started, the machine computes whether what a
    computation means differs from zero. -/
def TestAttains (p : Program) (limits : ExecOptions) (a : Activation) (fuel : Nat)
    (test : Lower Value) (meaning : Meaning Store Int32) : Prop :=
  ∀ s v s', test s = .ok v s' → s'.Precedes a p → ∀ σ m, Stands a σ s.builder m →
    Attains p limits fuel
      (fun r m' => Computed a s.builder s'.builder m v (truth (decide (r.1 ≠ 0))) r.2 m') m
      (meaning σ)

/-- A test means what the truth value that is branched on says. -/
theorem condition_attains (henv : env.Fits p limits a) (n : Node) :
    TestAttains p limits a env.fuel (condition n) (n.value env) :=
  fun _ _ _ h hs' _ _ hm => asCondition_attains (exprAttains henv n) h hs' hm

end Lower

end Blockform
