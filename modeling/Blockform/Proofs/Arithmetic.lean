-- SUMMARY: Arithmetic is exact modulo `2 ^ 32`, and takes one step for each operator (`arithmetic_exact`).
import Mathlib.Data.Int.ModEq
import Blockform.Proofs.Limits
import Blockform.Proofs.Preservation

/-!
# Arithmetic

A sum, difference, product or negation of words is that of the integers behind
them, cut to a word: `Int32.ofInt` takes the operators on integers to those on
words. So an expression of such operators need not be cut at every literal and at
every operator. It is enough to cut its value over unbounded integers
(`Node.exact`) once, at the end.

Lowering adds one operation for each operator of the expression, and none for
its literals and parameters. The machine executes just these before it returns
(`Machine.GetsIn`).
-/

namespace Blockform

open Machine Effect

/-! ## Expressions -/

/-- The operation on unbounded integers that words have in common with them. A
    remainder is none, being one of unsigned words. -/
def BinaryOperator.exact : BinaryOperator → Option (Int → Int → Int)
  | .add => some fun x y => x + y
  | .sub => some fun x y => x - y
  | .mult => some fun x y => x * y
  | .mod | .div | .floorDiv | .pow | .lShift | .rShift | .bitOr | .bitXor | .bitAnd => none

namespace Node

/-- An expression over integer literals and parameters, with the operators `+`,
    `-` and `*`, and the unary minus. -/
inductive IsArithmetic (params : List String) : Node → Prop where
  | literal (n : Int64) (location : Option Location) (span : Option Span) :
    IsArithmetic params ⟨.constant n, location, span⟩
  | parameter {id : String} (hid : id ∈ params) (location : Option Location)
    (span : Option Span) : IsArithmetic params ⟨.name id, location, span⟩
  | neg {operand : Node} (hoperand : operand.IsArithmetic params) (location : Option Location)
    (span : Option Span) : IsArithmetic params ⟨.unaryOp .uSub operand, location, span⟩
  | binOp {left right : Node} {op : BinaryOperator} {f : Int → Int → Int}
    (hop : op.exact = some f) (hleft : left.IsArithmetic params)
    (hright : right.IsArithmetic params) (location : Option Location) (span : Option Span) :
    IsArithmetic params ⟨.binOp left op right, location, span⟩

/-- The value of an arithmetic expression over unbounded integers: literals are
    taken as they are written, and a parameter is the first argument of its
    name. -/
def exact (arguments : List (String × Int32)) : Node → Int
  | ⟨.constant n, _, _⟩ => n.toInt
  | ⟨.name id, _, _⟩ => ((arguments.lookup id).getD 0).toInt
  | ⟨.unaryOp .uSub operand, _, _⟩ => -operand.exact arguments
  | ⟨.binOp left op right, _, _⟩ =>
    (op.exact.getD fun _ _ => 0) (left.exact arguments) (right.exact arguments)
  | _ => 0

/-- The number of operators of an arithmetic expression. -/
def operators : Node → Nat
  | ⟨.unaryOp .uSub operand, _, _⟩ => operand.operators + 1
  | ⟨.binOp left _ right, _, _⟩ => left.operators + right.operators + 1
  | _ => 0

/-- The smallest word has no negation among words. -/
example : (neg (int (-2147483648))).exact [] = 2147483648 := rfl

end Node

/-! ## Words -/

/-- The word of an integer is the only one that is congruent to it. -/
theorem toInt_modEq_iff (w : Int32) (z : Int) :
    w.toInt ≡ z [ZMOD 2 ^ 32] ↔ w = .ofInt z := by
  have hcut : (Int32.ofInt z).toInt = z.bmod (2 ^ 32) := Int32.toInt_ofInt
  constructor
  · intro h
    have hmod : w.toInt % (2 ^ 32 : Nat) = z % (2 ^ 32 : Nat) := h
    have hbmod : w.toInt.bmod (2 ^ 32) = z.bmod (2 ^ 32) := by
      rw [← Int.emod_bmod, hmod, Int.emod_bmod]
    rw [← Int32.toInt_inj, hcut, ← hbmod]
    exact (Int32.toInt_bmod w).symm
  · rintro rfl
    rw [hcut]
    exact Int.bmod_emod

/-- An operator computes the word of what it computes of unbounded integers. -/
theorem BinaryOperator.eval_ofInt {op : BinaryOperator} {f : Int → Int → Int}
    {arithmetic : BinaryOp} (hexact : op.exact = some f) (hop : op.arithmetic = some arithmetic)
    (x y : Int) : arithmetic.eval (.ofInt x) (.ofInt y) = some (.ofInt (f x y)) := by
  cases op <;> cases hexact <;> cases hop
  · exact congrArg some (Int32.ofInt_add x y).symm
  · exact congrArg some (Int32.ofInt_sub x y).symm
  · exact congrArg some (Int32.ofInt_mul x y).symm

/-! ## Evaluation -/

/-- A parameter is read without an operation. -/
theorem Build.read_param {b b' : Builder} {v : Value} {id : String}
    (h : Build.read id b = .ok v b') (hid : id ∈ b.params) :
    b.param? id = some v ∧ v.ty = .i32 ∧ b' = b := by
  rcases Build.read_eq_ok.mp h with ⟨hparam, rfl⟩ | ⟨hparam, -⟩
  · obtain ⟨i, -, rfl⟩ := Builder.param?_lt hparam
    exact ⟨hparam, rfl, rfl⟩
  · rw [Builder.param?_eq, Option.map_eq_none_iff] at hparam
    have hnone := List.findIdx?_eq_none_iff.mp hparam id hid
    simp at hnone

namespace Lower

variable {p : Program} {limits : ExecOptions} {a : Activation} {σ : Store} {s s' : Workspace}
  {m : Machine} {v : Value} {n : Int32} {k : Nat} {e : Node}

/-- From where a node was lowered in the place of an expression, the machine
    computes an integer in a number of steps. -/
def Computes (p : Program) (limits : ExecOptions) (a : Activation) (e : Node) (k : Nat)
    (n : Int32) : Prop :=
  ∀ s v s', expr e s = .ok v s' → s'.builder.Grows a.body → ∀ σ m, Stands a σ s.builder m →
    GetsIn p limits k
      (fun m' => Computed a s.builder s'.builder m v n σ m' ∧ v.ty = .i32) m

/-- An integer is not widened, so no step is taken for it. -/
theorem Computes.toInt (he : Computes p limits a e k n) (hvalue : expr e s = .ok v s')
    {w : Value} {b : Builder} (hint : Build.toInt v s'.builder = .ok w b) (hb : b.Grows a.body)
    (hm : Stands a σ s.builder m) :
    GetsIn p limits k (fun m' => Computed a s.builder b m w n σ m' ∧ w.ty = .i32) m := by
  have hs' := (Build.toInt_emits hint).settles.toGrows.trans hb
  obtain ⟨m', hreaches, hcomputed, hty⟩ := he _ _ _ hvalue hs' σ m hm
  rcases Build.toInt_eq_ok.mp hint with ⟨-, rfl, rfl⟩ | ⟨htruth, -⟩
  · exact ⟨m', hreaches, hcomputed, hty⟩
  · cases hty.symm.trans htruth

theorem Computes.asInt (he : Computes p limits a e k n) (h : asInt (expr e) s = .ok v s')
    (hs' : s'.builder.Grows a.body) (hm : Stands a σ s.builder m) :
    GetsIn p limits k
      (fun m' => Computed a s.builder s'.builder m v n σ m' ∧ v.ty = .i32) m := by
  obtain ⟨w, s₁, hvalue, h⟩ := asInt_eq_ok.mp h
  obtain ⟨b, hint, rfl⟩ := build_eq_ok.mp h
  exact he.toInt hvalue hint hs' hm

theorem Computes.neg {operand : Node} (hoperand : Computes p limits a operand k n)
    (location : Option Location) (span : Option Span) :
    Computes p limits a ⟨.unaryOp .uSub operand, location, span⟩ (k + 1) (-n) := by
  intro s v s' h hs' σ m hm
  cases expr_run h with
  | neg hlowered h =>
    obtain ⟨b, hneg, rfl⟩ := build_eq_ok.mp h
    have hs₁ := (Build.neg_emits hneg).settles.toGrows.trans hs'
    have hnext := (asInt_emits (exprEmits operand) hlowered).settles.nextInst
    refine (hoperand.asInt hlowered hs₁ hm).andThen fun m₁ hn => ?_
    obtain ⟨m₂, hreaches, hcomputed⟩ := neg_gets hneg hs' hn.1.stands hn.1.holds
    obtain ⟨-, rfl, -⟩ := Build.neg_eq_ok.mp hneg
    exact ⟨m₂, hreaches, hn.1.trans hcomputed hnext, rfl⟩

theorem Computes.binOp {left right : Node} {op : BinaryOperator} {arithmetic : BinaryOp}
    {x y z : Int32} {j : Nat} (hop : op.arithmetic = some arithmetic)
    (hz : arithmetic.eval x y = some z) (hleft : Computes p limits a left k x)
    (hright : Computes p limits a right j y) (location : Option Location) (span : Option Span) :
    Computes p limits a ⟨.binOp left op right, location, span⟩ (k + j + 1) z := by
  intro s v s' h hs' σ m hm
  cases expr_run h with
  | @binOp _ _ _ _ _ s₁ s₂ _ lhs rhs _ hop' hlowered hlowered' h =>
    cases hop.symm.trans hop'
    obtain ⟨b, hbinary, rfl⟩ := build_eq_ok.mp h
    have hemits := asInt_emits (exprEmits left) hlowered
    have hemits' := asInt_emits (exprEmits right) hlowered'
    have hs₂ := (Build.binary_emits hbinary).settles.toGrows.trans hs'
    have hs₁ := hemits'.settles.toGrows.trans hs₂
    have hnext := hemits.settles.nextInst
    have hnext' := hemits'.settles.nextInst
    -- The left operand is kept while the right one is computed.
    have hboth : GetsIn p limits (k + j) (fun m' => ComputedAll a s.builder s₂.builder m [lhs, rhs]
        [x, y] σ m' ∧ lhs.ty = .i32) m := by
      refine (hleft.asInt hlowered hs₁ hm).andThen fun m₁ hx => ?_
      obtain ⟨m₂, hreaches, hy⟩ := hright.asInt hlowered' hs₂ hx.1.stands
      exact ⟨m₂, hreaches,
        .cons hx.1 (.cons hy.1 (.nil hy.1.stands) hnext' (Nat.le_refl _)) hnext hnext', hx.2⟩
    refine hboth.andThen fun m₂ hxy => ?_
    obtain ⟨hx, hy, -⟩ := hxy.1.holds
    obtain ⟨m₃, hreaches, hcomputed⟩ := binary_gets hbinary hs' hxy.1.stands hx hy hz
      fun htruth => by cases hxy.2.symm.trans htruth
    obtain ⟨-, rfl, -⟩ := Build.binary_eq_ok.mp hbinary
    exact ⟨m₃, hreaches, hxy.1.combine hcomputed (Nat.le_trans hnext hnext'), hxy.2⟩

/-- An arithmetic expression is computed exactly, up to a cut at the end. -/
theorem computes_exact (he : e.IsArithmetic a.body.params)
    (harity : a.args.length = a.body.params.length) :
    Computes p limits a e e.operators (.ofInt (e.exact (a.body.params.zip a.args))) := by
  induction he with
  | literal n location span =>
    intro s v s' h hs' σ m hm
    cases expr_run h with
    | constant =>
      have hword : Int32.ofInt n.toInt = n.toInt32 := Int32.ofInt_int64ToInt n
      simp only [Node.exact, hword]
      exact .done ⟨⟨hm, Frame.holds_int _ _ _, .refl _ _⟩, rfl⟩
  | @parameter id hid location span =>
    intro s v s' h hs' σ m hm
    cases expr_run h with
    | name h =>
      obtain ⟨b, hread, rfl⟩ := build_eq_ok.mp h
      have hparams : a.body.params = s.builder.params :=
        ((Build.read_emits hread).settles.toGrows.trans hs').params
      rw [hparams] at hid
      obtain ⟨hparam, hty, rfl⟩ := Build.read_param hread hid
      obtain ⟨n, hn, hholds⟩ := hm.param_holds harity hparams hparam
      have hword : Int32.ofInt ((Option.getD (some n) 0).toInt) = n := Int32.ofInt_toInt n
      simp only [Node.exact, hn, hword]
      exact .done ⟨⟨hm, hholds, .refl _ _⟩, hty⟩
  | neg _ location span ih =>
    have hneg := ih.neg location span
    rw [← Int32.ofInt_neg] at hneg
    exact hneg
  | @binOp left right op f hop _ _ location span hleft hright =>
    obtain ⟨arithmetic, harithmetic⟩ : ∃ arithmetic, op.arithmetic = some arithmetic := by
      cases op <;> cases hop <;> exact ⟨_, rfl⟩
    have hbinary := Computes.binOp harithmetic (BinaryOperator.eval_ofInt hop harithmetic _ _)
      hleft hright location span
    simpa only [Node.exact, Node.operators, hop, Option.getD_some] using hbinary

/-- A body that just returns a computed integer gets to its end without another
    step. -/
theorem Computes.ret (he : Computes p limits a e k n) {location : Option Location}
    {span : Option Span} (h : block [⟨.ret (some e), location, span⟩] s = .ok () s')
    (hopen : s.builder.IsOpen) (hs' : s'.builder.Grows a.body) (hm : Stands a σ s.builder m) :
    GetsIn p limits k (Returns a.callers a.active σ.printed n) m := by
  obtain ⟨s₁, s₂, hreopen, hstatement, hrest⟩ := block_cons_eq_ok.mp h
  cases hrest
  obtain ⟨-, ⟨-, rfl⟩ | ⟨hclosed, -⟩⟩ := reopen_eq_ok.mp hreopen
  · cases statement_run hstatement with
    | ret hvalue h =>
      obtain ⟨b, hret, rfl⟩ := build_eq_ok.mp h
      obtain ⟨w, b₁, hint, hopen₁, rfl⟩ := Build.ret_eq_ok.mp hret
      have hb₁ := (Builder.Framed.close hopen₁ (.ret w)).toGrows.trans hs'
      obtain ⟨m', hreaches, hcomputed, -⟩ := he.toInt hvalue hint hb₁ hm
      exact ⟨m', hreaches, returns_of_ret hcomputed.stands hs' hcomputed.holds.eval⟩
    | value h => cases h
  · exact absurd hopen hclosed

end Lower

/-! ## Functions -/

variable {p : Program} {name : String} {args : List Int32} {n : Int32} {k : Nat}

/-- A call returns a value after a number of steps and prints nothing, if it is
    allowed a body and the steps, and is given up otherwise. -/
def Program.Returns (p : Program) (name : String) (args : List Int32) (n : Int32) (steps : Nat) :
    Prop :=
  ∀ limits : ExecOptions, p.run name args limits =
    if limits.maxDepth = 0 then .error (.error (.depthLimit 0 name))
    else if steps ≤ limits.maxSteps.toNat then .ok ⟨n, [], steps⟩
    else .error limits.exhausted

/-- A body that gets to its end in a number of steps takes one more to return. -/
theorem Program.returns_of_getsIn {id : FunctionId} {f : Function} {entry : Block}
    {rest : List Block} (hid : p.lookup f.name = some id) (hf : p.function? id = some f)
    (hblocks : f.blocks = entry :: rest) (harity : args.length = f.params.length)
    (h : ∀ limits, GetsIn p limits k (Machine.Returns [] 1 #[] n)
      { frame := .start f args entry }) : p.Returns f.name args n (k + 1) := by
  intro limits
  have henter := enter_body hf hblocks limits.maxDepth.toNat 0 args
  rw [if_neg (Decidable.not_not.mpr harity)] at henter
  by_cases hdepth : limits.maxDepth = 0
  · have hnone : limits.maxDepth.toNat = 0 := by rw [hdepth]; rfl
    rw [if_pos (Nat.le_zero.mpr hnone)] at henter
    rw [if_pos hdepth, ← hnone]
    exact Ends.run_eq (.refused hid henter)
  · have hsome : ¬ limits.maxDepth.toNat ≤ 0 := fun hnone =>
      hdepth (UInt64.toNat_inj.mp (Nat.le_zero.mp hnone))
    rw [if_neg hsome] at henter
    rw [if_neg hdepth]
    obtain ⟨m, hreaches, hreturns⟩ := h limits
    by_cases hsteps : k + 1 ≤ limits.maxSteps.toNat
    · obtain ⟨m', hhalted, hprinted⟩ := hreturns.halts p limits
      rw [if_pos hsteps, run_of_halting hid henter hsteps hreaches hhalted, hprinted]
      rfl
    · rw [if_neg hsteps]
      obtain ⟨m₁, hreaches'⟩ := hreaches.shorten (Nat.le_of_lt_succ (Nat.lt_of_not_le hsteps))
      exact run_of_lasting hid henter hreaches'

/-- A function that just returns an arithmetic expression. -/
theorem Compiled.returns {params : List String} {e : Node} {location : Option Location}
    {span : Option Span} (h : Compiled p ⟨name, params, [⟨.ret (some e), location, span⟩]⟩)
    (he : e.IsArithmetic params) (harity : args.length = params.length) :
    p.Returns name args (.ofInt (e.exact (params.zip args))) (e.operators + 1) := by
  obtain ⟨body, hbody⟩ := h.finishes
  cases hbody with
  | @mk id ctx s entry rest hid hfunction hparams hblocks hbody hgrows _ _ =>
    have hparams : body.params = params := hparams
    subst hparams
    refine Program.returns_of_getsIn hid hfunction hblocks harity fun limits => ?_
    let a : Activation := { body, name, args, callers := [], active := 1 }
    have hm : Stands a { printed := #[] } (.start name body.params)
        { frame := .start a.function args entry } :=
      stands_start (m := { frame := .start a.function args entry }) hblocks rfl rfl rfl name
        body.params
    exact (Lower.computes_exact (a := a) he harity).ret hbody ⟨_, rfl, rfl⟩ hgrows hm

/-! ## Trees -/

namespace Walk

variable {options : LowerOptions} {w : Walk} {params : List String} {e : Node}

/-- An arithmetic expression asks for its parameters alone. -/
theorem run_arithmetic (he : e.IsArithmetic params) (hw : w.body.params = params) :
    w.run options e.valueAsks = .ok w := by
  induction he with
  | literal n location span => rfl
  | @parameter id hid location span =>
    have hstep : w.step options (.read id) = .ok w := by
      simp [step, hw, hid]
    exact run_inside_of_ok _ ((run_singleton options w _).trans hstep)
  | neg _ location span ih => exact run_inside_of_ok _ ih
  | @binOp left right op f hop _ _ location span hleft hright =>
    refine run_inside_of_ok _ ?_
    have hasks : (Kind.binOp left op right).valueAsks = left.valueAsks ++ right.valueAsks := by
      cases op <;> cases hop <;> rfl
    rw [hasks, run_append_of_ok hleft, hright]

end Walk

/-- A tree of just one function, which returns an arithmetic expression, is
    accepted, unless it takes the name of the entry function. -/
theorem lower_arithmetic {options : LowerOptions} {name : String} {params : List String} {e : Node}
    (he : e.IsArithmetic params) (hname : name ≠ options.entryName) :
    ∃ p, lower (.module [.functionDef name params [.ret e]]) options = .ok p := by
  let w := (Walk.start options).enter name params
  have henter : (Walk.start options).step options (.enter name params) = .ok w := by
    simp [Walk.step, Walk.start, Walk.claim, Walk.foldl_register_begun, hname, w]
  have hret : w.run options (blockAsks [.ret e]) = .ok w := by
    rw [blockAsks, blockAsks, List.append_nil]
    exact Walk.run_inside_of_ok _ (Walk.run_arithmetic he rfl)
  have hrun : (Walk.start options).run options
      (blockAsks [.functionDef name params [.ret e]]) = .ok w.leave := by
    rw [blockAsks, blockAsks, List.append_nil]
    refine Walk.run_inside_of_ok _ ((Walk.run_cons_of_ok henter _).trans ?_)
    rw [Walk.run_append_of_ok hret, Walk.run_singleton]
    rfl
  have hmodule := Context.lowerModule_follows [.functionDef name params [.ret e]] options
  rw [hrun] at hmodule
  obtain ⟨id, ctx, hok, -⟩ := hmodule
  exact ⟨_, lower_of_ok hok none none⟩

/-- Arithmetic is exact modulo `2 ^ 32`. A function that just returns an
    arithmetic expression is accepted, and wherever it is defined, it returns the
    only word that is congruent to the value of the expression over unbounded
    integers. It prints nothing, and takes one step for each operator and one to
    return. -/
theorem arithmetic_exact {params : List String} {e : Node} (he : e.IsArithmetic params) :
    (∀ (name : String) (options : LowerOptions), name ≠ options.entryName →
      ∃ p, lower (.module [.functionDef name params [.ret e]]) options = .ok p) ∧
    ∀ (body : List Node) (location : Option Location) (span : Option Span)
      (options : LowerOptions) (p : Program),
      lower ⟨.module body, location, span⟩ options = .ok p →
      ∀ (name : String) (location : Option Location) (span : Option Span),
        ⟨name, params, [⟨.ret (some e), location, span⟩]⟩ ∈ moduleDefinitions body options →
        ∀ args : List Int32, args.length = params.length →
          ∃ n : Int32, (∀ w : Int32, w.toInt ≡ e.exact (params.zip args) [ZMOD 2 ^ 32] ↔ w = n) ∧
            p.Returns name args n (e.operators + 1) := by
  refine ⟨fun name options => lower_arithmetic he, ?_⟩
  intro body location span options p h name location' span' hd args harity
  have hcompiled := (lower_covers h).1.compiled _ hd
  exact ⟨_, fun w => toInt_modEq_iff w _, hcompiled.returns he harity⟩

/-- `4294967301 * a - -(b + 9223372036854775807)`, with literals that are no
    words. -/
def wideExpression : Node :=
  .binop (.binop (.int 4294967301) .mult (.name "a")) .sub
    (.neg (.binop (.name "b") .add (.int 9223372036854775807)))

theorem wideExpression_exact :
    ∃ p, lower (.module [.functionDef "f" ["a", "b"] [.ret wideExpression]]) {} = .ok p ∧
      p.Returns "f" [-2147483648, 7] (-2147483642) 5 := by
  have he : wideExpression.IsArithmetic ["a", "b"] :=
    .binOp rfl (.binOp rfl (.literal ..) (.parameter (by decide) ..) ..)
      (.neg (.binOp rfl (.parameter (by decide) ..) (.literal ..) ..) ..) ..
  obtain ⟨haccepted, hexact⟩ := arithmetic_exact he
  obtain ⟨p, hp⟩ := haccepted "f" {} (by decide)
  have hdefined : ⟨"f", ["a", "b"], [.ret wideExpression]⟩ ∈
      moduleDefinitions [.functionDef "f" ["a", "b"] [.ret wideExpression]] {} :=
    .tail _ (.head _)
  obtain ⟨n, hn, hreturns⟩ := hexact _ none none {} p hp "f" none none hdefined [-2147483648, 7] rfl
  have heq : -2147483642 = n := (hn _).mp (by decide)
  exact ⟨p, hp, heq ▸ hreturns⟩

end Blockform
