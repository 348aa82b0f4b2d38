-- SUMMARY: What verification establishes of a program, said without the checker (`Function.Verified`).
import Blockform.IR.Verify

/-!
# Verified functions

`Function.check` stops at the first fault. `Function.Verified` says what holds
when there is none: results are defined once, every operand, slot, callee and
target has an entry in its table, types agree where the checker looks at them,
and every block ends. The two are equivalent (`Function.check_eq_ok`), so a
proof about verified programs never opens the checker.
-/

namespace Blockform

/-! ## Checks -/

@[simp] theorem require_eq_ok {ok : Bool} {fault : String} :
    require ok fault = .ok () ↔ ok = true := by
  cases ok <;> simp [require]

/-- A check of one thing after another passes if each of them does. -/
theorem Check.bind_eq_ok {ε : Type} {x y : Except ε Unit} :
    (x >>= fun _ => y) = .ok () ↔ x = .ok () ∧ y = .ok () := by
  rw [except_bind_eq_ok]
  exact ⟨fun ⟨(), hx, hy⟩ => ⟨hx, hy⟩, fun ⟨hx, hy⟩ => ⟨(), hx, hy⟩⟩

/-- A check of each member of a list passes if it passes for each. -/
theorem Check.forM_eq_ok {α ε : Type} {f : α → Except ε Unit} {l : List α} :
    l.forM f = .ok () ↔ ∀ a ∈ l, f a = .ok () := by
  induction l with
  | nil => simp [pure, Except.pure]
  | cons a l ih =>
    have hcons : (a :: l).forM f = (f a >>= fun _ => l.forM f) := rfl
    rw [hcons, Check.bind_eq_ok, ih, List.forall_mem_cons]

/-! ## Operands, operations and ends of blocks -/

namespace Function

/-- No result is defined twice exactly if the checker finds none that is. -/
theorem firstRedefined_eq_none {seen ds : List InstId} :
    firstRedefined seen ds = none ↔ ds.Nodup ∧ ∀ d ∈ ds, d ∉ seen := by
  induction ds generalizing seen with
  | nil => simp [firstRedefined]
  | cons d ds ih =>
    rw [firstRedefined]
    by_cases h : d ∈ seen
    · simp [h]
    · rw [if_neg h, ih, List.nodup_cons]
      constructor
      · rintro ⟨hnodup, hseen⟩
        have hd : d ∉ ds := fun hmem => hseen d hmem (List.mem_cons_self ..)
        refine ⟨⟨hd, hnodup⟩, ?_⟩
        intro e he
        rcases List.mem_cons.mp he with rfl | he
        · exact h
        · exact fun hmem => hseen e he (List.mem_cons_of_mem _ hmem)
      · rintro ⟨⟨hd, hnodup⟩, hseen⟩
        refine ⟨hnodup, fun e he hmem => ?_⟩
        rcases List.mem_cons.mp hmem with rfl | hmem
        · exact hd he
        · exact hseen e (List.mem_cons_of_mem _ he) hmem

namespace Scope

/-- What an operand refers to exists somewhere in the function. -/
def Admits (s : Scope) : Value → Prop
  | .const .. => True
  | .param index => index < s.function.params.length
  | .inst id _ => id ∈ s.dests

/-- The numbers and types that belong to the kind of an operation are right. -/
def Fits (s : Scope) : Op → Prop
  | .load _ slot => slot.val < s.function.slots.length
  | .store value slot => slot.val < s.function.slots.length ∧ value.ty = .i32
  | .binary _ _ ty lhs rhs => lhs.ty = ty ∧ rhs.ty = ty
  | .call _ callee _ => callee.val < s.program.size
  | .neg .. | .icmp .. | .zext .. => True

/-- A block exists. -/
def HasBlock (s : Scope) (target : BlockId) : Prop := target.val < s.function.blocks.length

/-- A terminator takes what exists, and control can go where it says. -/
def Leaves (s : Scope) : Terminator → Prop
  | .ret value => s.Admits value
  | .br target => s.HasBlock target
  | .condBr cond thenBlock elseBlock =>
    s.Admits cond ∧ cond.ty = .i1 ∧ s.HasBlock thenBlock ∧ s.HasBlock elseBlock

theorem checkValue_eq_ok {s : Scope} {v : Value} : s.checkValue v = .ok () ↔ s.Admits v := by
  cases v with
  | const ty value => simp [checkValue, Admits]
  | param index => simp [checkValue, Admits]
  | inst id ty => simp [checkValue, Admits]

theorem checkTarget_eq_ok {s : Scope} {target : BlockId} :
    s.checkTarget target = .ok () ↔ s.HasBlock target := by
  simp [checkTarget, HasBlock]

theorem checkOp_eq_ok {s : Scope} {label : String} {op : Op} :
    s.checkOp label op = .ok () ↔ (∀ v ∈ op.operands, s.Admits v) ∧ s.Fits op := by
  unfold checkOp
  rw [Check.bind_eq_ok, Check.forM_eq_ok]
  refine and_congr (by simp only [checkValue_eq_ok]) ?_
  cases op with
  | load dest slot => simp [checkSlot, Fits]
  | store value slot => simp [checkSlot, Fits, Check.bind_eq_ok]
  | binary dest op ty lhs rhs => simp [Fits]
  | neg dest operand => simp [Fits]
  | icmp dest pred lhs rhs => simp [Fits]
  | zext dest operand => simp [Fits]
  | call dest callee args => simp [Fits]

theorem checkEnd_eq_ok {s : Scope} {b : Block} :
    s.checkEnd b = .ok () ↔ ∃ t, b.terminator = some t ∧ s.Leaves t := by
  unfold checkEnd
  cases b.terminator with
  | none => simp
  | some t =>
    cases t with
    | ret value => simp [Leaves, checkValue_eq_ok]
    | br target => simp [Leaves, checkTarget_eq_ok]
    | condBr cond thenBlock elseBlock =>
      simp [Leaves, Check.bind_eq_ok, checkValue_eq_ok, checkTarget_eq_ok]

end Scope

/-! ## Functions and programs -/

/-- What the parts of a function are checked against. -/
def scope (p : Program) (f : Function) : Scope := ⟨p, f, f.dests⟩

/-- A function with a body in which a consumer finds nothing missing. -/
structure Verified (p : Program) (f : Function) : Prop where
  distinct : f.dests.Nodup
  operands : ∀ b ∈ f.blocks, ∀ op ∈ b.ops, ∀ v ∈ op.operands, (f.scope p).Admits v
  fits : ∀ b ∈ f.blocks, ∀ op ∈ b.ops, (f.scope p).Fits op
  ends : ∀ b ∈ f.blocks, ∃ t, b.terminator = some t ∧ (f.scope p).Leaves t

theorem check_eq_ok {p : Program} {f : Function} : f.check p = .ok () ↔ f.Verified p := by
  have hdistinct : firstRedefined [] f.dests = none ↔ f.dests.Nodup := by
    simp [firstRedefined_eq_none]
  unfold check
  cases h : firstRedefined [] f.dests with
  | some id =>
    have hdup : ¬ f.dests.Nodup := by rw [← hdistinct, h]; simp
    simp only [reduceCtorEq, false_iff]
    exact fun hf => hdup hf.distinct
  | none =>
    simp only [Check.forM_eq_ok, Scope.checkBlock, Check.bind_eq_ok, Scope.checkOp_eq_ok,
      Scope.checkEnd_eq_ok]
    constructor
    · intro hall
      exact {
        distinct := hdistinct.mp h
        operands := fun b hb op hop => ((hall b hb).1 op hop).1
        fits := fun b hb op hop => ((hall b hb).1 op hop).2
        ends := fun b hb => (hall b hb).2 }
    · intro hf b hb
      exact ⟨fun op hop => ⟨hf.operands b hb op hop, hf.fits b hb op hop⟩, hf.ends b hb⟩

end Function

/-- A program passes verification exactly if each of its bodies is verified. -/
theorem Program.verify_eq_ok {p : Program} :
    p.verify = .ok () ↔ ∀ f ∈ p.functions, f.isDeclaration = false → f.Verified p := by
  rw [Program.verify, Check.forM_eq_ok]
  refine forall₂_congr fun f _ => ?_
  cases h : f.isDeclaration with
  | true => simp
  | false =>
    rw [← Function.check_eq_ok]
    cases f.check p with
    | ok u => exact ⟨fun _ _ => rfl, fun _ => rfl⟩
    | error e => exact ⟨nofun, fun h => nomatch h rfl⟩

/-- A body of a program that passes verification is verified. -/
theorem Function.verified_of_blocks {p : Program} (hp : p.verify = .ok ()) {id : FunctionId}
    {f : Function} (hf : p.function? id = some f) (hblocks : f.blocks ≠ []) : f.Verified p :=
  Program.verify_eq_ok.mp hp f (List.mem_of_getElem? hf)
    (by simpa [isDeclaration] using hblocks)

end Blockform
