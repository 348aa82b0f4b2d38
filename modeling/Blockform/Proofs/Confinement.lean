-- SUMMARY: All that lowering an expression may change, whether it succeeds or fails: the end of the current block, and the end of the registry (`Lower.expression_confined`).
import Blockform.Proofs.Outcomes
import Blockform.Proofs.Permanence

/-!
# Confinement of expressions

A loop goes back to the block that its test has ended in, long after the test was lowered,
and trusts that it is the block that the test was started in. That is so as an expression
works at two places only: behind the operations of the block under the cursor, and behind
the functions of the registry (`Workspace.Confined`). It is confined to these also where it
fails, whatever has been lowered of it by then.
-/

namespace Blockform

open Effect

/-! ## Functions under construction -/

/-- The function is as it was, but for operations that were added to the block under the
    cursor while it was open, and for numbers of results that were used up. -/
def Builder.Appends (b b' : Builder) : Prop :=
  ∃ ops next,
    b' = { b with
      blocks := b.blocks.modify b.cursor.val fun k => { k with ops := k.ops ++ ops }
      nextInst := next } ∧
    (ops ≠ [] → b.IsOpen) ∧ b.nextInst ≤ next

namespace Builder.Appends

/-- Numbers of results may be used up without an operation. -/
theorem skipping (b : Builder) {next : Nat} (h : b.nextInst ≤ next) :
    b.Appends { b with nextInst := next } := by
  have hnothing : (fun k : Block => { k with ops := k.ops ++ [] }) = id := by
    funext k
    simp
  refine ⟨[], next, ?_, absurd rfl, h⟩
  rw [hnothing, List.modify_id]

instance : Std.Refl Appends where
  refl b := skipping b (Nat.le_refl _)

instance : Trans Appends Appends Appends where
  trans := by
    rintro b - - ⟨ops, next, rfl, hopen, hle⟩ ⟨ops', next', rfl, hopen', hle'⟩
    refine ⟨ops ++ ops', next', ?_, fun hne => ?_, Nat.le_trans hle hle'⟩
    · simp [List.modify_modify_eq, Function.comp_def]
    · by_cases hops : ops = []
      · -- Adding operations does not open a block.
        have hne' : ops' ≠ [] := by simpa [hops] using hne
        exact openAt_emitted.mp (hopen' hne')
      · exact hopen hops

theorem valueRules : Build.ValueRules Appends where
  push hopen op := ⟨[op], _, rfl, fun _ => hopen, Nat.le_refl _⟩
  fresh b := skipping b (Nat.le_succ _)

end Builder.Appends

/-! ## Contexts -/

/-- The context is as it was, but for declarations that were added to the registry behind
    its functions, and for what was noted. -/
def Context.Declares (ctx ctx' : Context) : Prop :=
  ∃ declared events,
    ctx' = { ctx with
      program := { functions := ctx.program.functions ++ declared }
      log := ctx.log ++ events } ∧
    ∀ f ∈ declared, ∃ name signature, f = .declaration name signature

namespace Context.Declares

instance : Std.Refl Declares where
  refl ctx := ⟨[], #[], by simp, nofun⟩

instance : Trans Declares Declares Declares where
  trans := by
    rintro ctx - - ⟨fs, es, rfl, hfs⟩ ⟨fs', es', rfl, hfs'⟩
    refine ⟨fs ++ fs', es ++ es', by simp, fun f hf => ?_⟩
    exact (List.mem_append.mp hf).elim (hfs f) (hfs' f)

theorem declare (ctx : Context) (name : String) (signature : Signature) :
    ctx.Declares (ctx.declare name signature).2 := by
  cases hname : ctx.program.lookup name with
  | some id =>
    rw [Context.declare_of_some hname]
    exact Std.Refl.refl ctx
  | none =>
    refine ⟨[.declaration name signature], #[.functionDeclared name signature], ?_,
      List.forall_mem_singleton.mpr ⟨name, signature, rfl⟩⟩
    have hprogram : ctx.program.register (.declaration name signature) =
        { functions := ctx.program.functions ++ [.declaration name signature] } := Program.ext rfl
    simp [Context.declare, Program.declare_of_none hname, Program.size, note, hprogram]

end Context.Declares

/-! ## Lowering -/

/-- Only the end of the block under the cursor and the end of the registry have changed. -/
structure Workspace.Confined (s s' : Workspace) : Prop where
  builder : s.builder.Appends s'.builder
  context : s.context.Declares s'.context

instance : Std.Refl Workspace.Confined where
  refl s := ⟨Std.Refl.refl s.builder, Std.Refl.refl s.context⟩

instance : Trans Workspace.Confined Workspace.Confined Workspace.Confined where
  trans h h' := ⟨Trans.trans h.builder h'.builder, Trans.trans h.context h'.context⟩

namespace Lower

variable {α : Type}

theorem build_confined {x : Build α} (hx : Obeys Builder.Appends x) :
    Obeys Workspace.Confined (build x) := by
  intro s
  rw [after_build]
  exact ⟨hx s.builder, Std.Refl.refl s.context⟩

/-- All that an expression is made of is confined. -/
theorem confined_exprRules : ExprRules (Obeys Workspace.Confined) where
  pure := .pure
  bind := .bind
  locating n hx s := by
    rw [after_locating]
    exact hx s
  unsupported _ := .throw _
  define ty op _ := build_confined (Builder.Appends.valueRules.define ty op)
  toInt v := build_confined (Builder.Appends.valueRules.toInt v)
  toBool v := build_confined (Builder.Appends.valueRules.toBool v)
  read name := build_confined (Builder.Appends.valueRules.read name)
  resolve := resolve_obeys fun s name signature =>
    ⟨Std.Refl.refl s.builder, .declare s.context name signature⟩

/-- Whether it succeeds or fails, lowering an expression to a value or to a condition adds
    operations to the block under the cursor and declarations to the registry, and leaves
    everything else as it is: the cursor, the other blocks, labels and terminators, slots,
    the functions that are registered and those under construction. -/
theorem expression_confined (n : Node) (s : Workspace) :
    s.Confined (after (expr n) s) ∧ s.Confined (after (condition n) s) :=
  ⟨confined_exprRules.expr n s, confined_exprRules.condition n s⟩

end Lower

end Blockform
