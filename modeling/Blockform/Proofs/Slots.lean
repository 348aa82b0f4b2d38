-- SUMMARY: No function of a lowered program has two slots of one name (`lower_distinctSlots`).
import Blockform.Proofs.Compiling
import Blockform.Proofs.Outcomes
import Blockform.Proofs.Permanence

/-!
# Slots of lowered functions

A variable gets a slot at its first assignment, and only if the function has none of
its name yet. Whatever a step of lowering does to a function under construction, its
slots stay distinct (`Builder.Continues`), and a program takes nothing but functions
under construction and declarations, which have no slots.
-/

namespace Blockform

open Effect

/-! ## Programs -/

namespace Program

variable {p : Program}

/-- No function has two slots of one name. -/
def DistinctSlots (p : Program) : Prop := ∀ f ∈ p.functions, (f.slots.map Slot.name).Nodup

theorem DistinctSlots.declare (h : p.DistinctSlots) (name : String) (signature : Signature) :
    (p.declare name signature).2.DistinctSlots := by
  cases hlookup : p.lookup name with
  | some id =>
    rw [declare_of_some hlookup]
    exact h
  | none =>
    rw [declare_of_none hlookup]
    exact List.forall_mem_append.mpr ⟨h, List.forall_mem_singleton.mpr .nil⟩

theorem DistinctSlots.withBuiltins (names : List String) : (withBuiltins names).DistinctSlots := by
  have hfold (names : List String) (p : Program) (hp : p.DistinctSlots) :
      (names.foldl (fun p name => (p.declare name ⟨1⟩).2) p).DistinctSlots := by
    induction names generalizing p with
    | nil => exact hp
    | cons name rest ih => exact ih _ (hp.declare name ⟨1⟩)
  exact hfold names {} nofun

theorem DistinctSlots.define (h : p.DistinctSlots) (id : FunctionId) {body : Function}
    (hbody : (body.slots.map Slot.name).Nodup) : (p.define id body).DistinctSlots := by
  intro f hf
  obtain ⟨i, hi⟩ := List.mem_iff_getElem?.mp hf
  rw [Program.define, List.getElem?_modify] at hi
  obtain ⟨g, hg, rfl⟩ := Option.map_eq_some_iff.mp hi
  split
  · exact hbody
  · exact h g (List.mem_of_getElem? hg)

end Program

/-! ## Lowering -/

/-- The function under construction goes on, and slots of finished functions stay
    distinct. -/
structure Workspace.KeepsSlots (s s' : Workspace) : Prop where
  builder : s.builder.Continues s'.builder
  program : s.context.program.DistinctSlots → s'.context.program.DistinctSlots

instance : Std.Refl Workspace.KeepsSlots where
  refl s := ⟨Std.Refl.refl s.builder, id⟩

instance : Trans Workspace.KeepsSlots Workspace.KeepsSlots Workspace.KeepsSlots where
  trans h h' := ⟨Trans.trans h.builder h'.builder, h'.program ∘ h.program⟩

theorem Build.Taken.continues {α : Type} {x : Build α} (h : Build.Taken x) :
    Obeys Builder.Continues x := by
  cases h with
  | define ty hdest => exact continues_rules.define ty _
  | toInt v => exact continues_rules.toInt v
  | toBool v => exact continues_rules.toBool v
  | read name => exact continues_rules.read name
  | write name v => exact continues_rules.write name v
  | ret v => exact continues_rules.ret v
  | terminate t => exact continues_rules.terminate t
  | newBlock label => exact newBlock_continues label
  | moveTo block => exact fun b => continues_rules.moveTo b block
  | isTerminated => exact isTerminated_obeys

namespace Lower

/-- A function that is built has the slots of its builder, which started without any. -/
theorem buildFunction_distinctSlots (name : String) (params : List String) {body : Lower Unit}
    (hbody : Obeys Workspace.KeepsSlots (body >>= fun _ => fallOff)) {ctx : Context}
    (hctx : ctx.program.DistinctSlots) :
    (after (Context.buildFunction name params body) ctx).program.DistinctSlots := by
  cases hclaim : ctx.claim name params.length with
  | error e =>
    rw [after_of_error (buildFunction_of_refused hclaim)]
    exact hctx
  | ok r =>
    obtain ⟨id, ctx₁⟩ := r
    obtain ⟨-, hprogram, -, -⟩ := Context.declare_eq ctx name ⟨params.length⟩
    obtain ⟨-, -, -, hclaimed⟩ := Context.claim_eq_ok hclaim
    have hstart : ctx₁.program.DistinctSlots := by
      rw [hclaimed]
      exact hprogram ▸ hctx.declare name ⟨params.length⟩
    have hkept := hbody (.start ctx₁ name params)
    cases hrun : (body >>= fun _ => fallOff) (.start ctx₁ name params) with
    | error e s =>
      rw [after_of_error hrun] at hkept
      rw [after_of_error (by rw [buildFunction_of_claim hclaim, hrun])]
      exact hkept.program hstart
    | ok u s =>
      rw [after_of_ok hrun] at hkept
      rw [after_of_ok (by rw [buildFunction_of_claim hclaim, hrun])]
      exact (hkept.program hstart).define id (hkept.builder.distinct .nil)

theorem keepsSlots_stepRules : StepRules (Obeys Workspace.KeepsSlots) := by
  refine obeys_stepRules (fun hx s => ?_) (fun s e => ⟨Std.Refl.refl s.builder, id⟩)
    (fun s name signature => ⟨Std.Refl.refl s.builder, fun hp => ?_⟩)
    fun name params body hbody s => ?_
  · rw [after_build]
    exact ⟨hx.continues s.builder, id⟩
  · obtain ⟨-, hprogram, -, -⟩ := Context.declare_eq s.context name signature
    exact hprogram ▸ hp.declare name signature
  · rw [after_nested]
    exact ⟨Std.Refl.refl s.builder, buildFunction_distinctSlots name params hbody⟩

end Lower

/-! ## Trees -/

/-- No function of a lowered program has two slots of one name. -/
theorem lower_distinctSlots {tree : Node} {options : LowerOptions} {p : Program}
    (h : lower tree options = .ok p) : p.DistinctSlots := by
  obtain ⟨body, location, span, rfl⟩ := lower_module h
  obtain ⟨w, id, ctx, -, hok, -, rfl⟩ := lower_module_eq_ok.mp h
  have hstart : (Context.start options).program.DistinctSlots := .withBuiltins options.builtins
  have hbuilt := Lower.buildFunction_distinctSlots options.entryName []
    (Lower.keepsSlots_stepRules.body body) hstart
  exact after_of_ok hok ▸ hbuilt

end Blockform
