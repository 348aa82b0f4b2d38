-- SUMMARY: What every step of lowering does to the state, whether it succeeds or fails (`Lower.obeys_stepRules`).
import Blockform.Proofs.Constructs
import Blockform.Proofs.Registry

/-!
# Lowering whatever the outcome

A step of lowering that fails has changed the state all the same. What a relation
asks of a step (`Effect.Obeys`) is asked here of the steps that lowering is made of,
and thereby of all of lowering, refused trees included.
-/

namespace Blockform

open Effect

namespace Lower

variable {α : Type} {R : Workspace → Workspace → Prop}

theorem after_locating (n : Node) (x : Lower α) (s : Workspace) :
    after (locating n x) s = after x s := by
  cases h : x s <;> simp [after, locating, h]

theorem after_build (x : Build α) (s : Workspace) :
    after (build x) s = { s with builder := after x s.builder } := by
  cases h : x s.builder <;> simp [after, build, h]

theorem after_nested (x : EStateM (Abort LoweringError) Context α) (s : Workspace) :
    after (nested x) s = { s with context := after x s.context } := by
  cases h : x s.context <;> simp [after, nested, h]

/-- A callee is declared at most. -/
theorem resolve_obeys [Std.Refl R]
    (hdeclare : ∀ (s : Workspace) (name : String) (signature : Signature),
      R s { s with context := (s.context.declare name signature).2 })
    (name : String) (arity : Nat) : Obeys R (resolve name arity) := by
  intro s
  cases h : s.context.resolve name arity with
  | ok r =>
    have hrun : resolve name arity s = .ok r.1 { s with context := r.2 } := by
      unfold resolve
      rw [h]
    rw [after_of_ok hrun]
    rcases (Context.resolve_eq_ok h).2 with heq | heq
    · rw [heq]
      exact Std.Refl.refl s
    · rw [heq]
      exact hdeclare s name ⟨arity⟩
  | error e =>
    have hrun : resolve name arity s = .error (.error e) s := by
      unfold resolve
      rw [h]
    rw [after_of_error hrun]
    exact Std.Refl.refl s

/-- All of lowering obeys a relation if changing a function under construction,
    noting, declaring and building another function do. -/
theorem obeys_stepRules [Std.Refl R] [Trans R R R]
    (hbuild : ∀ {α : Type} {x : Build α}, Build.Taken x → Obeys R (build x))
    (hnote : ∀ (s : Workspace) (e : Event), R s { s with context := s.context.note e })
    (hdeclare : ∀ (s : Workspace) (name : String) (signature : Signature),
      R s { s with context := (s.context.declare name signature).2 })
    (hfunction : ∀ name params {body : Lower Unit}, Obeys R (body >>= fun _ => fallOff) →
      Obeys R (nested (Context.buildFunction name params body))) : StepRules (Obeys R) where
  pure := .pure
  bind := .bind
  inspect hf := fun s => hf s.builder s
  locating n hx := fun s => by
    rw [after_locating]
    exact hx s
  unsupported _ := .throw _
  build := hbuild
  note e := fun s => hnote s e
  resolve := resolve_obeys hdeclare
  function := hfunction

end Lower

end Blockform
