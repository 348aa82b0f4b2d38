-- SUMMARY: Steps that change a state and may fail: what a success of one in sequence with others says.
import Blockform.Lowering.Stmt

/-!
# Effects

Lowering is written with steps that change a state and may fail. The lemmas here
take a sequence of steps apart, and lift a step of building to the state that a
lowering step works on. `Effect.bind_eq_ok` is for proofs that start from a run
that succeeded; `Effect.bind_of_ok` and `Effect.bind_of_error` compute one. What
holds of runs that fail as well is said with the state that a step leaves
(`Effect.after`), and put together by `Effect.Obeys.bind`.
-/

namespace Blockform

/-! ## Sequences -/

namespace Effect

variable {ε σ α β : Type} {x : EStateM ε σ α} {f : α → EStateM ε σ β} {s s' s'' : σ}

theorem bind_run (x : EStateM ε σ α) (f : α → EStateM ε σ β) (s : σ) :
    (x >>= f) s = match x s with | .ok a s => f a s | .error e s => .error e s := rfl

theorem bind_of_ok {a : α} (h : x s = .ok a s') : (x >>= f) s = f a s' := by
  rw [bind_run, h]

theorem bind_of_error {e : ε} (h : x s = .error e s') : (x >>= f) s = .error e s' := by
  rw [bind_run, h]

/-- A sequence succeeds if its steps do, each in the state that the one before
    has left. -/
theorem bind_eq_ok {b : β} :
    (x >>= f) s = .ok b s'' ↔ ∃ a s', x s = .ok a s' ∧ f a s' = .ok b s'' := by
  cases h : x s with
  | ok a s' =>
    rw [bind_of_ok h]
    constructor
    · exact fun hf => ⟨a, s', rfl, hf⟩
    · rintro ⟨a', s₁, heq, hf⟩
      cases heq
      exact hf
  | error e s' =>
    rw [bind_of_error h]
    constructor
    · exact fun hf => nomatch hf
    · rintro ⟨a', s₁, heq, -⟩
      cases heq

/-- A sequence fails if its first step does, or the second one behind a success. -/
theorem bind_eq_error {e : ε} :
    (x >>= f) s = .error e s'' ↔
      x s = .error e s'' ∨ ∃ a s', x s = .ok a s' ∧ f a s' = .error e s'' := by
  cases h : x s with
  | ok a s' =>
    rw [bind_of_ok h]
    constructor
    · exact fun hf => .inr ⟨a, s', rfl, hf⟩
    · rintro (heq | ⟨a', s₁, heq, hf⟩)
      · cases heq
      · cases heq
        exact hf
  | error e' s' =>
    rw [bind_of_error h]
    constructor
    · rintro ⟨⟩
      exact .inl rfl
    · rintro (⟨⟨⟩⟩ | ⟨a', s₁, heq, -⟩)
      · rfl
      · cases heq

theorem pure_eq_ok {a b : α} : (pure a : EStateM ε σ α) s = .ok b s' ↔ a = b ∧ s = s' := by
  constructor
  · intro h
    cases h
    exact ⟨rfl, rfl⟩
  · rintro ⟨rfl, rfl⟩
    rfl

/-- Where the step succeeds, it keeps an invariant of the states and gives a result
    with a property. -/
def Keeps (I : σ → Prop) (x : EStateM ε σ α) (Q : α → Prop) : Prop :=
  ∀ s a s', x s = .ok a s' → I s → I s' ∧ Q a

variable {I : σ → Prop} {P : α → Prop} {Q : β → Prop}

theorem Keeps.pure {a : α} (ha : P a) : Keeps I (pure a : EStateM ε σ α) P := by
  intro s b s' h hs
  obtain ⟨rfl, rfl⟩ := pure_eq_ok.mp h
  exact ⟨hs, ha⟩

theorem Keeps.bind (hx : Keeps I x P) (hf : ∀ a, P a → Keeps I (f a) Q) :
    Keeps I (x >>= f) Q := by
  intro s b s' h hs
  obtain ⟨a, s₁, hxs, hfs⟩ := bind_eq_ok.mp h
  obtain ⟨hs₁, ha⟩ := hx _ _ _ hxs hs
  exact hf a ha _ _ _ hfs hs₁

/-! ## Whatever the outcome -/

/-- The state that a step leaves, whether it succeeds or fails. -/
def after (x : EStateM ε σ α) (s : σ) : σ :=
  match x s with
  | .ok _ s' => s'
  | .error _ s' => s'

theorem after_of_ok {a : α} (h : x s = .ok a s') : after x s = s' := by
  unfold after
  rw [h]

theorem after_of_error {e : ε} (h : x s = .error e s') : after x s = s' := by
  unfold after
  rw [h]

/-- Whether it succeeds or fails, the step leaves a state that is related to the
    one it started from. -/
def Obeys (R : σ → σ → Prop) (x : EStateM ε σ α) : Prop := ∀ s, R s (after x s)

variable {R : σ → σ → Prop} [Std.Refl R]

theorem Obeys.pure (a : α) : Obeys R (pure a : EStateM ε σ α) := Std.Refl.refl

theorem Obeys.throw (e : ε) : Obeys R (throw e : EStateM ε σ α) := Std.Refl.refl

omit [Std.Refl R] in
theorem Obeys.bind [Trans R R R] (hx : Obeys R x) (hf : ∀ a, Obeys R (f a)) :
    Obeys R (x >>= f) := by
  intro s
  have hstart := hx s
  cases h : x s with
  | ok a s' =>
    have hafter : after (x >>= f) s = after (f a) s' := by
      unfold after
      rw [bind_of_ok h]
    rw [after_of_ok h] at hstart
    rw [hafter]
    exact Trans.trans hstart (hf a s')
  | error e s' =>
    rw [after_of_error (bind_of_error h)]
    rwa [after_of_error h] at hstart

end Effect

/-! ## Lowering steps -/

namespace Lower

variable {α : Type} {s s' : Workspace} {a : α}

theorem build_of_ok {x : Build α} {b : Builder} (h : x s.builder = .ok a b) :
    build x s = .ok a { s with builder := b } := by
  unfold build
  rw [h]

theorem build_eq_ok {x : Build α} :
    build x s = .ok a s' ↔ ∃ b, x s.builder = .ok a b ∧ s' = { s with builder := b } := by
  unfold build
  cases h : x s.builder with
  | ok a' b =>
    constructor
    · intro heq
      cases heq
      exact ⟨b, rfl, rfl⟩
    · rintro ⟨b', heq, rfl⟩
      cases heq
      rfl
  | error e b =>
    constructor
    · exact fun heq => nomatch heq
    · rintro ⟨b', heq, -⟩
      cases heq

/-- The position of an error is of no concern to a success. -/
theorem locating_eq_ok {node : Node} {x : Lower α} :
    locating node x s = .ok a s' ↔ x s = .ok a s' := by
  unfold locating
  cases x s <;> simp

theorem fail_ne_ok {e : LoweringError} : (fail e : Lower α) s ≠ .ok a s' :=
  fun h => nomatch h

theorem unsupported_ne_ok {what : String} : (unsupported what : Lower α) s ≠ .ok a s' :=
  fail_ne_ok

theorem resolve_eq_ok {name : String} {arity : Nat} {id : FunctionId} :
    resolve name arity s = .ok id s' ↔
      ∃ ctx, s.context.resolve name arity = .ok (id, ctx) ∧ s' = { s with context := ctx } := by
  unfold resolve
  cases h : s.context.resolve name arity with
  | ok r =>
    constructor
    · intro heq
      cases heq
      exact ⟨r.2, rfl, rfl⟩
    · rintro ⟨ctx, heq, rfl⟩
      cases heq
      rfl
  | error e =>
    constructor
    · exact fun heq => nomatch heq
    · rintro ⟨ctx, heq, -⟩
      cases heq

theorem nested_eq_ok {x : EStateM (Abort LoweringError) Context α} :
    nested x s = .ok a s' ↔ ∃ ctx, x s.context = .ok a ctx ∧ s' = { s with context := ctx } := by
  unfold nested
  cases h : x s.context with
  | ok a' ctx =>
    constructor
    · intro heq
      cases heq
      exact ⟨ctx, rfl, rfl⟩
    · rintro ⟨ctx', heq, rfl⟩
      cases heq
      rfl
  | error e ctx =>
    constructor
    · exact fun heq => nomatch heq
    · rintro ⟨ctx', heq, -⟩
      cases heq

end Lower

end Blockform
