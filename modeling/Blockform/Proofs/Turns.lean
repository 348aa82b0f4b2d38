-- SUMMARY: Counted runs of the machine (`Machine.Reaches`), and how the loop, which counts them in a word, comes to its end (`Machine.run_cases`).
import Blockform.Machine.Run

/-!
# Counted runs

A run without limits is a number of steps from one machine to another. The loop of a
run takes the same steps (`Machine.run_of_reaches`), as long as there are no more of
them than the limit on steps says. It ends with the step that halts
(`Machine.run_of_halted`), or in the turn that finds the limit spent
(`Machine.run_of_spent`). The limit may be the largest number of the word; the turn
that is one too many cannot be counted then, and so does not end with the error that
reports the limit (`ExecOptions.exhausted`).
-/

namespace Blockform

/-- What a run is given up with when it may take no more steps: an error, unless the
    count of the step that is one too many does not fit into the word. -/
def ExecOptions.exhausted (limits : ExecOptions) : Abort ExecError :=
  if limits.maxSteps.toNat + 1 = UInt64.size then .overflow
  else .error (.stepLimit limits.maxSteps.toNat)

theorem ExecOptions.exhausted_of_lt {limits : ExecOptions}
    (h : limits.maxSteps.toNat + 1 < UInt64.size) :
    limits.exhausted = .error (.stepLimit limits.maxSteps.toNat) :=
  if_neg (Nat.ne_of_lt h)

namespace Machine

variable {p : Program} {limits : ExecOptions} {m m₁ m' : Machine} {n k : Nat}
  {r : Except (Abort ExecError) Int32}

/-! ## Turns -/

/-- A turn within the limit is a step. -/
theorem turn_of_lt (hm : m.steps.toNat < limits.maxSteps.toNat) :
    m.turn p limits = m.advance p limits := by
  have hlt := limits.maxSteps.toNat_lt_size
  have hwithin : ¬ limits.maxSteps < m.steps + 1 := by
    rw [UInt64.lt_iff_toNat_lt, toNat_succ (by omega)]
    omega
  rw [turn, if_neg (by omega), if_neg hwithin]

/-- When the limit is spent, the turn gives the run up. -/
theorem turn_of_spent (hm : m.steps.toNat = limits.maxSteps.toNat) :
    ∃ m', m.turn p limits = .halted (.error limits.exhausted) m' := by
  unfold turn ExecOptions.exhausted
  rw [hm]
  split
  · exact ⟨_, rfl⟩
  · have hlt := limits.maxSteps.toNat_lt_size
    have hpast : limits.maxSteps < m.steps + 1 := by
      rw [UInt64.lt_iff_toNat_lt, toNat_succ (by omega)]
      omega
    rw [if_pos hpast]
    exact ⟨_, rfl⟩

/-- What the loop does after a turn. -/
theorem run_eq (p : Program) (limits : ExecOptions) (m : Machine) :
    run p limits m = match m.turn p limits with
      | .running m' => run p limits m'
      | .halted result m' => (result, m') := by
  rw [run]
  split <;> simp only [*]

theorem run_of_halted (h : m.advance p limits = .halted r m')
    (hm : m.steps.toNat < limits.maxSteps.toNat) : run p limits m = (r, m') := by
  rw [run_eq, turn_of_lt hm, h]

/-- A run that could go on is given up. -/
theorem run_of_spent (hm : m.steps.toNat = limits.maxSteps.toNat) :
    (run p limits m).1 = .error limits.exhausted := by
  obtain ⟨m', hturn⟩ := turn_of_spent (p := p) hm
  rw [run_eq, hturn]

/-! ## Counted runs -/

/-- A machine becomes another one by a number of steps. -/
inductive Reaches (p : Program) (limits : ExecOptions) : Nat → Machine → Machine → Prop where
  | refl (m : Machine) : Reaches p limits 0 m m
  | step {n : Nat} {m m₁ m' : Machine} (h : m.advance p limits = .running m₁)
    (hrest : Reaches p limits n m₁ m') : Reaches p limits (n + 1) m m'

theorem Reaches.trans (h : Reaches p limits n m m₁) (h' : Reaches p limits k m₁ m') :
    Reaches p limits (n + k) m m' := by
  induction h with
  | refl m =>
    rw [Nat.zero_add]
    exact h'
  | step hstep _ ih =>
    rw [Nat.add_right_comm]
    exact .step hstep (ih h')

/-- A run has a run of any smaller number of steps at its start. -/
theorem Reaches.shorten (h : Reaches p limits n m m') (hk : k ≤ n) :
    ∃ m₁, Reaches p limits k m m₁ := by
  induction h generalizing k with
  | refl m =>
    rw [Nat.le_zero.mp hk]
    exact ⟨m, .refl m⟩
  | step hstep _ ih =>
    cases k with
    | zero => exact ⟨_, .refl _⟩
    | succ k =>
      obtain ⟨m₁, hreaches⟩ := ih (Nat.le_of_succ_le_succ hk)
      exact ⟨m₁, .step hstep hreaches⟩

/-- The steps are counted, as far as the word goes. -/
theorem Reaches.steps (h : Reaches p limits n m m') (hroom : m.steps.toNat + n < UInt64.size) :
    m'.steps.toNat = m.steps.toNat + n := by
  induction h with
  | refl m => rfl
  | step hadvance _ ih =>
    have hcount := count_of_running hadvance (by omega)
    rw [ih (by omega), hcount, Nat.add_right_comm, Nat.add_assoc]

/-- The loop takes all steps that the limit leaves it. -/
theorem run_of_reaches (h : Reaches p limits n m m')
    (hm : m.steps.toNat + n ≤ limits.maxSteps.toNat) : run p limits m = run p limits m' := by
  have hlt := limits.maxSteps.toNat_lt_size
  induction h with
  | refl m => rfl
  | step hadvance _ ih =>
    have hcount := count_of_running hadvance (by omega)
    rw [run_eq, turn_of_lt (by omega), hadvance]
    exact ih (by omega)

/-- A run is given up, or comes to a machine that halts. -/
theorem run_cases (p : Program) (limits : ExecOptions) {m : Machine}
    (hm : m.steps.toNat + n = limits.maxSteps.toNat) :
    (∃ m₁, Reaches p limits n m m₁ ∧ (run p limits m).1 = .error limits.exhausted) ∨
    ∃ k m₁ r m', k < n ∧ Reaches p limits k m m₁ ∧ m₁.advance p limits = .halted r m' ∧
      run p limits m = (r, m') := by
  induction n generalizing m with
  | zero => exact .inl ⟨m, .refl m, run_of_spent hm⟩
  | succ n ih =>
    have hlt := limits.maxSteps.toNat_lt_size
    cases hadvance : m.advance p limits with
    | halted r m' =>
      exact .inr ⟨0, m, r, m', Nat.succ_pos n, .refl m, hadvance, run_of_halted hadvance (by omega)⟩
    | running m₁ =>
      have hcount := count_of_running hadvance (by omega)
      have hrun : run p limits m = run p limits m₁ :=
        run_of_reaches (.step hadvance (.refl m₁)) (by omega)
      rw [hrun]
      rcases ih (by omega : m₁.steps.toNat + n = _) with
        ⟨m₂, hreaches, hend⟩ | ⟨k, m₂, r, m', hk, hreaches, hhalted, hend⟩
      · exact .inl ⟨m₂, .step hadvance hreaches, hend⟩
      · exact .inr ⟨k + 1, m₂, r, m', Nat.succ_lt_succ hk, .step hadvance hreaches, hhalted, hend⟩

/-- What every step keeps, a run keeps. -/
theorem Reaches.invariant {I : Machine → Prop} (h : Reaches p limits n m m')
    (hstep : ∀ m m', I m → m.advance p limits = .running m' → I m') (hm : I m) : I m' := by
  induction h with
  | refl m => exact hm
  | step hadvance _ ih => exact ih (hstep _ _ hm hadvance)

/-! ## Runs that can be computed -/

/-- The end of a run, if it takes no more turns than a number. -/
def endWithin (p : Program) (limits : ExecOptions) :
    Nat → Machine → Option (Except (Abort ExecError) Int32 × Machine)
  | 0, _ => none
  | n + 1, m =>
    match m.turn p limits with
    | .running m' => endWithin p limits n m'
    | .halted result m' => some (result, m')

theorem run_of_endWithin {ending : Except (Abort ExecError) Int32 × Machine}
    (h : endWithin p limits n m = some ending) : run p limits m = ending := by
  induction n generalizing m with
  | zero => cases h
  | succ n ih =>
    rw [endWithin] at h
    rw [run_eq]
    split at h
    · exact ih h
    · exact Option.some.inj h

end Machine

/-! ## Runs of a program -/

namespace Program

/-- What the call of the function of a name leads to, while no body is active. -/
def opening (p : Program) (name : String) (args : List Int32) (limits : ExecOptions) :
    Except (Abort ExecError) Entry :=
  match p.lookup name with
  | none => .error (.error (.unregistered name))
  | some id => p.enter limits.maxDepth.toNat 0 id args

/-- What is made of the end of the loop. -/
def outcomeOf (ending : Except (Abort ExecError) Int32 × Machine) :
    Except (Abort ExecError) Outcome :=
  ending.1.map fun v => ⟨v, ending.2.output.toList, ending.2.steps.toNat⟩

theorem run_of_opening (p : Program) (name : String) (args : List Int32) (limits : ExecOptions) :
    p.run name args limits =
      match p.opening name args limits with
      | .error e => .error e
      | .ok (.printed v) => .ok ⟨0, [v], 0⟩
      | .ok (.entered fr) => outcomeOf (Machine.run p limits { frame := fr }) := by
  simp only [opening, run, runNoting]
  cases p.lookup name with
  | none => rfl
  | some id =>
    cases henter : p.enter limits.maxDepth.toNat 0 id args with
    | error e => simp only [henter]
    | ok entry => cases entry <;> simp only [henter, outcomeOf]

/-- A run, if it takes no more turns than a number. -/
def runWithin (p : Program) (turns : Nat) (name : String) (args : List Int32)
    (limits : ExecOptions) : Option (Except (Abort ExecError) Outcome) :=
  match p.opening name args limits with
  | .error e => some (.error e)
  | .ok (.printed v) => some (.ok ⟨0, [v], 0⟩)
  | .ok (.entered fr) => (Machine.endWithin p limits turns { frame := fr }).map outcomeOf

theorem run_of_runWithin {p : Program} {turns : Nat} {name : String} {args : List Int32}
    {limits : ExecOptions} {r : Except (Abort ExecError) Outcome}
    (h : p.runWithin turns name args limits = some r) : p.run name args limits = r := by
  rw [run_of_opening]
  unfold runWithin at h
  split at h
  · exact Option.some.inj h
  · exact Option.some.inj h
  · obtain ⟨ending, hending, rfl⟩ := Option.map_eq_some_iff.mp h
    rw [Machine.run_of_endWithin hending]

end Program

end Blockform
