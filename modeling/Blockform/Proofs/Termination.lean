-- SUMMARY: The loop of a run, which counts its steps in a machine word and has no other bound (`Machine.turn`), stops for every program.
import Blockform.Proofs.Limits

/-!
# Termination

Nothing in a program makes the loop of a run end. A block without operations may
branch to itself, and a function may call itself for ever. What ends it is the count of
its turns (`Machine.turn`), provided that the word it is kept in can get past the limit.
The loop then ends after a number of turns, in one way, and that is what the run gives
(`Program.run_stops`).
-/

namespace Blockform

namespace Machine

/-! ## Turns -/

/-- A machine becomes another one by a number of turns. -/
inductive Turns (p : Program) (limits : ExecOptions) : Nat → Machine → Machine → Prop where
  | refl (m : Machine) : Turns p limits 0 m m
  | turn {n : Nat} {m m₁ m' : Machine} (h : m.turn p limits = .running m₁)
    (hrest : Turns p limits n m₁ m') : Turns p limits (n + 1) m m'

variable {p : Program} {limits : ExecOptions} {m m₁ m₂ m' : Machine} {n k : Nat}
  {r : Except (Abort ExecError) Int32}

/-! ## The limit on steps -/

/-- The word that counts steps gets past the limit. -/
def Counted (limits : ExecOptions) : Prop := limits.maxSteps.toNat + 1 < UInt64.size

/-- Within the limit, the count is compared as a number. -/
theorem turn_eq (hlimit : Counted limits) (hm : m.steps.toNat ≤ limits.maxSteps.toNat) :
    m.turn p limits =
      if limits.maxSteps.toNat = m.steps.toNat then
        .halted (.error (.error (.stepLimit limits.maxSteps.toNat))) { m with steps := m.steps + 1 }
      else m.advance p limits := by
  have hroom : m.steps.toNat + 1 < UInt64.size := Nat.lt_of_le_of_lt (Nat.succ_le_succ hm) hlimit
  have hpast : limits.maxSteps < m.steps + 1 ↔ limits.maxSteps.toNat = m.steps.toNat := by
    rw [UInt64.lt_iff_toNat_lt, toNat_succ hroom]
    omega
  rw [turn, if_neg (Nat.ne_of_lt hroom)]
  simp only [hpast]

/-- A turn after which the loop goes on is a step within the limit. -/
theorem turn_running (hlimit : Counted limits) (hm : m.steps.toNat ≤ limits.maxSteps.toNat)
    (h : m.turn p limits = .running m') :
    m.advance p limits = .running m' ∧ m'.steps.toNat = m.steps.toNat + 1 ∧
      m'.steps.toNat ≤ limits.maxSteps.toNat := by
  have hcount := count_of_turn h
  rw [turn_eq hlimit hm] at h
  split at h
  · cases h
  · exact ⟨h, hcount, by omega⟩

theorem turn_halted (hlimit : Counted limits) (hm : m.steps.toNat ≤ limits.maxSteps.toNat)
    (h : m.turn p limits = .halted r m') : m'.steps.toNat = m.steps.toNat + 1 := by
  have hcount : (m.steps + 1).toNat = m.steps.toNat + 1 :=
    toNat_succ (Nat.lt_of_le_of_lt (Nat.succ_le_succ hm) hlimit)
  rw [turn_eq hlimit hm] at h
  split at h
  · cases h
    exact hcount
  · rw [steps_of_halted h, hcount]

/-- Turns are counted, and stay within the limit. -/
theorem Turns.steps (h : Turns p limits n m m') (hlimit : Counted limits)
    (hm : m.steps.toNat ≤ limits.maxSteps.toNat) :
    Reaches p limits n m m' ∧ m'.steps.toNat = m.steps.toNat + n ∧
      m'.steps.toNat ≤ limits.maxSteps.toNat := by
  induction h with
  | refl m => exact ⟨.refl m, rfl, hm⟩
  | turn hturn _ ih =>
    obtain ⟨hadvance, hcount, hle⟩ := turn_running hlimit hm hturn
    obtain ⟨hreaches, hcount', hle'⟩ := ih hle
    exact ⟨.step hadvance hreaches, by omega, hle'⟩

/-- No loop goes on for ever: its machines would run out of steps. -/
theorem not_turning_forever (hlimit : Counted limits) (hm : m.steps.toNat ≤ limits.maxSteps.toNat) :
    ¬ ∃ ms : Nat → Machine, ms 0 = m ∧ ∀ i, (ms i).turn p limits = .running (ms (i + 1)) := by
  rintro ⟨ms, rfl, hturn⟩
  have hturns (i : Nat) : Turns p limits i (ms 0) (ms i) := by
    have hfrom (j : Nat) : Turns p limits i (ms j) (ms (j + i)) := by
      induction i generalizing j with
      | zero => exact .refl _
      | succ i ih =>
        have hrest := ih (j + 1)
        rw [Nat.add_right_comm] at hrest
        exact .turn (hturn j) hrest
    simpa using hfrom 0
  obtain ⟨-, hcount, hle⟩ := (hturns (limits.maxSteps.toNat + 1)).steps hlimit hm
  omega

/-- The loop ends after a number of turns, and what it ends with is what the run gives. -/
theorem turns_end (p : Program) (limits : ExecOptions) (m : Machine) :
    ∃ k m₁ r m', Turns p limits k m m₁ ∧ m₁.turn p limits = .halted r m' ∧
      run p limits m = (r, m') := by
  induction m using run.induct p limits with
  | case1 m m₁ hturn _ ih =>
    obtain ⟨k, m₂, r, m', hturns, hhalted, hrun⟩ := ih
    refine ⟨k + 1, m₂, r, m', .turn hturn hturns, hhalted, ?_⟩
    rw [run_eq, hturn]
    exact hrun
  | case2 m r m' hturn => exact ⟨0, m, r, m', .refl m, hturn, by rw [run_eq, hturn]⟩

/-- A loop has one end. -/
theorem Turns.end_unique (h : Turns p limits n m m₁) {r' : Except (Abort ExecError) Int32}
    {m'' : Machine} (hhalted : m₁.turn p limits = .halted r m') (h' : Turns p limits k m m₂)
    (hhalted' : m₂.turn p limits = .halted r' m'') : r' = r ∧ m'' = m' := by
  induction h generalizing k with
  | refl m =>
    cases h' with
    | refl _ =>
      cases hhalted.symm.trans hhalted'
      exact ⟨rfl, rfl⟩
    | turn hturn _ => cases hhalted.symm.trans hturn
  | turn hturn _ ih =>
    cases h' with
    | refl _ => cases hhalted'.symm.trans hturn
    | turn hturn' hrest' =>
      cases hturn.symm.trans hturn'
      exact ih hhalted hrest'

/-! ## The limit on depth -/

/-- The active bodies are counted, and are not more than the limit allows. -/
structure Bounded (limits : ExecOptions) (m : Machine) : Prop where
  active : m.frames.length = m.active
  depth : m.active ≤ limits.maxDepth.toNat

theorem Bounded.advance (hm : m.Bounded limits) (h : m.advance p limits = .running m') :
    m'.Bounded limits := by
  have hactive : m.callers.length + 1 = m.active := by simpa [frames] using hm.active
  cases does_running h with
  | compute _ _ _ => exact ⟨hm.active, hm.depth⟩
  | store _ _ => exact ⟨hm.active, hm.depth⟩
  | print _ _ _ => exact ⟨hm.active, hm.depth⟩
  | jump _ _ _ _ => exact ⟨hm.active, hm.depth⟩
  | enter _ _ henter =>
    obtain ⟨hdepth, -⟩ := Program.enter_entered henter
    exact ⟨by simp [frames, hactive], hdepth⟩
  | ret _ _ _ hcallers =>
    rw [hcallers, List.length_cons] at hactive
    refine ⟨?_, Nat.le_trans (Nat.sub_le ..) hm.depth⟩
    simp [frames, ← hactive]

end Machine

/-! ## Runs of a program -/

namespace Program

variable {p : Program} {name : String} {args : List Int32} {limits : ExecOptions}

/-- The ways for the loop to end, with the number of steps that have been counted
    by then: without a body to enter it ends at once, and otherwise with the turn
    that halts. -/
inductive Finishes (p : Program) (name : String) (args : List Int32) (limits : ExecOptions) :
    Except (Abort ExecError) Outcome → Nat → Prop where
  | refused {e : Abort ExecError} (h : p.opening name args limits = .error e) :
    Finishes p name args limits (.error e) 0
  | printed {v : Int32} (h : p.opening name args limits = .ok (.printed v)) :
    Finishes p name args limits (.ok ⟨0, [v], 0⟩) 0
  | halted {fr : Frame} {n : Nat} {m m' : Machine} {r : Except (Abort ExecError) Int32}
    (h : p.opening name args limits = .ok (.entered fr))
    (hturns : Machine.Turns p limits n { frame := fr } m)
    (hturn : m.turn p limits = .halted r m') :
    Finishes p name args limits (outcomeOf (r, m')) m'.steps.toNat

theorem Finishes.unique {r r' : Except (Abort ExecError) Outcome} {steps steps' : Nat}
    (h : p.Finishes name args limits r steps) (h' : p.Finishes name args limits r' steps') :
    r' = r ∧ steps' = steps := by
  cases h with
  | refused h =>
    cases h' with
    | refused h' =>
      cases h.symm.trans h'
      exact ⟨rfl, rfl⟩
    | printed h' => cases h.symm.trans h'
    | halted h' _ _ => cases h.symm.trans h'
  | printed h =>
    cases h' with
    | refused h' => cases h.symm.trans h'
    | printed h' =>
      cases h.symm.trans h'
      exact ⟨rfl, rfl⟩
    | halted h' _ _ => cases h.symm.trans h'
  | halted h hturns hturn =>
    cases h' with
    | refused h' => cases h.symm.trans h'
    | printed h' => cases h.symm.trans h'
    | halted h' hturns' hturn' =>
      cases h.symm.trans h'
      obtain ⟨rfl, rfl⟩ := hturns.end_unique hturn hturns' hturn'
      exact ⟨rfl, rfl⟩

/-- The run is what the loop ends with, and no more steps than the limit and the
    one that is too many have been counted by then. -/
theorem finishes_run (p : Program) (name : String) (args : List Int32)
    (hlimit : Machine.Counted limits) :
    ∃ steps ≤ limits.maxSteps.toNat + 1,
      p.Finishes name args limits (p.run name args limits) steps := by
  rw [run_of_opening]
  cases hopening : p.opening name args limits with
  | error e => exact ⟨0, Nat.zero_le _, .refused hopening⟩
  | ok entry =>
    cases entry with
    | printed v => exact ⟨0, Nat.zero_le _, .printed hopening⟩
    | entered fr =>
      obtain ⟨k, m, r, m', hturns, hturn, hrun⟩ :=
        Machine.turns_end p limits { frame := fr }
      obtain ⟨-, -, hle⟩ := hturns.steps hlimit (Nat.zero_le _)
      have hcount := Machine.turn_halted hlimit hle hturn
      refine ⟨m'.steps.toNat, hcount ▸ Nat.succ_le_succ hle, ?_⟩
      simp only [hrun]
      exact .halted hopening hturns hturn

theorem opening_bounded {fr : Frame} (h : p.opening name args limits = .ok (.entered fr)) :
    Machine.Bounded limits { frame := fr } := by
  unfold opening at h
  cases hid : p.lookup name with
  | none =>
    rw [hid] at h
    cases h
  | some id =>
    rw [hid] at h
    obtain ⟨hdepth, -⟩ := enter_entered h
    exact ⟨rfl, hdepth⟩

/-- A run of any program stops. The loop, which counts steps in a machine word
    and is not bounded otherwise, does not go on for ever; it ends in exactly one
    way, which is what the run gives; and on its way it never has more bodies
    active than the limits allow. -/
theorem run_stops (p : Program) (name : String) (args : List Int32) (limits : ExecOptions)
    (hlimit : limits.maxSteps.toNat + 1 < UInt64.size) :
    (∃ steps ≤ limits.maxSteps.toNat + 1, ∀ r' steps',
      p.Finishes name args limits r' steps' ↔ r' = p.run name args limits ∧ steps' = steps) ∧
    ∀ fr, p.opening name args limits = .ok (.entered fr) →
      (¬ ∃ ms : Nat → Machine, ms 0 = { frame := fr } ∧
        ∀ i, (ms i).turn p limits = .running (ms (i + 1))) ∧
      ∀ n m, Machine.Turns p limits n { frame := fr } m →
        m.steps.toNat = n ∧ n ≤ limits.maxSteps.toNat ∧ m.frames.length ≤ limits.maxDepth.toNat := by
  refine ⟨?_, fun fr hopening => ⟨?_, fun n m hturns => ?_⟩⟩
  · obtain ⟨steps, hle, hfinishes⟩ := finishes_run p name args hlimit
    refine ⟨steps, hle, fun r' steps' => ⟨hfinishes.unique, ?_⟩⟩
    rintro ⟨rfl, rfl⟩
    exact hfinishes
  · exact Machine.not_turning_forever hlimit (Nat.zero_le _)
  · obtain ⟨hreaches, hcount, hle⟩ := hturns.steps hlimit (Nat.zero_le _)
    have hcount : m.steps.toNat = n := hcount.trans (Nat.zero_add n)
    have hbounded : m.Bounded limits :=
      hreaches.invariant (fun _ _ h hadvance => h.advance hadvance) (opening_bounded hopening)
    exact ⟨hcount, hcount ▸ hle, hbounded.active ▸ hbounded.depth⟩

end Program

/-- A program that never ends by itself: `spin` is a block that branches to
    itself, and `sink` calls itself. -/
def endless : Program where
  functions := [
    { name := "spin", signature := ⟨0⟩
      blocks := [{ label := "entry", terminator := some (.br ⟨0⟩) }] },
    { name := "sink", signature := ⟨0⟩
      blocks := [
        { label := "entry", ops := [.call ⟨0⟩ ⟨1⟩ []]
          terminator := some (.ret (.inst ⟨0⟩ .i32)) }] }]

/-- Both functions are stopped: the one by its steps, the other by its depth. -/
theorem endless_stops :
    (∃ steps ≤ 4, endless.Finishes "spin" [] { maxSteps := 3 }
      (.error (.error (.stepLimit 3))) steps) ∧
    ∃ steps ≤ 10, endless.Finishes "sink" [] { maxSteps := 9, maxDepth := 4 }
      (.error (.error (.depthLimit 4 "sink"))) steps := by
  obtain ⟨steps, hle, hspin⟩ := (endless.run_stops "spin" [] { maxSteps := 3 } (by decide)).1
  obtain ⟨steps', hle', hsink⟩ :=
    (endless.run_stops "sink" [] { maxSteps := 9, maxDepth := 4 } (by decide)).1
  have hspins : endless.run "spin" [] { maxSteps := 3 } = .error (.error (.stepLimit 3)) :=
    @Program.run_of_runWithin _ 4 _ _ _ _ rfl
  have hsinks : endless.run "sink" [] { maxSteps := 9, maxDepth := 4 } =
      .error (.error (.depthLimit 4 "sink")) := @Program.run_of_runWithin _ 10 _ _ _ _ rfl
  exact ⟨⟨steps, hle, (hspin _ _).mpr ⟨hspins.symm, rfl⟩⟩,
    ⟨steps', hle', (hsink _ _).mpr ⟨hsinks.symm, rfl⟩⟩⟩

end Blockform
