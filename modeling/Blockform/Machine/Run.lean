-- SUMMARY: The machine that runs programs: one step, and the loop that counts the steps in a machine word.
import Blockform.Log
import Blockform.Machine.Frame

/-!
# Running

A machine is the active frame with the frames that wait for it. `advance` takes
one step: it executes an operation or a terminator. It knows no limit on steps.
`run` is the loop: each turn counts a step, in a 64-bit word, compares the count
with the limit and takes the step. It ends at the latest where the word is full.
-/

namespace Blockform

/-- A running program. `callers` are the waiting frames, the innermost first,
    each with the result that it waits for; `active` is the number of all
    frames. -/
structure Machine where
  frame : Frame
  callers : List (InstId × Frame) := []
  active : Nat := 1
  steps : UInt64 := 0
  output : Array Int32 := #[]
  log : Array Event := #[]

/-- What a step leads to. -/
inductive Step where
  | running (m : Machine)
  | halted (result : Except (Abort ExecError) Int32) (m : Machine)

namespace Machine

/-- Note an event. -/
def note (m : Machine) (e : Event) : Machine := { m with log := m.log.push e }

/-- Print a value. -/
def print (m : Machine) (v : Int32) : Machine :=
  { m with output := m.output.push v }.note (.valuePrinted v)

/-- Stop with an error. -/
def fail (m : Machine) (e : ExecError) : Step := .halted (.error (.error e)) m

/-- Stop at a number that no table has an entry for. -/
def lost (m : Machine) : Step := .halted (.error .noEntry) m

/-- Go on with the active frame. -/
def goOn (m : Machine) (fr : Frame) : Step := .running { m with frame := fr }

/-- Go on with the value of an operand, if it has one. -/
def withValue (m : Machine) (v : Value) (next : Int32 → Step) : Step :=
  match m.frame.eval v with
  | .ok n => next n
  | .error e => m.fail e

/-- Execute an operation. -/
def execute (p : Program) (limits : ExecOptions) (m : Machine) : Op → Step
  | .load dest slot =>
    match m.frame.slots[slot.val]? with
    | some v => m.goOn (m.frame.define dest v)
    | none => m.lost
  | .store value slot =>
    m.withValue value fun v =>
      if slot.val < m.frame.slots.length then
        m.goOn { m.frame with slots := m.frame.slots.set slot.val v }
      else m.lost
  | .binary dest op _ lhs rhs =>
    m.withValue lhs fun a => m.withValue rhs fun b =>
      match op.eval a b with
      | some v => m.goOn (m.frame.define dest v)
      | none => m.fail (.remainderByZero m.frame.function.name)
  | .neg dest operand => m.withValue operand fun v => m.goOn (m.frame.define dest (-v))
  | .icmp dest pred lhs rhs =>
    m.withValue lhs fun a => m.withValue rhs fun b => m.goOn (m.frame.define dest (pred.eval a b))
  | .zext dest operand => m.withValue operand fun v => m.goOn (m.frame.define dest (v &&& 1))
  | .call dest callee args =>
    match m.frame.evalAll args with
    | .error e => m.fail e
    | .ok values =>
      match p.enter limits.maxDepth.toNat m.active callee values with
      | .error e => .halted (.error e) m
      | .ok (.printed v) => (m.print v).goOn (m.frame.define dest 0)
      | .ok (.entered fr) =>
        .running { m with
          frame := fr, callers := (dest, m.frame) :: m.callers, active := m.active + 1 }

/-- Go to a block. -/
def jump (m : Machine) (target : BlockId) : Step :=
  match m.frame.function.block? target with
  | some b => m.goOn (m.frame.jump b)
  | none => m.lost

/-- Return a value to the caller, or out of the run. -/
def ret (m : Machine) (v : Int32) : Step :=
  match m.callers with
  | [] => .halted (.ok v) m
  | (dest, fr) :: callers =>
    .running { m with frame := fr.define dest v, callers, active := m.active - 1 }

/-- Execute the end of the current block. -/
def leave (m : Machine) : Step :=
  match m.frame.block.terminator with
  | none => m.fail (.missingTerminator m.frame.function.name m.frame.block.label)
  | some (.ret value) => m.withValue value m.ret
  | some (.br target) => m.jump target
  | some (.condBr cond thenBlock elseBlock) =>
    m.withValue cond fun v => m.jump (if v ≠ 0 then thenBlock else elseBlock)

/-- Take one step, and count it. -/
def advance (p : Program) (limits : ExecOptions) (m : Machine) : Step :=
  let m := { m with steps := m.steps + 1 }
  match m.frame.rest with
  | [] => m.leave
  | op :: rest =>
    let noted :=
      if limits.trace then m.note (.opExecuted m.frame.function.name m.frame.block.label op) else m
    { noted with frame := { noted.frame with rest } }.execute p limits op

/-- The machine that executes the first of the operations that are still to
    come: the step is counted and noted. -/
def fetched (m : Machine) (limits : ExecOptions) (op : Op) (rest : List Op) : Machine where
  frame := { m.frame with rest }
  callers := m.callers
  active := m.active
  steps := m.steps + 1
  output := m.output
  log :=
    if limits.trace then m.log.push (.opExecuted m.frame.function.name m.frame.block.label op)
    else m.log

theorem fetched_eval {limits : ExecOptions} (m : Machine) (op : Op) (rest : List Op) (v : Value) :
    (m.fetched limits op rest).frame.eval v = m.frame.eval v := by
  cases v <;> rfl

theorem fetched_evalAll {limits : ExecOptions} (m : Machine) (op : Op) (rest : List Op)
    (vs : List Value) :
    (m.fetched limits op rest).frame.evalAll vs = m.frame.evalAll vs :=
  congrArg (vs.mapM ·) (funext (fetched_eval m op rest))

theorem advance_cons {m : Machine} {op : Op} {rest : List Op} (h : m.frame.rest = op :: rest)
    (p : Program) (limits : ExecOptions) :
    m.advance p limits = (m.fetched limits op rest).execute p limits op := by
  unfold advance
  simp only [h, fetched, note]
  cases limits.trace <;> rfl

theorem advance_nil {m : Machine} (h : m.frame.rest = []) (p : Program) (limits : ExecOptions) :
    m.advance p limits = { m with steps := m.steps + 1 }.leave := by
  unfold advance
  simp only [h]

/-! ### Counting -/

section
variable {p : Program} {limits : ExecOptions} {m m' : Machine}

theorem withValue_running {v : Value} {next : Int32 → Step} (h : m.withValue v next = .running m') :
    ∃ n, next n = .running m' := by
  unfold withValue at h
  split at h
  · exact ⟨_, h⟩
  · cases h

theorem execute_running {op : Op} (h : m.execute p limits op = .running m') :
    m'.steps = m.steps := by
  cases op with
  | load dest slot =>
    simp only [execute] at h
    split at h <;> cases h
    rfl
  | store value slot =>
    obtain ⟨v, hv⟩ := withValue_running h
    split at hv <;> cases hv
    rfl
  | binary dest op ty lhs rhs =>
    obtain ⟨a, ha⟩ := withValue_running h
    obtain ⟨b, hb⟩ := withValue_running ha
    split at hb <;> cases hb
    rfl
  | neg dest operand =>
    obtain ⟨v, hv⟩ := withValue_running h
    cases hv
    rfl
  | icmp dest pred lhs rhs =>
    obtain ⟨a, ha⟩ := withValue_running h
    obtain ⟨b, hb⟩ := withValue_running ha
    cases hb
    rfl
  | zext dest operand =>
    obtain ⟨v, hv⟩ := withValue_running h
    cases hv
    rfl
  | call dest callee args =>
    simp only [execute] at h
    split at h
    · cases h
    · split at h <;> cases h <;> rfl

theorem jump_running {target : BlockId} (h : m.jump target = .running m') :
    m'.steps = m.steps := by
  unfold jump at h
  split at h <;> cases h
  rfl

theorem leave_running (h : m.leave = .running m') : m'.steps = m.steps := by
  unfold leave at h
  split at h
  · cases h
  · obtain ⟨v, hv⟩ := withValue_running h
    unfold ret at hv
    split at hv <;> cases hv
    rfl
  · exact jump_running h
  · obtain ⟨v, hv⟩ := withValue_running h
    exact jump_running hv

/-- Every step is counted. -/
theorem steps_of_running (h : m.advance p limits = .running m') : m'.steps = m.steps + 1 := by
  cases hrest : m.frame.rest with
  | nil =>
    rw [advance_nil hrest] at h
    exact leave_running h
  | cons op rest =>
    rw [advance_cons hrest] at h
    exact execute_running h

end

/-- One turn of the loop: a step is counted, and the run is given up if it is one too
    many. The count is kept in a word, so a step that does not fit in cannot be counted. -/
def turn (p : Program) (limits : ExecOptions) (m : Machine) : Step :=
  if m.steps.toNat + 1 = UInt64.size then .halted (.error .overflow) m
  else if limits.maxSteps < m.steps + 1 then
    .halted (.error (.error (.stepLimit limits.maxSteps.toNat))) { m with steps := m.steps + 1 }
  else m.advance p limits

theorem toNat_succ {w : UInt64} (h : w.toNat + 1 < UInt64.size) : (w + 1).toNat = w.toNat + 1 := by
  rw [UInt64.toNat_add]
  exact Nat.mod_eq_of_lt h

section
variable {p : Program} {limits : ExecOptions} {m m' : Machine}

theorem count_of_running (h : m.advance p limits = .running m')
    (hroom : m.steps.toNat + 1 < UInt64.size) : m'.steps.toNat = m.steps.toNat + 1 := by
  rw [steps_of_running h, toNat_succ hroom]

/-- The count goes up in every turn. -/
theorem count_of_turn (h : m.turn p limits = .running m') :
    m'.steps.toNat = m.steps.toNat + 1 := by
  have hlt := m.steps.toNat_lt_size
  unfold turn at h
  split at h
  · cases h
  · split at h
    · cases h
    · exact count_of_running h (by omega)

/-- Every turn takes from the room that is left in the word. -/
theorem room_of_turn (h : m.turn p limits = .running m') :
    UInt64.size - m'.steps.toNat < UInt64.size - m.steps.toNat := by
  have hcount := count_of_turn h
  have hlt := m'.steps.toNat_lt_size
  omega

end

/-- Take turns until the run ends. -/
def run (p : Program) (limits : ExecOptions) (m : Machine) :
    Except (Abort ExecError) Int32 × Machine :=
  match h : m.turn p limits with
  | .running m' =>
    have := room_of_turn h
    run p limits m'
  | .halted result m' => (result, m')
termination_by UInt64.size - m.steps.toNat

end Machine

/-! ## Runs of a program -/

/-- What a run computes: the value returned, everything printed in order, and
    the number of steps. -/
structure Outcome where
  value : Int32
  output : List Int32
  steps : Nat
deriving DecidableEq

namespace Program

/-- Call the function of a name within the limits, and note what happens. -/
def runNoting (p : Program) (name : String) (args : List Int32) (limits : ExecOptions) :
    Except (Abort ExecError) Outcome × Array Event :=
  match p.lookup name with
  | none => (.error (.error (.unregistered name)), #[])
  | some id =>
    match p.enter limits.maxDepth.toNat 0 id args with
    | .error e => (.error e, #[])
    | .ok (.printed v) => (.ok ⟨0, [v], 0⟩, #[.valuePrinted v])
    | .ok (.entered fr) =>
      let (result, m) := Machine.run p limits { frame := fr }
      (result.map fun v => ⟨v, m.output.toList, m.steps.toNat⟩, m.log)

/-- Call the function of a name. -/
def run (p : Program) (name : String) (args : List Int32) (limits : ExecOptions) :
    Except (Abort ExecError) Outcome :=
  (p.runNoting name args limits).1

end Program

end Blockform
