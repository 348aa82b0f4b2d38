-- SUMMARY: What one step of the machine does (`Machine.Does`), why one stops (`Machine.Stops`), and the machines that a run visits (`Program.Visits`).
import Blockform.Proofs.Reaching

/-!
# Steps

Everything that a step of the machine can do is listed once, in `Machine.Does`:
the ways to go on with what the machine looks like afterwards, and the ways to
stop (`Machine.Stops`). A proof about runs is a case analysis of this list, and
does not open the machine again. What each step keeps, a whole run keeps
(`Program.Visits.invariant`). The ways for a run to end are a list as well
(`Program.Ends`).
-/

namespace Blockform

/-! ## Frames -/

/-- The values that operations compute in a frame, calls aside. -/
inductive Frame.Computes (fr : Frame) : Op → Int32 → Prop where
  | load {dest : InstId} {slot : SlotId} {v : Int32} (h : fr.slots[slot.val]? = some v) :
    Computes fr (.load dest slot) v
  | binary {dest : InstId} {op : BinaryOp} {ty : Ty} {lhs rhs : Value} {a b v : Int32}
    (hl : fr.eval lhs = .ok a) (hr : fr.eval rhs = .ok b) (h : op.eval a b = some v) :
    Computes fr (.binary dest op ty lhs rhs) v
  | neg {dest : InstId} {operand : Value} {v : Int32} (h : fr.eval operand = .ok v) :
    Computes fr (.neg dest operand) (-v)
  | icmp {dest : InstId} {pred : Predicate} {lhs rhs : Value} {a b : Int32}
    (hl : fr.eval lhs = .ok a) (hr : fr.eval rhs = .ok b) :
    Computes fr (.icmp dest pred lhs rhs) (pred.eval a b)
  | zext {dest : InstId} {operand : Value} {v : Int32} (h : fr.eval operand = .ok v) :
    Computes fr (.zext dest operand) (v &&& 1)

/-- If operands have no values, one of them is at fault. -/
theorem Frame.evalAll_eq_error {fr : Frame} {vs : List Value} {e : ExecError}
    (h : fr.evalAll vs = .error e) : ∃ v ∈ vs, fr.eval v = .error e := by
  unfold evalAll at h
  induction vs with
  | nil => cases h
  | cons v vs ih =>
    rw [List.mapM_cons] at h
    cases hv : fr.eval v with
    | error e' =>
      rw [hv] at h
      cases h
      exact ⟨v, List.mem_cons_self .., hv⟩
    | ok n =>
      cases hrest : vs.mapM fr.eval with
      | error e' =>
        rw [hv, hrest] at h
        cases h
        obtain ⟨w, hw, he⟩ := ih hrest
        exact ⟨w, List.mem_cons_of_mem _ hw, he⟩
      | ok ns =>
        rw [hv, hrest] at h
        cases h

/-! ## Calls -/

namespace Program

variable {p : Program} {maxDepth active : Nat} {id : FunctionId} {args : List Int32}

/-- A function of the host has no body to enter. -/
theorem host_not_entered (name : String) (args : List Int32) (fr : Frame) :
    ((callHost name args).map Entry.printed).mapError Abort.error ≠ .ok (.entered fr) := by
  intro h
  cases hhost : callHost name args <;> rw [hhost] at h <;> cases h

/-- A function is entered if it has a body that takes so many arguments, and if
    one more body may be active. -/
theorem enter_eq_entered {fr : Frame} :
    p.enter maxDepth active id args = .ok (.entered fr) ↔
      ∃ f entry rest, p.function? id = some f ∧ f.blocks = entry :: rest ∧
        args.length = f.params.length ∧ active < maxDepth ∧ fr = .start f args entry := by
  constructor
  · intro h
    cases hf : p.function? id with
    | none => simp [enter, hf] at h
    | some f =>
      cases hblocks : f.blocks with
      | nil =>
        rw [enter_declaration hf hblocks] at h
        exact absurd h (host_not_entered f.name args fr)
      | cons entry rest =>
        rw [enter_body hf hblocks] at h
        split at h
        · cases h
        · rename_i hargs
          split at h
          · cases h
          · rename_i hdepth
            cases h
            exact ⟨f, entry, rest, rfl, hblocks, Decidable.not_not.mp hargs,
              Nat.lt_of_not_le hdepth, rfl⟩
  · rintro ⟨f, entry, rest, hf, hblocks, hargs, hdepth, rfl⟩
    rw [enter_body hf hblocks]
    simp [hargs, hdepth]

/-- Why a call fails: it is not one of a running program's errors, but for the
    limit on active bodies. -/
theorem enter_error_kind {e : ExecError}
    (h : p.enter maxDepth active id args = .error (.error e)) :
    e.kind = .unknownFunction ∨ e.kind = .arityMismatch ∨ e.kind = .depthLimit := by
  cases hf : p.function? id with
  | none => simp [enter, hf] at h
  | some f =>
    cases hblocks : f.blocks with
    | nil =>
      rw [enter_declaration hf hblocks] at h
      unfold callHost at h
      split at h
      · split at h
        · cases h
        · cases h
          exact .inr (.inl rfl)
      · cases h
        exact .inl rfl
    | cons entry rest =>
      rw [enter_body hf hblocks] at h
      split at h
      · cases h
        exact .inr (.inl rfl)
      · split at h
        · cases h
          exact .inr (.inr rfl)
        · cases h

/-- A call counts nothing that could be too large. -/
theorem enter_ne_overflow : p.enter maxDepth active id args ≠ .error .overflow := by
  intro h
  cases hf : p.function? id with
  | none => simp [enter, hf] at h
  | some f =>
    cases hblocks : f.blocks with
    | nil =>
      rw [enter_declaration hf hblocks] at h
      cases hhost : callHost f.name args <;> rw [hhost] at h <;> cases h
    | cons entry rest =>
      rw [enter_body hf hblocks] at h
      split at h
      · cases h
      · split at h <;> cases h

end Program

/-! ## Steps -/

namespace Machine

/-- The active frame, and those that wait. -/
def frames (m : Machine) : List Frame := m.frame :: m.callers.map Prod.snd

/-- Why a machine stops with an error. -/
inductive Stops (p : Program) (limits : ExecOptions) (m : Machine) : Abort ExecError → Prop where
  | operand {op : Op} {rest : List Op} {v : Value} {e : ExecError}
    (hrest : m.frame.rest = op :: rest) (hv : v ∈ op.operands) (he : m.frame.eval v = .error e) :
    Stops p limits m (.error e)
  | lastOperand {t : Terminator} {v : Value} {e : ExecError} (hrest : m.frame.rest = [])
    (ht : m.frame.block.terminator = some t) (hv : v ∈ t.operands)
    (he : m.frame.eval v = .error e) : Stops p limits m (.error e)
  | remainder : Stops p limits m (.error (.remainderByZero m.frame.function.name))
  | call {dest : InstId} {callee : FunctionId} {args : List Value} {rest : List Op}
    {values : List Int32} {e : Abort ExecError}
    (hrest : m.frame.rest = .call dest callee args :: rest)
    (hargs : m.frame.evalAll args = .ok values)
    (henter : p.enter limits.maxDepth.toNat m.active callee values = .error e) :
    Stops p limits m e
  | unended (hrest : m.frame.rest = []) (ht : m.frame.block.terminator = none) :
    Stops p limits m
      (.error (.missingTerminator m.frame.function.name m.frame.block.label))
  | lost : Stops p limits m .noEntry

/-- What a step does: it executes the next operation of the block or, behind the
    last one, the terminator. -/
inductive Does (p : Program) (limits : ExecOptions) (m : Machine) : Step → Prop where
  | compute {op : Op} {rest : List Op} {dest : InstId} {v : Int32}
    (hrest : m.frame.rest = op :: rest) (hdest : op.dest = some dest)
    (hv : m.frame.Computes op v) :
    Does p limits m ((m.fetched limits op rest).goOn ({ m.frame with rest }.define dest v))
  | store {value : Value} {slot : SlotId} {rest : List Op} {v : Int32}
    (hrest : m.frame.rest = .store value slot :: rest) (hv : m.frame.eval value = .ok v) :
    Does p limits m ((m.fetched limits (.store value slot) rest).goOn
      { m.frame with rest, slots := m.frame.slots.set slot.val v })
  | print {dest : InstId} {callee : FunctionId} {args : List Value} {rest : List Op}
    {values : List Int32} {v : Int32} (hrest : m.frame.rest = .call dest callee args :: rest)
    (hargs : m.frame.evalAll args = .ok values)
    (henter : p.enter limits.maxDepth.toNat m.active callee values = .ok (.printed v)) :
    Does p limits m (((m.fetched limits (.call dest callee args) rest).print v).goOn
      ({ m.frame with rest }.define dest 0))
  | enter {dest : InstId} {callee : FunctionId} {args : List Value} {rest : List Op}
    {values : List Int32} {fr : Frame} (hrest : m.frame.rest = .call dest callee args :: rest)
    (hargs : m.frame.evalAll args = .ok values)
    (henter : p.enter limits.maxDepth.toNat m.active callee values = .ok (.entered fr)) :
    Does p limits m (.running { m.fetched limits (.call dest callee args) rest with
      frame := fr, callers := (dest, { m.frame with rest }) :: m.callers, active := m.active + 1 })
  | jump {t : Terminator} {target : BlockId} {b : Block} (hrest : m.frame.rest = [])
    (ht : m.frame.block.terminator = some t) (htarget : target ∈ t.successors)
    (hb : m.frame.function.block? target = some b) :
    Does p limits m ({ m with steps := m.steps + 1 }.goOn (m.frame.jump b))
  | ret {value : Value} {v : Int32} {dest : InstId} {fr : Frame} {callers : List (InstId × Frame)}
    (hrest : m.frame.rest = []) (ht : m.frame.block.terminator = some (.ret value))
    (hv : m.frame.eval value = .ok v) (hcallers : m.callers = (dest, fr) :: callers) :
    Does p limits m (.running { m with
      steps := m.steps + 1, frame := fr.define dest v, callers, active := m.active - 1 })
  | finish {value : Value} {v : Int32} (hrest : m.frame.rest = [])
    (ht : m.frame.block.terminator = some (.ret value)) (hv : m.frame.eval value = .ok v)
    (hcallers : m.callers = []) :
    Does p limits m (.halted (.ok v) { m with steps := m.steps + 1 })
  | stop {e : Abort ExecError} {m' : Machine} (h : m.Stops p limits e) :
    Does p limits m (.halted (.error e) m')

variable {p : Program} {limits : ExecOptions} {m m' : Machine} {op : Op} {rest : List Op}
  {t : Terminator} {v : Value} {next : Int32 → Step}

/-- An operand has a value to go on with, or stops the machine. -/
theorem operand_does (hrest : m.frame.rest = op :: rest) (hv : v ∈ op.operands)
    (hnext : ∀ n, m.frame.eval v = .ok n → m.Does p limits (next n)) :
    m.Does p limits ((m.fetched limits op rest).withValue v next) := by
  unfold withValue
  rw [fetched_eval]
  cases heval : m.frame.eval v with
  | ok n => exact hnext n heval
  | error e => exact .stop (.operand hrest hv heval)

theorem lastOperand_does (hrest : m.frame.rest = []) (ht : m.frame.block.terminator = some t)
    (hv : v ∈ t.operands) (hnext : ∀ n, m.frame.eval v = .ok n → m.Does p limits (next n)) :
    m.Does p limits ({ m with steps := m.steps + 1 }.withValue v next) := by
  unfold withValue
  cases heval : m.frame.eval v with
  | ok n => exact hnext n heval
  | error e => exact .stop (.lastOperand hrest ht hv heval)

theorem execute_does (hrest : m.frame.rest = op :: rest) :
    m.Does p limits ((m.fetched limits op rest).execute p limits op) := by
  cases op with
  | load dest slot =>
    cases hslot : m.frame.slots[slot.val]? with
    | some v =>
      simp only [execute, fetched, hslot]
      exact .compute hrest rfl (.load hslot)
    | none =>
      simp only [execute, fetched, hslot]
      exact .stop .lost
  | store value slot =>
    apply operand_does hrest (by simp [Op.operands])
    intro v hv
    split
    · exact .store hrest hv
    · exact .stop .lost
  | binary dest op ty lhs rhs =>
    apply operand_does hrest (by simp [Op.operands])
    intro a ha
    apply operand_does hrest (by simp [Op.operands])
    intro b hb
    cases h : op.eval a b with
    | some v => exact .compute hrest rfl (.binary ha hb h)
    | none => exact .stop .remainder
  | neg dest operand =>
    apply operand_does hrest (by simp [Op.operands])
    intro v hv
    exact .compute hrest rfl (.neg hv)
  | icmp dest pred lhs rhs =>
    apply operand_does hrest (by simp [Op.operands])
    intro a ha
    apply operand_does hrest (by simp [Op.operands])
    intro b hb
    exact .compute hrest rfl (.icmp ha hb)
  | zext dest operand =>
    apply operand_does hrest (by simp [Op.operands])
    intro v hv
    exact .compute hrest rfl (.zext hv)
  | call dest callee args =>
    unfold execute
    simp only [fetched_evalAll]
    cases hargs : m.frame.evalAll args with
    | error e =>
      obtain ⟨v, hv, he⟩ := Frame.evalAll_eq_error hargs
      exact .stop (.operand hrest hv he)
    | ok values =>
      have hactive : (m.fetched limits (.call dest callee args) rest).active = m.active := rfl
      simp only [hactive]
      cases henter : p.enter limits.maxDepth.toNat m.active callee values with
      | error e => exact .stop (.call hrest hargs henter)
      | ok entry =>
        cases entry with
        | printed v => exact .print hrest hargs henter
        | entered fr => exact .enter hrest hargs henter

theorem jump_does (hrest : m.frame.rest = []) (ht : m.frame.block.terminator = some t)
    {target : BlockId} (htarget : target ∈ t.successors) :
    m.Does p limits ({ m with steps := m.steps + 1 }.jump target) := by
  unfold jump
  cases hb : m.frame.function.block? target with
  | some b => exact .jump hrest ht htarget hb
  | none => exact .stop .lost

theorem leave_does (hrest : m.frame.rest = []) :
    m.Does p limits { m with steps := m.steps + 1 }.leave := by
  unfold leave
  cases ht : m.frame.block.terminator with
  | none => exact .stop (.unended hrest ht)
  | some t =>
    cases t with
    | ret value =>
      apply lastOperand_does hrest ht (by simp [Terminator.operands])
      intro v hv
      unfold Machine.ret
      cases hcallers : m.callers with
      | nil =>
        have hfinish : m.Does p limits _ := .finish hrest ht hv hcallers
        rwa [hcallers] at hfinish
      | cons c callers => exact .ret hrest ht hv hcallers
    | br target => exact jump_does hrest ht (by simp [Terminator.successors])
    | condBr cond thenBlock elseBlock =>
      apply lastOperand_does hrest ht (by simp [Terminator.operands])
      intro n hn
      apply jump_does hrest ht
      split <;> simp [Terminator.successors]

/-- A step does nothing that is not on the list. -/
theorem advance_does (p : Program) (limits : ExecOptions) (m : Machine) :
    m.Does p limits (m.advance p limits) := by
  cases hrest : m.frame.rest with
  | nil =>
    rw [advance_nil hrest]
    exact leave_does hrest
  | cons op rest =>
    rw [advance_cons hrest]
    exact execute_does hrest

theorem does_running (h : m.advance p limits = .running m') : m.Does p limits (.running m') :=
  h ▸ advance_does p limits m

theorem stops_of_halted {e : Abort ExecError} (h : m.advance p limits = .halted (.error e) m') :
    m.Stops p limits e := by
  have hdoes := advance_does p limits m
  rw [h] at hdoes
  cases hdoes with
  | stop hstops => exact hstops

/-! ## Halting -/

section
variable {r : Except (Abort ExecError) Int32}

theorem withValue_halted {v : Value} {next : Int32 → Step}
    (hnext : ∀ n, next n = .halted r m' → m' = m) (h : m.withValue v next = .halted r m') :
    m' = m := by
  unfold withValue at h
  split at h
  · exact hnext _ h
  · cases h
    rfl

/-- What halts a machine leaves it as it was when the operation was fetched. -/
theorem execute_halted {op : Op} (h : m.execute p limits op = .halted r m') : m' = m := by
  cases op with
  | load dest slot =>
    simp only [execute] at h
    split at h <;> cases h
    rfl
  | store value slot =>
    refine withValue_halted (fun n hn => ?_) h
    split at hn <;> cases hn
    rfl
  | binary dest op ty lhs rhs =>
    refine withValue_halted (fun a ha => withValue_halted (fun b hb => ?_) ha) h
    split at hb <;> cases hb
    rfl
  | neg dest operand =>
    refine withValue_halted (fun v hv => ?_) h
    cases hv
  | icmp dest pred lhs rhs =>
    refine withValue_halted (fun a ha => withValue_halted (fun b hb => ?_) ha) h
    cases hb
  | zext dest operand =>
    refine withValue_halted (fun v hv => ?_) h
    cases hv
  | call dest callee args =>
    simp only [execute] at h
    split at h
    · cases h
      rfl
    · split at h <;> cases h
      rfl

theorem jump_halted {target : BlockId} (h : m.jump target = .halted r m') : m' = m := by
  unfold jump at h
  split at h <;> cases h
  rfl

theorem leave_halted (h : m.leave = .halted r m') : m' = m := by
  unfold leave at h
  split at h
  · cases h
    rfl
  · refine withValue_halted (fun v hv => ?_) h
    unfold ret at hv
    split at hv <;> cases hv
    rfl
  · exact jump_halted h
  · exact withValue_halted (fun v => jump_halted) h

/-- The step that halts a machine is counted like any other. -/
theorem steps_of_halted (h : m.advance p limits = .halted r m') : m'.steps = m.steps + 1 := by
  cases hrest : m.frame.rest with
  | nil =>
    rw [advance_nil hrest] at h
    rw [leave_halted h]
  | cons op rest =>
    rw [advance_cons hrest] at h
    rw [execute_halted h]
    rfl

end

end Machine

/-! ## Runs of a program -/

namespace Program

variable {p : Program} {name : String} {args : List Int32} {limits : ExecOptions} {m : Machine}

/-- The machines that a call of the function of a name goes through, as far as it
    may run. -/
inductive Visits (p : Program) (name : String) (args : List Int32) (limits : ExecOptions) :
    Machine → Prop where
  | mk {id : FunctionId} {fr : Frame} {n : Nat} {m : Machine} (hid : p.lookup name = some id)
    (henter : p.enter limits.maxDepth.toNat 0 id args = .ok (.entered fr))
    (hreaches : Machine.Reaches p limits n { frame := fr } m) : Visits p name args limits m

/-- What holds of a call that starts, and is kept by every step, holds of every
    machine that is visited. -/
theorem Visits.invariant {I : Machine → Prop} (h : p.Visits name args limits m)
    (hstart : ∀ f entry rest, f ∈ p.functions → f.blocks = entry :: rest →
      args.length = f.params.length → I { frame := .start f args entry })
    (hstep : ∀ m m', I m → m.advance p limits = .running m' → I m') : I m := by
  cases h with
  | mk hid henter hreaches =>
    obtain ⟨f, entry, rest, hf, hblocks, hargs, -, rfl⟩ := enter_eq_entered.mp henter
    exact hreaches.invariant hstep (hstart f entry rest (List.mem_of_getElem? hf) hblocks hargs)

/-- How a run of the function of a name ends: before it starts, with the machine
    that halts, or when it is given up. -/
inductive Ends (p : Program) (name : String) (args : List Int32) (limits : ExecOptions) :
    Except (Abort ExecError) Outcome → Prop where
  | unknown (hid : p.lookup name = none) :
    Ends p name args limits (.error (.error (.unregistered name)))
  | refused {id : FunctionId} {e : Abort ExecError} (hid : p.lookup name = some id)
    (henter : p.enter limits.maxDepth.toNat 0 id args = .error e) :
    Ends p name args limits (.error e)
  | printed {id : FunctionId} {v : Int32} (hid : p.lookup name = some id)
    (henter : p.enter limits.maxDepth.toNat 0 id args = .ok (.printed v)) :
    Ends p name args limits (.ok ⟨0, [v], 0⟩)
  | returned {id : FunctionId} {fr : Frame} {n : Nat} {m m' : Machine} {v : Int32}
    (hid : p.lookup name = some id)
    (henter : p.enter limits.maxDepth.toNat 0 id args = .ok (.entered fr))
    (hsteps : n < limits.maxSteps.toNat) (hreaches : Machine.Reaches p limits n { frame := fr } m)
    (hadvance : m.advance p limits = .halted (.ok v) m') :
    Ends p name args limits (.ok ⟨v, m'.output.toList, n + 1⟩)
  | failed {id : FunctionId} {fr : Frame} {n : Nat} {m m' : Machine} {e : Abort ExecError}
    (hid : p.lookup name = some id)
    (henter : p.enter limits.maxDepth.toNat 0 id args = .ok (.entered fr))
    (hsteps : n < limits.maxSteps.toNat) (hreaches : Machine.Reaches p limits n { frame := fr } m)
    (hadvance : m.advance p limits = .halted (.error e) m') : Ends p name args limits (.error e)
  | givenUp {id : FunctionId} {fr : Frame} {m : Machine} (hid : p.lookup name = some id)
    (henter : p.enter limits.maxDepth.toNat 0 id args = .ok (.entered fr))
    (hreaches : Machine.Reaches p limits limits.maxSteps.toNat { frame := fr } m)
    (hroom : limits.maxSteps.toNat + 1 < UInt64.size) :
    Ends p name args limits (.error (.error (.stepLimit limits.maxSteps.toNat)))
  | overrun {id : FunctionId} {fr : Frame} {m : Machine} (hid : p.lookup name = some id)
    (henter : p.enter limits.maxDepth.toNat 0 id args = .ok (.entered fr))
    (hreaches : Machine.Reaches p limits limits.maxSteps.toNat { frame := fr } m)
    (hfull : limits.maxSteps.toNat + 1 = UInt64.size) :
    Ends p name args limits (.error .overflow)

theorem run_of_entered {id : FunctionId} {fr : Frame} (hid : p.lookup name = some id)
    (henter : p.enter limits.maxDepth.toNat 0 id args = .ok (.entered fr)) :
    p.run name args limits = outcomeOf (Machine.run p limits { frame := fr }) := by
  simp only [run_of_opening, opening, hid, henter]

/-- Where the first machine halts after a number of steps, the run ends with what it
    halts with. -/
theorem run_of_halting {id : FunctionId} {fr : Frame} {n : Nat} {m' : Machine}
    {r : Except (Abort ExecError) Int32} (hid : p.lookup name = some id)
    (henter : p.enter limits.maxDepth.toNat 0 id args = .ok (.entered fr))
    (hsteps : n < limits.maxSteps.toNat) (hreaches : Machine.Reaches p limits n { frame := fr } m)
    (hadvance : m.advance p limits = .halted r m') :
    p.run name args limits = r.map fun v => ⟨v, m'.output.toList, n + 1⟩ := by
  have hlt := limits.maxSteps.toNat_lt_size
  have hstart : ({ frame := fr } : Machine).steps.toNat = 0 := rfl
  have hcount : m.steps.toNat = n := by
    rw [hreaches.steps (by omega), hstart, Nat.zero_add]
  have hcount' : m'.steps.toNat = n + 1 := by
    rw [Machine.steps_of_halted hadvance, Machine.toNat_succ (by omega), hcount]
  rw [run_of_entered hid henter, Machine.run_of_reaches hreaches (by omega),
    Machine.run_of_halted hadvance (by omega), outcomeOf, hcount']

theorem run_of_lasting {id : FunctionId} {fr : Frame} (hid : p.lookup name = some id)
    (henter : p.enter limits.maxDepth.toNat 0 id args = .ok (.entered fr))
    (hreaches : Machine.Reaches p limits limits.maxSteps.toNat { frame := fr } m) :
    p.run name args limits = .error limits.exhausted := by
  have hlt := limits.maxSteps.toNat_lt_size
  have hstart : ({ frame := fr } : Machine).steps.toNat = 0 := rfl
  have hcount := hreaches.steps (by omega)
  rw [run_of_entered hid henter, Machine.run_of_reaches hreaches (by omega), outcomeOf,
    Machine.run_of_spent (by omega)]
  rfl

theorem run_ends (p : Program) (name : String) (args : List Int32) (limits : ExecOptions) :
    p.Ends name args limits (p.run name args limits) := by
  cases hid : p.lookup name with
  | none =>
    simp only [run_of_opening, opening, hid]
    exact .unknown hid
  | some id =>
    cases henter : p.enter limits.maxDepth.toNat 0 id args with
    | error e =>
      simp only [run_of_opening, opening, hid, henter]
      exact .refused hid henter
    | ok entry =>
      cases entry with
      | printed v =>
        simp only [run_of_opening, opening, hid, henter]
        exact .printed hid henter
      | entered fr =>
        rcases Machine.run_cases p limits (m := { frame := fr }) (Nat.zero_add _) with
          ⟨m, hreaches, -⟩ | ⟨n, m, r, m', hsteps, hreaches, hadvance, -⟩
        · rw [run_of_lasting hid henter hreaches, ExecOptions.exhausted]
          split
          · exact .overrun hid henter hreaches ‹_›
          · have hlt := limits.maxSteps.toNat_lt_size
            exact .givenUp hid henter hreaches (by omega)
        · rw [run_of_halting hid henter hsteps hreaches hadvance]
          cases r with
          | ok v => exact .returned hid henter hsteps hreaches hadvance
          | error e => exact .failed hid henter hsteps hreaches hadvance

/-- A run ends in one way. -/
theorem Ends.run_eq {r : Except (Abort ExecError) Outcome} (h : p.Ends name args limits r) :
    p.run name args limits = r := by
  cases h with
  | unknown hid => simp only [run_of_opening, opening, hid]
  | refused hid henter => simp only [run_of_opening, opening, hid, henter]
  | printed hid henter => simp only [run_of_opening, opening, hid, henter]
  | returned hid henter hsteps hreaches hadvance =>
    exact run_of_halting hid henter hsteps hreaches hadvance
  | failed hid henter hsteps hreaches hadvance =>
    exact run_of_halting hid henter hsteps hreaches hadvance
  | givenUp hid henter hreaches hroom =>
    rw [run_of_lasting hid henter hreaches, ExecOptions.exhausted_of_lt hroom]
  | overrun hid henter hreaches hfull =>
    rw [run_of_lasting hid henter hreaches, ExecOptions.exhausted, if_pos hfull]

/-- The count of steps ends a run only if the limit on them is the largest number of the
    word. -/
theorem overflow_of_run (h : p.run name args limits = .error .overflow) :
    limits.maxSteps.toNat + 1 = UInt64.size := by
  have hends := p.run_ends name args limits
  rw [h] at hends
  cases hends with
  | refused _ henter => exact absurd henter enter_ne_overflow
  | failed _ _ _ _ hadvance =>
    cases Machine.stops_of_halted hadvance with
    | call _ _ henter => exact absurd henter enter_ne_overflow
  | overrun _ _ _ hfull => exact hfull

end Program

end Blockform
