-- SUMMARY: Runs of one program under different limits: the steps and the depth that a run needs, and what it shows without them.
import Blockform.Proofs.Safety
import Blockform.Proofs.Stepping

/-!
# Limits

The limits of a run cut it off and have no other effect. Runs of one call under
different limits go through the same machines, as a step depends on the limits
only where it enters a function (`Machine.advance_depth`). Therefore a run has a
depth (`Machine.Reaches.depth`): under limits that allow it, the machines are the
same; under limits that do not, some call on the way is one too many.
-/

namespace Blockform

/-! ## Calls -/

/-- A call enters a function if the depth allows it, or its result does not depend
    on the depth at all. -/
theorem Program.enter_depth (p : Program) (id : FunctionId) (args : List Int32) :
    (∃ r, (∀ fr, r ≠ .ok (.entered fr)) ∧ ∀ maxDepth active, p.enter maxDepth active id args = r) ∨
    ∃ name fr, ∀ maxDepth active, p.enter maxDepth active id args =
      if maxDepth ≤ active then .error (.error (.depthLimit maxDepth name))
      else .ok (.entered fr) := by
  cases hf : p.function? id with
  | none =>
    refine .inl ⟨.error .noEntry, fun fr hfr => ?_, fun _ _ => by simp only [enter, hf]⟩
    cases hfr
  | some f =>
    cases hblocks : f.blocks with
    | nil =>
      exact .inl ⟨_, host_not_entered f.name args,
        fun d a => enter_declaration hf hblocks d a args⟩
    | cons entry rest =>
      by_cases hargs : args.length = f.params.length
      · refine .inr ⟨f.name, .start f args entry, fun maxDepth active => ?_⟩
        simp [enter_body hf hblocks, hargs]
      · refine .inl ⟨.error (.error (.arity f.name f.params.length args.length)), ?_, ?_⟩
        · intro fr hfr
          cases hfr
        · intro maxDepth active
          simp [enter_body hf hblocks, hargs]

/-- A call that does not enter a function, and is not refused for its depth, ends
    so at any depth. -/
theorem Program.enter_settled {p : Program} {maxDepth active : Nat} {id : FunctionId}
    {args : List Int32} {r : Except (Abort ExecError) Entry}
    (h : p.enter maxDepth active id args = r) (hentered : ∀ fr, r ≠ .ok (.entered fr))
    (hdepth : ∀ name, r ≠ .error (.error (.depthLimit maxDepth name))) (maxDepth' active' : Nat) :
    p.enter maxDepth' active' id args = r := by
  rcases p.enter_depth id args with ⟨r', -, hsettled⟩ | ⟨name, fr, hdepends⟩
  · exact (hsettled _ _).trans ((hsettled _ _).symm.trans h)
  · rw [hdepends] at h
    split at h
    · exact absurd h.symm (hdepth name)
    · exact absurd h.symm (hentered fr)

/-- A call that enters a function does so at any depth that allows it. -/
theorem Program.enter_entered {p : Program} {maxDepth active : Nat} {id : FunctionId}
    {args : List Int32} {fr : Frame} (h : p.enter maxDepth active id args = .ok (.entered fr)) :
    active < maxDepth ∧ ∃ name, ∀ maxDepth' active', p.enter maxDepth' active' id args =
      if maxDepth' ≤ active' then .error (.error (.depthLimit maxDepth' name))
      else .ok (.entered fr) := by
  rcases p.enter_depth id args with ⟨r, hother, hsettled⟩ | ⟨name, fr', hdepends⟩
  · exact absurd ((hsettled _ _).symm.trans h) (hother fr)
  · rw [hdepends] at h
    split at h
    · cases h
    · cases h
      exact ⟨Nat.lt_of_not_le ‹_›, name, hdepends⟩

/-! ## Steps -/

namespace Machine

variable {p : Program} {limits limits' : ExecOptions} {m m' : Machine} {n : Nat}

/-- A step that does not enter a function adds no active body. -/
theorem active_of_running (h : m.advance p limits = .running m')
    (hno : ∀ dest callee args rest values fr, m.frame.rest = .call dest callee args :: rest →
      m.frame.evalAll args = .ok values →
      p.enter limits.maxDepth.toNat m.active callee values ≠ .ok (.entered fr)) :
    m'.active ≤ m.active := by
  cases does_running h with
  | enter hrest hargs henter => exact absurd henter (hno _ _ _ _ _ _ hrest hargs)
  | ret _ _ _ _ => exact Nat.sub_le ..
  | compute _ _ _ => exact Nat.le_refl _
  | store _ _ => exact Nat.le_refl _
  | print _ _ _ => exact Nat.le_refl _
  | jump _ _ _ _ => exact Nat.le_refl _

theorem fetched_trace (htrace : limits'.trace = limits.trace) (m : Machine) (op : Op)
    (rest : List Op) : m.fetched limits' op rest = m.fetched limits op rest := by
  simp only [fetched, htrace]

/-- The machine is about to enter a function, unless there is one active body too
    many. -/
def Enters (p : Program) (limits : ExecOptions) (m : Machine) : Prop :=
  ∃ name m₁ m₂, m₁.active = m.active + 1 ∧ ∀ limits', limits'.trace = limits.trace →
    m.advance p limits' =
      if limits'.maxDepth.toNat ≤ m.active then
        .halted (.error (.error (.depthLimit limits'.maxDepth.toNat name))) m₂
      else .running m₁

/-- A step depends on the limits only if it enters a function. -/
theorem advance_depth (p : Program) (limits : ExecOptions) (m : Machine) :
    m.Enters p limits ∨
    (∀ limits', limits'.trace = limits.trace → m.advance p limits' = m.advance p limits) ∧
      ∀ m', m.advance p limits = .running m' → m'.active ≤ m.active := by
  cases hrest : m.frame.rest with
  | nil =>
    refine .inr ⟨fun limits' _ => ?_, fun m' h => active_of_running h ?_⟩
    · rw [advance_nil hrest, advance_nil hrest]
    · simp [hrest]
  | cons op rest =>
    have hadvance : ∀ limits' : ExecOptions, limits'.trace = limits.trace →
        m.advance p limits' = (m.fetched limits op rest).execute p limits' op := by
      intro limits' htrace
      rw [advance_cons hrest, fetched_trace htrace]
    cases op with
    | call dest callee args =>
      cases hargs : m.frame.evalAll args with
      | error e =>
        refine .inr ⟨fun limits' htrace => ?_, fun m' h => active_of_running h ?_⟩
        · simp only [hadvance limits' htrace, hadvance limits rfl, execute, fetched_evalAll, hargs]
        · intro _ _ _ _ _ _ hcall hvalues
          cases hrest.symm.trans hcall
          cases hargs.symm.trans hvalues
      | ok values =>
        rcases p.enter_depth callee values with ⟨r, hother, henter⟩ | ⟨name, fr, henter⟩
        · refine .inr ⟨fun limits' htrace => ?_, fun m' h => active_of_running h ?_⟩
          · simp only [hadvance limits' htrace, hadvance limits rfl, execute, fetched_evalAll,
              hargs, henter]
          · intro _ _ _ _ _ fr hcall hvalues
            cases hrest.symm.trans hcall
            cases hargs.symm.trans hvalues
            rw [henter]
            exact hother fr
        · let called := m.fetched limits (.call dest callee args) rest
          refine .inl ⟨name, { called with
            frame := fr, callers := (dest, called.frame) :: called.callers
            active := called.active + 1 }, called, rfl, fun limits' htrace => ?_⟩
          have hactive : called.active = m.active := rfl
          simp only [hadvance limits' htrace, execute, fetched_evalAll, hargs, henter]
          by_cases hdepth : limits'.maxDepth.toNat ≤ m.active
          · rw [if_pos hdepth, hactive, if_pos hdepth]
          · rw [if_neg hdepth, hactive, if_neg hdepth]
    | _ =>
      refine .inr ⟨fun limits' htrace => ?_, fun m' h => active_of_running h ?_⟩
      · rw [hadvance limits' htrace, hadvance limits rfl]
        rfl
      · simp [hrest]

/-- A machine that halts for another reason than its depth halts so under any
    limits. -/
theorem halted_of_halted {r : Except (Abort ExecError) Int32}
    (h : m.advance p limits = .halted r m') (htrace : limits'.trace = limits.trace)
    (hother : ∀ name, r ≠ .error (.error (.depthLimit limits.maxDepth.toNat name))) :
    m.advance p limits' = .halted r m' := by
  rcases m.advance_depth p limits with ⟨name, m₁, m₂, -, hadvance⟩ | ⟨hadvance, -⟩
  · rw [hadvance limits rfl] at h
    split at h
    · cases h
      exact absurd rfl (hother name)
    · cases h
  · rw [hadvance limits' htrace, h]

/-! ## Depth -/

/-- Fewer steps than a number bring the machine to a call that is one too
    many. -/
def Overflows (p : Program) (limits : ExecOptions) (n : Nat) (m : Machine) : Prop :=
  ∃ j < n, ∃ m₁ m₂ name, Reaches p limits j m m₁ ∧
    m₁.advance p limits = .halted (.error (.error (.depthLimit limits.maxDepth.toNat name))) m₂

theorem Overflows.next (hadvance : m.advance p limits = .running m')
    (h : Overflows p limits n m') : Overflows p limits (n + 1) m := by
  obtain ⟨j, hj, m₁, m₂, name, hreaches, hhalted⟩ := h
  exact ⟨j + 1, Nat.succ_lt_succ hj, m₁, m₂, name, .step hadvance hreaches, hhalted⟩

/-- Some steps need a depth, and no more than the limits allow. With the depth,
    the same steps are taken under other limits; without it, one of them is a call
    too many. -/
theorem Reaches.depth (h : Reaches p limits n m m') :
    ∃ depth, m.active ≤ depth ∧ (depth = m.active ∨ depth ≤ limits.maxDepth.toNat) ∧
      ∀ limits', limits'.trace = limits.trace →
        (depth ≤ limits'.maxDepth.toNat → Reaches p limits' n m m') ∧
        (m.active ≤ limits'.maxDepth.toNat → limits'.maxDepth.toNat < depth →
          Overflows p limits' n m) := by
  induction h with
  | refl m =>
    refine ⟨m.active, Nat.le_refl _, .inl rfl, fun limits' _ => ⟨fun _ => .refl m, ?_⟩⟩
    intro hle hlt
    exact absurd hle (Nat.not_le_of_gt hlt)
  | @step n m m₁ m' hadvance _ ih =>
    obtain ⟨depth, hactive, hallowed, hother⟩ := ih
    rcases m.advance_depth p limits with ⟨name, m₂, m₃, hdeeper, henters⟩ | ⟨hsame, hlevel⟩
    · -- The step enters a function: one more body is active from here on.
      have hdepth : m.active < limits.maxDepth.toNat ∧ m₂ = m₁ := by
        rw [henters limits rfl] at hadvance
        split at hadvance
        · cases hadvance
        · cases hadvance
          exact ⟨Nat.lt_of_not_le ‹_›, rfl⟩
      obtain ⟨hdepth, rfl⟩ := hdepth
      refine ⟨depth, by omega, by omega, fun limits' htrace => ?_⟩
      obtain ⟨hreaches, hoverflows⟩ := hother limits' htrace
      by_cases hlow : limits'.maxDepth.toNat ≤ m.active
      · refine ⟨fun hle => by omega, fun _ _ => ?_⟩
        exact ⟨0, Nat.succ_pos n, m, m₃, name, .refl m, by rw [henters limits' htrace, if_pos hlow]⟩
      · have hadvance' : m.advance p limits' = .running m₂ := by
          rw [henters limits' htrace, if_neg hlow]
        exact ⟨fun hle => .step hadvance' (hreaches hle),
          fun _ hlt => .next hadvance' (hoverflows (by omega) hlt)⟩
    · have hlevel : m₁.active ≤ m.active := hlevel m₁ hadvance
      refine ⟨max m.active depth, Nat.le_max_left .., by omega, fun limits' htrace => ?_⟩
      obtain ⟨hreaches, hoverflows⟩ := hother limits' htrace
      have hadvance' : m.advance p limits' = .running m₁ := (hsame limits' htrace).trans hadvance
      exact ⟨fun hle => .step hadvance' (hreaches (by omega)),
        fun hle hlt => .next hadvance' (hoverflows (by omega) (by omega))⟩

end Machine

/-! ## Runs of a program -/

/-- The run was cut off by one of its limits. -/
def Abort.IsLimit : Abort ExecError → Prop
  | .error e => e.kind = .stepLimit ∨ e.kind = .depthLimit
  | .noEntry | .overflow => False

namespace Program

variable {p : Program} {name : String} {args : List Int32} {limits limits' : ExecOptions}

/-- The body of a call that is entered reaches the same machines under all limits
    that allow its depth, and is a call too many under all others that leave it
    the steps. -/
theorem entered_depth {id : FunctionId} {fr : Frame} {n : Nat} {m : Machine}
    (hid : p.lookup name = some id)
    (henter : p.enter limits.maxDepth.toNat 0 id args = .ok (.entered fr))
    (hreaches : Machine.Reaches p limits n { frame := fr } m) :
    ∃ depth ≤ limits.maxDepth.toNat, ∀ limits', limits'.trace = limits.trace →
      (depth ≤ limits'.maxDepth.toNat →
        p.enter limits'.maxDepth.toNat 0 id args = .ok (.entered fr) ∧
          Machine.Reaches p limits' n { frame := fr } m) ∧
      (limits'.maxDepth.toNat < depth → n ≤ limits'.maxSteps.toNat →
        ∃ f, p.run name args limits' =
          .error (.error (.depthLimit limits'.maxDepth.toNat f))) := by
  obtain ⟨hdepth, f, hentered⟩ := enter_entered henter
  obtain ⟨depth, hactive, hallowed, hsame⟩ := hreaches.depth
  -- The body that is entered first is active all along.
  have hfirst : 1 ≤ depth := hactive
  have hallowed : depth = 1 ∨ depth ≤ limits.maxDepth.toNat := hallowed
  refine ⟨depth, by omega, fun limits' htrace => ?_⟩
  obtain ⟨hreaches', hoverflows⟩ := hsame limits' htrace
  constructor
  · intro hle
    refine ⟨?_, hreaches' hle⟩
    rw [hentered, if_neg (by omega)]
  · intro hlt hsteps
    by_cases hnone : limits'.maxDepth.toNat = 0
    · refine ⟨f, Ends.run_eq (.refused hid ?_)⟩
      rw [hentered, if_pos (Nat.le_of_eq hnone)]
    · have hone : 1 ≤ limits'.maxDepth.toNat := Nat.one_le_iff_ne_zero.mpr hnone
      have henter' : p.enter limits'.maxDepth.toNat 0 id args = .ok (.entered fr) := by
        rw [hentered, if_neg (by omega)]
      obtain ⟨j, hj, m₁, m₂, g, hreaches₁, hhalted⟩ := hoverflows hone hlt
      exact ⟨g, Ends.run_eq (.failed hid henter' (by omega) hreaches₁ hhalted)⟩

/-- The steps and the depth that a run which returns cannot do without. -/
theorem Ends.cut_off {o : Outcome} (h : p.Ends name args limits (.ok o)) :
    o.steps ≤ limits.maxSteps.toNat ∧
    ∃ depth ≤ limits.maxDepth.toNat, ∀ maxSteps maxDepth : UInt64,
      (o.steps ≤ maxSteps.toNat → depth ≤ maxDepth.toNat →
        p.run name args { limits with maxSteps, maxDepth } = .ok o) ∧
      (maxSteps.toNat < o.steps → depth ≤ maxDepth.toNat →
        p.run name args { limits with maxSteps, maxDepth } =
          .error (.error (.stepLimit maxSteps.toNat))) ∧
      (o.steps ≤ maxSteps.toNat → maxDepth.toNat < depth →
        ∃ f, p.run name args { limits with maxSteps, maxDepth } =
          .error (.error (.depthLimit maxDepth.toNat f))) := by
  cases h with
  | @printed id v hid henter =>
    -- The host prints at once: no step is taken, and no body is active.
    have hprints := enter_settled henter nofun nofun
    refine ⟨Nat.zero_le _, 0, Nat.zero_le _, fun maxSteps maxDepth => ⟨fun _ _ => ?_, ?_, ?_⟩⟩
    · exact Ends.run_eq (.printed hid (hprints maxDepth.toNat 0))
    · exact nofun
    · exact nofun
  | @returned id fr n m m' v hid henter hsteps hreaches hadvance =>
    obtain ⟨depth, hdepth, hsame⟩ := entered_depth hid henter hreaches
    refine ⟨hsteps, depth, hdepth, fun maxSteps maxDepth => ?_⟩
    obtain ⟨hallowed, hoverflows⟩ := hsame { limits with maxSteps, maxDepth } rfl
    refine ⟨fun hle hdeep => ?_, fun hlt hdeep => ?_, fun hle hshallow => ?_⟩
    · have hle : n < maxSteps.toNat := hle
      obtain ⟨henter', hreaches'⟩ := hallowed hdeep
      exact Ends.run_eq (.returned hid henter' hle hreaches'
        (Machine.halted_of_halted hadvance rfl nofun))
    · have hlt : maxSteps.toNat < n + 1 := hlt
      have hword := limits.maxSteps.toNat_lt_size
      obtain ⟨henter', hreaches'⟩ := hallowed hdeep
      obtain ⟨m₁, hreaches₁⟩ := hreaches'.shorten (Nat.le_of_lt_succ hlt)
      exact Ends.run_eq (.givenUp hid henter' hreaches₁ (by simp only; omega))
    · have hle : n < maxSteps.toNat := hle
      exact hoverflows hshallow (Nat.le_of_lt hle)

/-- A run that fails for another reason than its limits fails so under larger
    ones. -/
theorem Ends.stays {e : Abort ExecError} (h : p.Ends name args limits (.error e))
    (hlimit : ¬ e.IsLimit) {maxSteps maxDepth : UInt64} (hsteps : limits.maxSteps ≤ maxSteps)
    (hdepth : limits.maxDepth ≤ maxDepth) :
    p.run name args { limits with maxSteps, maxDepth } = .error e := by
  cases h with
  | unknown hid => exact Ends.run_eq (.unknown hid)
  | @refused id e hid henter =>
    apply Ends.run_eq (.refused hid (enter_settled henter nofun ?_ _ _))
    rintro name ⟨⟩
    exact hlimit (.inr rfl)
  | @failed id fr n m m' e hid henter hn hreaches hadvance =>
    obtain ⟨depth, hle, hsame⟩ := entered_depth hid henter hreaches
    obtain ⟨henter', hreaches'⟩ :=
      (hsame { limits with maxSteps, maxDepth } rfl).1 (Nat.le_trans hle hdepth)
    refine Ends.run_eq (.failed hid henter' (Nat.lt_of_lt_of_le hn hsteps) hreaches'
      (Machine.halted_of_halted hadvance rfl ?_))
    rintro name ⟨⟩
    exact hlimit (.inr rfl)
  | givenUp _ _ _ _ => exact absurd (.inl rfl) hlimit
  | overrun hid henter hreaches hfull =>
    -- No limit is larger than the largest number of the word.
    obtain ⟨depth, hle, hsame⟩ := entered_depth hid henter hreaches
    obtain ⟨henter', hreaches'⟩ :=
      (hsame { limits with maxSteps, maxDepth } rfl).1 (Nat.le_trans hle hdepth)
    have hword := maxSteps.toNat_lt_size
    have hmost : maxSteps.toNat = limits.maxSteps.toNat := by
      rw [UInt64.le_iff_toNat_le] at hsteps
      omega
    exact Ends.run_eq (.overrun hid henter' (hmost ▸ hreaches') (hmost ▸ hfull))

/-- The limits of a run cut it off at a certain number of steps and at a certain
    depth, and nothing else depends on them. An error that is not the limits'
    stays under larger ones. -/
theorem limits_cut_off (p : Program) (name : String) (args : List Int32) (limits : ExecOptions) :
    (∀ o, p.run name args limits = .ok o →
      o.steps ≤ limits.maxSteps.toNat ∧
      ∃ depth ≤ limits.maxDepth.toNat, ∀ maxSteps maxDepth : UInt64,
        (o.steps ≤ maxSteps.toNat → depth ≤ maxDepth.toNat →
          p.run name args { limits with maxSteps, maxDepth } = .ok o) ∧
        (maxSteps.toNat < o.steps → depth ≤ maxDepth.toNat →
          p.run name args { limits with maxSteps, maxDepth } =
            .error (.error (.stepLimit maxSteps.toNat))) ∧
        (o.steps ≤ maxSteps.toNat → maxDepth.toNat < depth →
          ∃ f, p.run name args { limits with maxSteps, maxDepth } =
            .error (.error (.depthLimit maxDepth.toNat f)))) ∧
    (∀ e, p.run name args limits = .error e → ¬ e.IsLimit →
      ∀ maxSteps maxDepth : UInt64, limits.maxSteps ≤ maxSteps → limits.maxDepth ≤ maxDepth →
        p.run name args { limits with maxSteps, maxDepth } = .error e) := by
  constructor
  · intro o ho
    have hends := p.run_ends name args limits
    rw [ho] at hends
    exact hends.cut_off
  · intro e he hlimit maxSteps maxDepth hsteps hdepth
    have hends := p.run_ends name args limits
    rw [he] at hends
    exact hends.stays hlimit hsteps hdepth

end Program

/-- Counting down from two takes 21 steps, with three bodies active at the end. -/
theorem countdown_cut_off :
    countdown.run "main" [2] { maxSteps := 21, maxDepth := 4 } = .ok ⟨2, [], 21⟩ ∧
    countdown.run "main" [2] { maxSteps := 20, maxDepth := 4 } =
      .error (.error (.stepLimit 20)) ∧
    (∃ depth ≤ 3, ∀ maxDepth : UInt64, maxDepth.toNat < depth →
      ∃ f, countdown.run "main" [2] { maxSteps := 21, maxDepth } =
        .error (.error (.depthLimit maxDepth.toNat f))) ∧
    countdown.run "main" [] { maxSteps := 1, maxDepth := 1 } =
      .error (.error (.arity "main" 1 0)) := by
  obtain ⟨hreturns, -⟩ := countdown.limits_cut_off "main" [2] { maxSteps := 30, maxDepth := 3 }
  obtain ⟨-, depth, hdepth, hruns⟩ :=
    hreturns ⟨2, [], 21⟩ (@Program.run_of_runWithin _ 30 _ _ _ _ rfl)
  have harity := (countdown.limits_cut_off "main" [] { maxSteps := 0, maxDepth := 0 }).2
    (.error (.arity "main" 1 0)) (@Program.run_of_runWithin _ 0 _ _ _ _ rfl)
    (by simp [Abort.IsLimit, ExecError.kind])
  refine ⟨(hruns 21 4).1 (by decide) ?_, (hruns 20 4).2.1 (by decide) ?_,
    ⟨depth, hdepth, fun maxDepth => (hruns 21 maxDepth).2.2 (by decide)⟩,
    harity 1 1 (by decide) (by decide)⟩
  · exact Nat.le_trans hdepth (by decide)
  · exact Nat.le_trans hdepth (by decide)

end Blockform
