-- SUMMARY: Lowering preserves meaning: a run of the lowered program computes and prints what the tree means.
import Blockform.Proofs.Compiling
import Blockform.Proofs.Executing
import Blockform.Proofs.Stepping

/-!
# Preservation of meaning

A call in the program does what the call means in the tree, by induction on the
fuel: its body is run with less. A run of the program is a call that nothing
waits for. If the call has a result, a certain number of steps is needed to
attain it (`Program.Shows`), and with fewer the run is given up; if it has none, it
never ends (`Program.Lasts`), and is given up after any number of steps.
-/

namespace Blockform

open Machine

variable {p : Program} {limits : ExecOptions} {defs : List Definition} {fuel active : Nat}

/-! ## Bodies -/

/-- A fresh frame stands at the start of the function. -/
theorem Machine.stands_start {a : Activation} {entry : Block} {rest : List Block} {m : Machine}
    (hblocks : a.body.blocks = entry :: rest) (hframe : m.frame = .start a.function a.args entry)
    (hcallers : m.callers = a.callers) (hactive : m.active = a.active) (name : String)
    (params : List String) : Stands a { printed := m.output } (.start name params) m where
  function := by rw [hframe]; rfl
  args := by rw [hframe]; rfl
  callers := hcallers
  active := hactive
  printed := rfl
  slots x slot hslot := by
    have hlt := Builder.slot?_lt hslot
    rw [hframe]
    simp [Frame.start, Activation.function, Builder.finish, hlt]
  block := by
    rw [hframe, hblocks]
    rfl
  rest := by
    refine ⟨{ label := _ }, rfl, ?_⟩
    rw [hframe]
    rfl

/-- What a builder finishes is the function of a definition: it has grown from
    lowering the body, and ends a block that is left open with a return of
    zero. -/
inductive Builder.Finishes (b : Builder) (p : Program) (d : Definition) : Prop where
  | mk {id : FunctionId} {ctx : Context} {s : Workspace} {entry : Block} {rest : List Block}
    (hid : p.lookup d.name = some id)
    (hfunction : p.function? id = some { b.finish with name := d.name })
    (hparams : b.params = d.params) (hblocks : b.blocks = entry :: rest)
    (hbody : Lower.block d.body (.start ctx d.name d.params) = .ok () s)
    (hgrows : s.builder.Grows b) (hprogram : s.context.program.Grows p)
    (hend : s.builder.IsOpen → b = s.builder.close (.ret (.int 0)))

theorem Compiled.finishes {d : Definition} (h : Compiled p d) : ∃ b : Builder, b.Finishes p d := by
  cases h with
  | @mk id ctx s s' hid hbody hcursor hend hfunction hprogram =>
    have hsettled := (Lower.block_settles (fun n _ => Lower.statement_settles n) _ _ hbody).toGrows
    obtain ⟨hgrows, hend'⟩ : s.builder.Grows s'.builder ∧
        (s.builder.IsOpen → s'.builder = s.builder.close (.ret (.int 0))) := by
      rcases hend with ⟨hopen, rfl⟩ | ⟨hclosed, rfl⟩
      · exact ⟨(Builder.Framed.close hopen _).toGrows, fun _ => rfl⟩
      · exact ⟨.refl _, fun hopen => absurd hopen hclosed⟩
    obtain ⟨entry, rest, hblocks⟩ : ∃ entry rest, s'.builder.blocks = entry :: rest :=
      List.exists_cons_of_length_pos
        (Nat.lt_of_lt_of_le (Nat.zero_lt_of_lt hcursor) hgrows.length)
    exact ⟨s'.builder, .mk hid hfunction (hgrows.params.trans hsettled.params) hblocks hbody
      hgrows hprogram hend'⟩

/-- The body of a compiled definition attains what the definition means, and
    returns. -/
theorem Compiled.run_attains {d : Definition} {id : FunctionId} (h : Compiled p d)
    (hid : p.lookup d.name = some id) (args : List Int32)
    {call : String → List Int32 → Meaning Printed Int32}
    (hcall : CallAttains p limits fuel active call) :
    ∃ f entry rest, p.function? id = some f ∧ f.params = d.params ∧ f.blocks = entry :: rest ∧
      (args.length = d.params.length → ∀ m : Machine, m.frame = .start f args entry →
        m.active = active →
          Attains p limits fuel (fun r m' => Returns m.callers active r.2 r.1 m') m
            (d.run { arguments := d.params.zip args, fuel, call } m.output)) := by
  obtain ⟨body, hbody⟩ := h.finishes
  cases hbody with
  | @mk id' ctx s entry rest hid' hfunction hparams hblocks hbody hgrown hgrows hend =>
    cases hid.symm.trans hid'
    refine ⟨_, entry, rest, hfunction, hparams, hblocks, fun harity m hframe hactive => ?_⟩
    let a : Activation := { body, name := d.name, args, callers := m.callers, active }
    let env : Env := { arguments := d.params.zip args, fuel, call }
    have henv : env.Fits p limits a := by
      refine ⟨?_, ?_, hcall⟩
      · change d.params.zip args = body.params.zip args
        rw [hparams]
      · change args.length = body.params.length
        rw [hparams, harity]
    have hm : Stands a { printed := m.output } (.start d.name d.params) m :=
      stands_start hblocks hframe rfl hactive d.name d.params
    have hopen : (Builder.start d.name d.params).IsOpen := ⟨_, rfl, rfl⟩
    have hattains := Lower.block_attains (fun n _ => Lower.statementAttains henv n) _ _ hbody hopen
      ⟨hgrown, hgrows⟩ _ m hm
    refine hattains.andThen (fun (flow, τ) hok m' hends => ?_) (fun kind herror => ?_)
      fun hnone => ?_
    · unfold Definition.run
      rw [hok]
      cases flow with
      | returned v => exact .done hends
      | next =>
        -- A body that falls off its end has been closed with a return of zero.
        have hclose : (s.builder.close (.ret (.int 0))).Grows a.body := by
          rw [← hend hends.1]
          exact .refl _
        exact .done (returns_of_ret hends.2 hclose rfl)
    · unfold Definition.run
      rw [herror]
    · unfold Definition.run
      rw [hnone]

/-! ## Calls -/

/-- What entering a function leads to agrees with what calling it means. -/
inductive EnterAttains (p : Program) (limits : ExecOptions) (bound active : Nat)
    (printed : Printed) :
    Except (Abort ExecError) Entry → Option (Except ExecErrorKind (Int32 × Printed)) → Prop where
  | failed (e : ExecError) :
    EnterAttains p limits bound active printed (.error (.error e)) (some (.error e.kind))
  | printed (v : Int32) :
    EnterAttains p limits bound active printed (.ok (.printed v)) (some (.ok (0, printed.push v)))
  | entered {fr : Frame} {r : Option (Except ExecErrorKind (Int32 × Printed))}
    (h : ∀ m : Machine, m.frame = fr → m.active = active + 1 → m.output = printed →
      Attains p limits bound (fun r m' => Returns m.callers (active + 1) r.2 r.1 m') m r) :
    EnterAttains p limits bound active printed (.ok (.entered fr)) r

/-- A function without a body is provided from outside, or not at all. -/
theorem callOutside_attains {id : FunctionId} {f : Function} (hf : p.function? id = some f)
    (hblocks : f.blocks = []) (args : List Int32) (printed : Printed) :
    EnterAttains p limits fuel active printed (p.enter limits.maxDepth.toNat active id args)
      (callOutside f.name args printed) := by
  rw [Program.enter_declaration hf hblocks]
  unfold Program.callHost callOutside
  by_cases hname : f.name = printName
  · rw [if_pos hname, if_pos hname]
    rcases args with - | ⟨v, - | ⟨v', args⟩⟩
    · exact .failed (.printArity 0)
    · exact .printed v
    · exact .failed (.printArity (v :: v' :: args).length)
  · rw [if_neg hname, if_neg hname]
    exact .failed (.noBody f.name)

theorem enter_attains (hp : p.Covers defs) {name : String} {id : FunctionId}
    (hid : p.lookup name = some id)
    (hcall : CallAttains p limits fuel (active + 1)
      (callFunction defs limits.maxDepth.toNat fuel (active + 1)))
    (args : List Int32) (printed : Printed) :
    EnterAttains p limits fuel active printed (p.enter limits.maxDepth.toNat active id args)
      (callFunction defs limits.maxDepth.toNat (fuel + 1) active name args printed) := by
  cases hfind : defs.find? (·.name = name) with
  | none =>
    rw [callFunction_of_none hfind]
    have hother : ∀ d ∈ defs, d.name ≠ name := by simpa using hfind
    obtain ⟨f, hf, rfl, hblocks⟩ := hp.declared name id hid hother
    exact callOutside_attains hf hblocks args printed
  | some d =>
    have hname : d.name = name := by simpa using List.find?_some hfind
    subst hname
    have hd := hp.compiled d (List.mem_of_find?_eq_some hfind)
    obtain ⟨f, entry, rest, hf, hparams, hblocks, hbody⟩ := hd.run_attains hid args hcall
    rw [callFunction_of_some hfind, Program.enter_body hf hblocks, hparams]
    by_cases harity : args.length ≠ d.params.length
    · rw [if_pos harity, if_pos harity]
      exact .failed (.arity f.name d.params.length args.length)
    · rw [if_neg harity, if_neg harity]
      by_cases hdepth : limits.maxDepth.toNat ≤ active
      · rw [if_pos hdepth, if_pos hdepth]
        exact .failed (.depthLimit limits.maxDepth.toNat f.name)
      · rw [if_neg hdepth, if_neg hdepth]
        refine .entered fun m hframe hactive hprinted => ?_
        rw [← hprinted]
        exact hbody (Decidable.not_not.mp harity) m hframe hactive

/-- A frame that returns leaves its value to the frame that waits for it. -/
theorem Machine.Returns.advance {dest : InstId} {fr : Frame} {callers : List (InstId × Frame)}
    {printed : Printed} {v : Int32} {m : Machine}
    (h : Returns ((dest, fr) :: callers) (active + 1) printed v m) :
    ∃ m', m.advance p limits = .running m' ∧ m'.frame = fr.define dest v ∧
      m'.callers = callers ∧ m'.active = active ∧ m'.output = printed := by
  obtain ⟨value, hterminator, hvalue⟩ := h.leaves
  have hstep : m.advance p limits = .running { m with
      steps := m.steps + 1, frame := fr.define dest v, callers, active := m.active - 1 } := by
    rw [advance_nil h.rest]
    simp only [leave, hterminator, withValue, hvalue, ret, h.callers]
  exact ⟨_, hstep, rfl, rfl, by simp [h.active], h.printed⟩

/-- A call in the program does what it means in the tree. -/
theorem callFunction_attains (hp : p.Covers defs) (limits : ExecOptions) (fuel active : Nat) :
    CallAttains p limits fuel active (callFunction defs limits.maxDepth.toNat fuel active) := by
  induction fuel generalizing active with
  | zero => exact fun m _ _ _ _ _ _ _ _ _ _ => ⟨m, .refl m⟩
  | succ fuel ih =>
    intro m name ns dest callee args rest hactive hid hrest hargs
    let m₁ := m.fetched limits (.call dest callee args) rest
    have hstep : m.advance p limits = m₁.execute p limits (.call dest callee args) :=
      advance_cons hrest p limits
    have hargs' : m₁.frame.evalAll args = .ok ns := (fetched_evalAll m _ rest args).trans hargs
    have hactive' : m₁.active = active := hactive
    simp only [execute, hargs', hactive'] at hstep
    have henter := enter_attains hp hid (ih (active + 1)) ns m.output
    generalize p.enter limits.maxDepth.toNat active callee ns = entry at hstep henter
    generalize callFunction defs limits.maxDepth.toNat (fuel + 1) active name ns m.output = r
      at henter ⊢
    cases henter with
    | failed e => exact .failed hstep
    | printed v => exact .next hstep (.done ⟨rfl, rfl, hactive.symm ▸ rfl, rfl⟩)
    | @entered fr _ h =>
      refine .step hstep ?_
      let m₂ : Machine := { m₁ with
        frame := fr, callers := (dest, m₁.frame) :: m₁.callers, active := active + 1 }
      have hentered := h m₂ rfl rfl rfl
      refine hentered.extend fun r m' hreturns => ?_
      obtain ⟨m'', hback, hframe, hcallers, hactive'', hprinted⟩ := hreturns.advance
      exact .step hback ⟨hframe, hcallers, hactive''.trans hactive.symm, hprinted⟩

/-! ## Runs -/

/-- What is seen of a run from outside: the value and everything printed, or the
    kind of the error. Of a run that a number out of range has stopped, nothing is
    seen. -/
def seen : Except (Abort ExecError) Outcome → Option (Except ExecErrorKind (Int32 × Printed))
  | .ok outcome => some (.ok (outcome.value, outcome.output.toArray))
  | .error (.error e) => some (.error e.kind)
  | .error .outOfRange => none

namespace Program

/-- Where nothing limits its steps, a call needs a number of them to show a result. -/
inductive Shows (p : Program) (name : String) (args : List Int32) (limits : ExecOptions) :
    Nat → Except ExecErrorKind (Int32 × Printed) → Prop where
  | unknown (hid : p.lookup name = none) : Shows p name args limits 0 (.error .unknownFunction)
  | refused {id : FunctionId} {e : ExecError} (hid : p.lookup name = some id)
    (henter : p.enter limits.maxDepth.toNat 0 id args = .error (.error e)) :
    Shows p name args limits 0 (.error e.kind)
  | printed {id : FunctionId} {v : Int32} (hid : p.lookup name = some id)
    (henter : p.enter limits.maxDepth.toNat 0 id args = .ok (.printed v)) :
    Shows p name args limits 0 (.ok (0, #[v]))
  | halted {id : FunctionId} {fr : Frame} {n : Nat} {m m' : Machine}
    {r : Except (Abort ExecError) Int32} {result : Except ExecErrorKind (Int32 × Printed)}
    (hid : p.lookup name = some id)
    (henter : p.enter limits.maxDepth.toNat 0 id args = .ok (.entered fr))
    (hreaches : Reaches p limits n { frame := fr } m)
    (hadvance : m.advance p limits = .halted r m')
    (hseen : seen (r.map fun v => ⟨v, m'.output.toList, n + 1⟩) = some result) :
    Shows p name args limits (n + 1) result

/-- Where nothing limits its steps, a call takes any number of them. -/
inductive Lasts (p : Program) (name : String) (args : List Int32) (limits : ExecOptions) : Prop where
  | mk {id : FunctionId} {fr : Frame} (hid : p.lookup name = some id)
    (henter : p.enter limits.maxDepth.toNat 0 id args = .ok (.entered fr))
    (hreaches : ∀ n, ∃ m, Reaches p limits n { frame := fr } m)

variable {name : String} {args : List Int32} {needed : Nat}
  {result : Except ExecErrorKind (Int32 × Printed)}

/-- A run shows the result if it may take the steps needed, and is given up otherwise. -/
theorem Shows.run (h : p.Shows name args limits needed result) (maxSteps : UInt64) :
    if needed ≤ maxSteps.toNat then seen (p.run name args { limits with maxSteps }) = some result
    else p.run name args { limits with maxSteps } = .error { limits with maxSteps }.exhausted := by
  cases h with
  | unknown hid =>
    rw [if_pos (Nat.zero_le _)]
    simp only [run_of_opening, opening, hid]
    rfl
  | refused hid henter =>
    rw [if_pos (Nat.zero_le _)]
    simp only [run_of_opening, opening, hid, henter]
    rfl
  | printed hid henter =>
    rw [if_pos (Nat.zero_le _)]
    simp only [run_of_opening, opening, hid, henter]
    rfl
  | @halted id fr n m m' r result hid henter hreaches hadvance hseen =>
    let limits' : ExecOptions := { limits with maxSteps }
    have henter' : p.enter limits'.maxDepth.toNat 0 id args = .ok (.entered fr) := henter
    have hreaches' : Reaches p limits' n { frame := fr } m := hreaches.maxSteps maxSteps
    have hadvance' := (advance_maxSteps p limits m maxSteps).trans hadvance
    split
    · rename_i hsteps
      rw [run_of_halting hid henter' hsteps hreaches' hadvance']
      exact hseen
    · rename_i hsteps
      obtain ⟨m₁, hlasting⟩ := hreaches'.shorten (Nat.le_of_lt_succ (Nat.lt_of_not_le hsteps))
      exact run_of_lasting hid henter' hlasting

/-- A call that never ends is given up, whatever the limit on its steps. -/
theorem Lasts.run (h : p.Lasts name args limits) (maxSteps : UInt64) :
    p.run name args { limits with maxSteps } = .error { limits with maxSteps }.exhausted := by
  obtain ⟨hid, henter, hreaches⟩ := h
  obtain ⟨m, hreaches⟩ := hreaches maxSteps.toNat
  let limits' : ExecOptions := { limits with maxSteps }
  have henter' : p.enter limits'.maxDepth.toNat 0 _ args = .ok (.entered _) := henter
  have hreaches' : Reaches p limits' limits'.maxSteps.toNat _ m := hreaches.maxSteps maxSteps
  exact run_of_lasting hid henter' hreaches'

end Program

/-- A machine that nothing waits for halts when it returns. -/
theorem Machine.Returns.halts {printed : Printed} {v : Int32} {m : Machine}
    (h : Returns [] active printed v m) (p : Program) (limits : ExecOptions) :
    ∃ m', m.advance p limits = .halted (.ok v) m' ∧ m'.output = printed := by
  obtain ⟨value, hterminator, hvalue⟩ := h.leaves
  have hstep : m.advance p limits = .halted (.ok v) { m with steps := m.steps + 1 } := by
    rw [advance_nil h.rest]
    simp only [leave, hterminator, withValue, hvalue, ret, h.callers]
  exact ⟨_, hstep, h.printed⟩

/-- A machine that attains a result halts with it after some steps. -/
theorem Machine.Attains.halts {result : Except ExecErrorKind (Int32 × Printed)} {m : Machine}
    (h : Attains p limits fuel (fun r m' => Returns [] active r.2 r.1 m') m (some result)) :
    ∃ n m₁ m' r, Reaches p limits n m m₁ ∧ m₁.advance p limits = .halted r m' ∧
      seen (r.map fun v => ⟨v, m'.output.toList, n + 1⟩) = some result := by
  cases result with
  | error kind =>
    obtain ⟨n, m₁, e, m', hreaches, hfailed, rfl⟩ := h
    exact ⟨n, m₁, m', _, hreaches, hfailed, rfl⟩
  | ok r =>
    obtain ⟨n, m₁, hreaches, hreturns⟩ := h
    obtain ⟨m', hhalted, hprinted⟩ := hreturns.halts p limits
    refine ⟨n, m₁, m', _, hreaches, hhalted, ?_⟩
    simp [seen, Except.map, hprinted]

/-- A call that attains a result shows it. -/
theorem enter_shows {name : String} {id : FunctionId} {args : List Int32}
    {result : Except ExecErrorKind (Int32 × Printed)} (hid : p.lookup name = some id)
    (h : EnterAttains p limits fuel 0 #[] (p.enter limits.maxDepth.toNat 0 id args) (some result)) :
    ∃ needed, p.Shows name args limits needed result := by
  generalize hentry : p.enter limits.maxDepth.toNat 0 id args = entry at h
  cases h with
  | failed e => exact ⟨0, .refused hid hentry⟩
  | printed v => exact ⟨0, .printed hid hentry⟩
  | @entered fr _ h =>
    obtain ⟨n, m, m', r, hreaches, hadvance, hseen⟩ := (h { frame := fr } rfl rfl rfl).halts
    exact ⟨n + 1, .halted hid hentry hreaches hadvance hseen⟩

/-- A call that has no result with any fuel goes on for ever. -/
theorem enter_lasts {name : String} {id : FunctionId} {args : List Int32}
    (hid : p.lookup name = some id)
    (h : ∀ fuel, EnterAttains p limits fuel 0 #[] (p.enter limits.maxDepth.toNat 0 id args) none) :
    p.Lasts name args limits := by
  generalize hentry : p.enter limits.maxDepth.toNat 0 id args = entry at h
  cases h 0 with
  | @entered fr =>
    refine .mk hid hentry fun n => ?_
    cases h n with
    | entered hlasts => exact hlasts { frame := fr } rfl rfl rfl

/-! ## Programs of trees -/

variable {tree : Node} {options : LowerOptions} {name : String} {args : List Int32}

/-- A call in the program attains what it means in the tree, with any fuel. -/
theorem meaning_attains (h : lower tree options = .ok p) {id : FunctionId}
    (hid : p.lookup name = some id) (limits : ExecOptions) (args : List Int32) (fuel : Nat) :
    EnterAttains p limits fuel 0 #[] (p.enter limits.maxDepth.toNat 0 id args)
      (tree.meaning options limits.maxDepth.toNat (fuel + 1) name args) := by
  obtain ⟨body, location, span, rfl⟩ := lower_module h
  obtain ⟨hcovers, hnames⟩ := lower_covers h
  have hmem : name ∈ moduleNames body options := by
    refine Decidable.byContradiction fun hother => ?_
    rw [(hnames name).mpr hother] at hid
    cases hid
  have hcall := callFunction_attains hcovers limits fuel 1
  have hmeaning := enter_attains hcovers hid hcall args #[]
  simpa only [Node.meaning, if_pos hmem] using hmeaning

/-- A name that the tree does not mention is unknown there, too. -/
theorem meaning_unknown (h : lower tree options = .ok p) (hid : p.lookup name = none)
    (limits : ExecOptions) (args : List Int32) (fuel : Nat) :
    tree.meaning options limits.maxDepth.toNat fuel name args =
      some (.error .unknownFunction) := by
  obtain ⟨body, location, span, rfl⟩ := lower_module h
  have hmem := ((lower_covers h).2 name).mp hid
  simp only [Node.meaning, if_neg hmem]

theorem yields_shows (h : lower tree options = .ok p)
    {result : Except ExecErrorKind (Int32 × Printed)}
    (hyields : tree.Yields options limits.maxDepth.toNat name args result) :
    ∃ needed, p.Shows name args limits needed result := by
  obtain ⟨fuel, hmeaning⟩ := hyields
  cases hid : p.lookup name with
  | none =>
    cases (meaning_unknown h hid limits args fuel).symm.trans hmeaning
    exact ⟨0, .unknown hid⟩
  | some id =>
    cases fuel with
    | zero =>
      -- Without fuel, only a name that the tree does not mention has a meaning.
      obtain ⟨body, location, span, rfl⟩ := lower_module h
      simp only [Node.meaning] at hmeaning
      split at hmeaning
      · cases hmeaning
      · rename_i hmem
        rw [((lower_covers h).2 name).mpr hmem] at hid
        cases hid
    | succ fuel =>
      have hattains := meaning_attains h hid limits args fuel
      rw [hmeaning] at hattains
      exact enter_shows hid hattains

theorem endless_lasts (h : lower tree options = .ok p)
    (hendless : ∀ result, ¬ tree.Yields options limits.maxDepth.toNat name args result) :
    p.Lasts name args limits := by
  have hnone : ∀ fuel, tree.meaning options limits.maxDepth.toNat fuel name args = none :=
    fun fuel => Option.eq_none_iff_forall_ne_some.mpr fun result hmeaning =>
      hendless result ⟨fuel, hmeaning⟩
  cases hid : p.lookup name with
  | none => cases (meaning_unknown h hid limits args 0).symm.trans (hnone 0)
  | some id =>
    exact enter_lasts hid fun fuel => hnone (fuel + 1) ▸ meaning_attains h hid limits args fuel

/-- Lowering preserves meaning. If a call has a result in the tree, then the call of the
    program needs a certain number of steps to show just this result; a run that may take
    them does so, and any other is given up. If the call has no result, the call of the
    program never ends, and every run is given up. What a run is given up with is the
    error that reports the limit, unless the limit is the largest number of the word: the
    step that is one too many cannot be counted then. -/
theorem lower_preserves_meaning (h : lower tree options = .ok p) (name : String)
    (args : List Int32) (limits : ExecOptions) :
    (∀ result, tree.Yields options limits.maxDepth.toNat name args result →
      ∃ needed, p.Shows name args limits needed result ∧ ∀ maxSteps : UInt64,
        if needed ≤ maxSteps.toNat then
          seen (p.run name args { limits with maxSteps }) = some result
        else p.run name args { limits with maxSteps } =
          .error { limits with maxSteps }.exhausted) ∧
    ((∀ result, ¬ tree.Yields options limits.maxDepth.toNat name args result) →
      p.Lasts name args limits ∧ ∀ maxSteps : UInt64,
        p.run name args { limits with maxSteps } = .error { limits with maxSteps }.exhausted) := by
  refine ⟨fun result hyields => ?_, fun hendless => ?_⟩
  · obtain ⟨needed, hshows⟩ := yields_shows h hyields
    exact ⟨needed, hshows, hshows.run⟩
  · have hlasts := endless_lasts h hendless
    exact ⟨hlasts, hlasts.run⟩

/-- A tree with a loop that prints what a function computes. The function assigns
    to its own parameter, to no effect. -/
def doublingTree : Node :=
  .module [
    .functionDef "double" ["n"] [.assign "n" (.int 0), .ret (.binop (.name "n") .add (.name "n"))],
    .assign "x" (.int 3),
    .whileLoop (.name "x") [
      .exprStmt (.call "print" [.call "double" [.name "x"]]),
      .assign "x" (.binop (.name "x") .sub (.int 1))],
    .ret (.name "x")]

theorem doublingTree_preserved :
    doublingTree.Yields {} 2 "main" [] (.ok (0, #[6, 4, 2])) ∧
      ∃ p, lower doublingTree {} = .ok p ∧ ∃ needed : Nat, ∀ maxSteps : UInt64,
        if needed ≤ maxSteps.toNat then
          seen (p.run "main" [] { maxDepth := 2, maxSteps }) = some (.ok (0, #[6, 4, 2]))
        else p.run "main" [] { maxDepth := 2, maxSteps } =
          .error { maxDepth := 2, maxSteps : ExecOptions }.exhausted := by
  have hyields : doublingTree.Yields {} 2 "main" [] (.ok (0, #[6, 4, 2])) := ⟨6, rfl⟩
  refine ⟨hyields, ?_⟩
  have hlowered : (lower doublingTree {}).isOk = true := by decide +kernel
  cases h : lower doublingTree {} with
  | ok p =>
    obtain ⟨needed, -, hruns⟩ :=
      (lower_preserves_meaning h "main" [] { maxDepth := 2 }).1 _ hyields
    exact ⟨p, rfl, needed, hruns⟩
  | error e =>
    rw [h] at hlowered
    cases hlowered

end Blockform
