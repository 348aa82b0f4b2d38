-- SUMMARY: Verified programs are safe: neither a run nor the printer follows a number into nowhere.
import Blockform.Proofs.Printing
import Blockform.Proofs.Turns

/-!
# Safety of verified programs

Verification looks at each function once. A run enters functions any number of
times and in any order, so what verification establishes has to be carried along
as an invariant of machines (`Machine.Sound`): every frame, active or waiting,
belongs to a verified function, has an argument for each parameter and a cell
for each slot, and stands in a block of its function. One step keeps it and
never stops with an error that verification excludes (`Machine.advance_sound`);
a run is a sequence of steps. The printer follows the same numbers, but needs no
invariant (`Program.print_settled`).
-/

namespace Blockform

/-! ## What a step may lead to -/

/-- An error that a look at the tables of the program could have foretold: an
    argument or a terminator is missing. -/
def ExecError.Foretold : ExecError → Prop
  | .noArgument .. | .missingTerminator .. => True
  | _ => False

/-- An end of a run of a verified program without a value. -/
def Abort.Excused : Abort ExecError → Prop
  | .error e => ¬ e.Foretold
  | .noEntry => False
  | .overflow => True

theorem ExecOptions.exhausted_excused (limits : ExecOptions) : limits.exhausted.Excused := by
  unfold exhausted
  split
  · exact trivial
  · exact not_false

/-- The activation of a verified function, with everything that its operations
    refer to by number. -/
structure Frame.Sound (p : Program) (fr : Frame) : Prop where
  verified : fr.function.Verified p
  args : fr.args.length = fr.function.params.length
  slots : fr.slots.length = fr.function.slots.length
  block : fr.block ∈ fr.function.blocks
  rest : ∀ op ∈ fr.rest, op ∈ fr.block.ops

/-- All frames of the machine are sound. -/
structure Machine.Sound (p : Program) (m : Machine) : Prop where
  frame : m.frame.Sound p
  callers : ∀ c ∈ m.callers, c.2.Sound p

/-- The step goes on soundly, or stops for a reason that verification leaves
    open. -/
def Step.Sound (p : Program) : Step → Prop
  | .running m => m.Sound p
  | .halted (.ok _) _ => True
  | .halted (.error e) _ => e.Excused

/-! ## Frames -/

namespace Frame

variable {p : Program} {fr : Frame}

theorem Sound.define (h : fr.Sound p) (id : InstId) (v : Int32) : (fr.define id v).Sound p :=
  ⟨h.verified, h.args, h.slots, h.block, h.rest⟩

theorem Sound.setSlot (h : fr.Sound p) (slot : Nat) (v : Int32) :
    { fr with slots := fr.slots.set slot v }.Sound p :=
  { h with slots := by simpa using h.slots }

theorem Sound.jump (h : fr.Sound p) {b : Block} (hb : b ∈ fr.function.blocks) :
    (fr.jump b).Sound p :=
  ⟨h.verified, h.args, h.slots, hb, fun _ hop => hop⟩

/-- A fresh activation with the right number of arguments is sound. -/
theorem Sound.start {f : Function} {args : List Int32} {entry : Block} (hf : f.Verified p)
    (hargs : args.length = f.params.length) (hentry : entry ∈ f.blocks) :
    (Frame.start f args entry).Sound p :=
  ⟨hf, hargs, by simp [Frame.start], hentry, fun _ hop => hop⟩

/-- An operand that verification admits has a value, unless its operation has not
    been executed. -/
theorem Sound.eval_error (h : fr.Sound p) {v : Value} (hv : (fr.function.scope p).Admits v)
    {e : ExecError} (he : fr.eval v = .error e) : ¬ e.Foretold := by
  cases v with
  | const ty value => simp [eval] at he
  | param index =>
    have hindex : index < fr.args.length := by
      rw [h.args]
      exact hv
    simp [eval, List.getElem?_eq_getElem hindex] at he
  | inst id ty =>
    simp only [eval] at he
    split at he
    · cases he
    · cases he
      exact not_false

theorem Sound.evalAll_error (h : fr.Sound p) {vs : List Value}
    (hvs : ∀ v ∈ vs, (fr.function.scope p).Admits v) {e : ExecError}
    (he : fr.evalAll vs = .error e) : ¬ e.Foretold := by
  induction vs with
  | nil => simp [evalAll, pure, Except.pure] at he
  | cons v vs ih =>
    rw [List.forall_mem_cons] at hvs
    simp only [evalAll, List.mapM_cons] at he ih
    cases hv : fr.eval v with
    | error e' =>
      rw [hv] at he
      cases he
      exact h.eval_error hvs.1 hv
    | ok n =>
      rw [hv] at he
      cases hrest : vs.mapM fr.eval with
      | error e' =>
        rw [hrest] at he
        cases he
        exact ih hvs.2 hrest
      | ok ns =>
        rw [hrest] at he
        cases he

end Frame

/-! ## Steps -/

/-- A host function prints its argument or fails for a reason of its own. -/
theorem Program.callHost_error {name : String} {args : List Int32} {e : ExecError}
    (he : callHost name args = .error e) : ¬ e.Foretold := by
  unfold callHost at he
  split at he
  · split at he
    · cases he
    · cases he
      exact not_false
  · cases he
    exact not_false

/-- What a call of a verified program leads to: a sound frame, or a failure that
    verification leaves open. -/
theorem Program.enter_sound {p : Program} (hp : p.verify = .ok ()) (maxDepth active : Nat)
    {id : FunctionId} (hid : id.val < p.size) (args : List Int32) :
    (∀ fr, p.enter maxDepth active id args = .ok (.entered fr) → fr.Sound p) ∧
      ∀ e, p.enter maxDepth active id args = .error e → e.Excused := by
  have hf : p.function? id = some p.functions[id.val] := List.getElem?_eq_getElem hid
  cases hblocks : p.functions[id.val].blocks with
  | nil =>
    rw [enter_declaration hf hblocks]
    cases hhost : callHost p.functions[id.val].name args with
    | ok v =>
      constructor
      · rintro fr ⟨⟩
      · rintro e ⟨⟩
    | error e =>
      constructor
      · rintro fr ⟨⟩
      · rintro _ ⟨⟩
        exact callHost_error hhost
  | cons entry rest =>
    have hverified : p.functions[id.val].Verified p := by
      refine Program.verify_eq_ok.mp hp _ (List.getElem_mem hid) ?_
      simp [Function.isDeclaration, hblocks]
    have hentry : entry ∈ p.functions[id.val].blocks := by simp [hblocks]
    rw [enter_body hf hblocks]
    by_cases hargs : args.length = p.functions[id.val].params.length
    · by_cases hdepth : maxDepth ≤ active
      · simp [hargs, hdepth, Abort.Excused, ExecError.Foretold]
      · simpa [hargs, hdepth] using Frame.Sound.start hverified hargs hentry
    · simp [hargs, Abort.Excused, ExecError.Foretold]

namespace Machine

variable {p : Program} {m : Machine}

theorem Sound.goOn (h : m.Sound p) {fr : Frame} (hfr : fr.Sound p) : (m.goOn fr).Sound p :=
  ⟨hfr, h.callers⟩

theorem Sound.withValue (h : m.Sound p) {v : Value}
    (hv : (m.frame.function.scope p).Admits v) {next : Int32 → Step}
    (hnext : ∀ n, (next n).Sound p) : (m.withValue v next).Sound p := by
  unfold Machine.withValue
  cases heval : m.frame.eval v with
  | ok n => exact hnext n
  | error e => exact h.frame.eval_error hv heval

theorem Sound.jump (h : m.Sound p) {target : BlockId}
    (ht : (m.frame.function.scope p).HasBlock target) : (m.jump target).Sound p := by
  have hblock : m.frame.function.block? target = some m.frame.function.blocks[target.val] :=
    List.getElem?_eq_getElem ht
  unfold Machine.jump
  rw [hblock]
  exact h.goOn (h.frame.jump (List.getElem_mem ht))

theorem Sound.ret (h : m.Sound p) (v : Int32) : (m.ret v).Sound p := by
  unfold Machine.ret
  cases hc : m.callers with
  | nil => trivial
  | cons c callers =>
    have hcallers := h.callers
    rw [hc, List.forall_mem_cons] at hcallers
    exact ⟨hcallers.1.define _ _, hcallers.2⟩

/-- Executing an operation of the current function keeps the machine sound: each
    check of the verifier answers for one access here. -/
theorem Sound.execute (hp : p.verify = .ok ()) (h : m.Sound p) {limits : ExecOptions} {op : Op}
    (hop : op ∈ m.frame.block.ops) : (m.execute p limits op).Sound p := by
  have hadmits := h.frame.verified.operands _ h.frame.block op hop
  have hfits := h.frame.verified.fits _ h.frame.block op hop
  cases op with
  | load dest slot =>
    have hslot : slot.val < m.frame.slots.length := by
      rw [h.frame.slots]
      exact hfits
    simp only [Machine.execute, List.getElem?_eq_getElem hslot]
    exact h.goOn (h.frame.define _ _)
  | store value slot =>
    have hslot : slot.val < m.frame.slots.length := by
      rw [h.frame.slots]
      exact hfits.1
    refine h.withValue (hadmits value (by simp [Op.operands])) fun n => ?_
    rw [if_pos hslot]
    exact h.goOn (h.frame.setSlot _ _)
  | binary dest op ty lhs rhs =>
    refine h.withValue (hadmits lhs (by simp [Op.operands])) fun a => ?_
    refine h.withValue (hadmits rhs (by simp [Op.operands])) fun b => ?_
    cases op.eval a b with
    | some n => exact h.goOn (h.frame.define _ _)
    | none => exact not_false
  | neg dest operand =>
    refine h.withValue (hadmits operand (by simp [Op.operands])) fun n => ?_
    exact h.goOn (h.frame.define _ _)
  | icmp dest pred lhs rhs =>
    refine h.withValue (hadmits lhs (by simp [Op.operands])) fun a => ?_
    refine h.withValue (hadmits rhs (by simp [Op.operands])) fun b => ?_
    exact h.goOn (h.frame.define _ _)
  | zext dest operand =>
    refine h.withValue (hadmits operand (by simp [Op.operands])) fun n => ?_
    exact h.goOn (h.frame.define _ _)
  | call dest callee args =>
    simp only [Machine.execute]
    cases hargs : m.frame.evalAll args with
    | error e => exact h.frame.evalAll_error hadmits hargs
    | ok values =>
      have henter := Program.enter_sound hp limits.maxDepth.toNat m.active hfits values
      simp only
      cases hentry : p.enter limits.maxDepth.toNat m.active callee values with
      | error e => exact henter.2 e hentry
      | ok entry =>
        cases entry with
        | printed v => exact ⟨h.frame.define _ _, h.callers⟩
        | entered fr => exact ⟨henter.1 fr hentry, List.forall_mem_cons.mpr ⟨h.frame, h.callers⟩⟩

/-- Every block of a verified function has a terminator to leave it by. -/
theorem Sound.leave (h : m.Sound p) : m.leave.Sound p := by
  obtain ⟨t, ht, hleaves⟩ := h.frame.verified.ends _ h.frame.block
  unfold Machine.leave
  rw [ht]
  cases t with
  | ret value => exact h.withValue hleaves h.ret
  | br target => exact h.jump hleaves
  | condBr cond thenBlock elseBlock =>
    obtain ⟨hcond, -, hthen, helse⟩ := hleaves
    refine h.withValue hcond fun n => ?_
    by_cases hn : n ≠ 0
    · rw [if_pos hn]
      exact h.jump hthen
    · rw [if_neg hn]
      exact h.jump helse

/-- One step of a verified program. -/
theorem advance_sound (hp : p.verify = .ok ()) (h : m.Sound p) (limits : ExecOptions) :
    (m.advance p limits).Sound p := by
  cases hrest : m.frame.rest with
  | nil =>
    rw [advance_nil hrest]
    exact Sound.leave ⟨h.frame, h.callers⟩
  | cons op rest =>
    have hmem := h.frame.rest
    rw [hrest, List.forall_mem_cons] at hmem
    have hframe : (m.fetched limits op rest).frame.Sound p := { h.frame with rest := hmem.2 }
    rw [advance_cons hrest]
    exact Sound.execute hp ⟨hframe, h.callers⟩ hmem.1

/-- The loop, from any machine of a verified program. -/
theorem run_sound (hp : p.verify = .ok ()) (h : m.Sound p)
    (hm : m.steps.toNat ≤ limits.maxSteps.toNat) {e : Abort ExecError}
    (he : (run p limits m).1 = .error e) : e.Excused := by
  obtain ⟨n, hn⟩ := Nat.exists_eq_add_of_le hm
  rcases run_cases p limits hn.symm with ⟨m₁, -, hend⟩ | ⟨k, m₁, r, m', -, hreaches, hhalted, hend⟩
  · rw [hend] at he
    cases he
    exact limits.exhausted_excused
  · have hsound : m₁.Sound p := by
      refine hreaches.invariant (fun m m' hm hadvance => ?_) h
      have hstep := advance_sound hp hm limits
      rwa [hadvance] at hstep
    have hstep := advance_sound hp hsound limits
    rw [hend] at he
    rw [hhalted, show r = .error e from he] at hstep
    exact hstep

end Machine

/-- Every run of a verified program ends for a reason that verification leaves
    open: the tables have an entry for each number that the run follows. -/
theorem Program.run_sound {p : Program} (hp : p.verify = .ok ()) {name : String}
    {args : List Int32} {limits : ExecOptions} {e : Abort ExecError}
    (he : p.run name args limits = .error e) : e.Excused := by
  rw [run_of_opening] at he
  unfold opening at he
  cases hid : p.lookup name with
  | none =>
    rw [hid] at he
    cases he
    exact not_false
  | some id =>
    rw [hid] at he
    have henter := enter_sound hp limits.maxDepth.toNat 0 (lookup_lt hid) args
    cases hentry : p.enter limits.maxDepth.toNat 0 id args with
    | error e' =>
      simp only [hentry] at he
      cases he
      exact henter.2 e hentry
    | ok entry =>
      simp only [hentry] at he
      cases entry with
      | printed v => cases he
      | entered fr =>
        have hsound : Machine.Sound p { frame := fr } :=
          ⟨henter.1 fr hentry, fun _ hc => nomatch hc⟩
        cases hrun : (Machine.run p limits { frame := fr }).1 with
        | error e' =>
          simp only [outcomeOf, hrun, Except.map] at he
          cases he
          exact Machine.run_sound hp hsound (Nat.zero_le _) hrun
        | ok v =>
          simp only [outcomeOf, hrun, Except.map] at he
          cases he

/-! ## Safety -/

/-- A verified program is safe to run and to print. Neither a run nor the printer
    follows a number that a table has no entry for, and a run misses no terminator and no
    argument, whatever it is called with. So the program has a text, provided that the
    printed numbers of its results can be counted. -/
theorem Program.verified_safe {p : Program} (hp : p.verify = .ok ()) :
    (∀ name args limits,
      p.run name args limits ≠ .error .noEntry ∧
      ∀ e, p.run name args limits = .error (.error e) →
        e.kind ≠ .missingTerminator ∧ ∀ function index, e ≠ .noArgument function index) ∧
    p.print ≠ .error .noEntry ∧
    ((∀ f ∈ p.functions, f.Countable) → p.text.isSome) := by
  have hprint := print_settled hp
  refine ⟨fun name args limits => ⟨fun he => run_sound hp he, fun e he => ?_⟩,
    hprint.ne_noEntry, fun hcount => ?_⟩
  · have hexcused : ¬ e.Foretold := run_sound hp he
    constructor
    · intro hkind
      cases e <;> first | exact hexcused trivial | cases hkind
    · rintro function index rfl
      exact hexcused trivial
  · obtain ⟨text, htext⟩ := hprint.exists_ok hcount
    rw [Program.text, htext]
    rfl

/-- A program that counts down: `main(n)` calls itself until `n` is zero. -/
def countdown : Program where
  functions := [
    { name := "main", signature := ⟨1⟩, params := ["n"], slots := [⟨"x"⟩],
      blocks := [
        { label := "entry"
          ops := [.store (.param 0) ⟨0⟩, .load ⟨0⟩ ⟨0⟩, .icmp ⟨1⟩ .ne (.int 0) (.inst ⟨0⟩ .i32)]
          terminator := some (.condBr (.inst ⟨1⟩ .i1) ⟨1⟩ ⟨2⟩) },
        { label := "again"
          ops := [.binary ⟨2⟩ .sub .i32 (.param 0) (.int 1), .call ⟨3⟩ ⟨0⟩ [.inst ⟨2⟩ .i32]]
          terminator := some (.br ⟨2⟩) },
        { label := "done", terminator := some (.ret (.param 0)) }] }]

theorem countdown_safe :
    countdown.verify = .ok () ∧
      (∀ args limits, countdown.run "main" args limits ≠ .error .noEntry) ∧
      countdown.text.isSome := by
  have h : countdown.verify = .ok () := rfl
  obtain ⟨hruns, -, htext⟩ := Program.verified_safe h
  refine ⟨h, fun args limits => (hruns "main" args limits).1, htext ?_⟩
  exact List.forall_mem_singleton.mpr (by decide +kernel)

end Blockform
