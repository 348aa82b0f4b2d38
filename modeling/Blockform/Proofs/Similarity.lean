-- SUMMARY: Programs that are alike up to the numbers of functions and results (`Program.Similar`) run alike.
import Blockform.Proofs.Safety
import Blockform.Proofs.Stepping
import Mathlib.Data.List.Forall2
import Std.Data.TreeMap.Lemmas

/-!
# Similar programs

Two programs are similar if their functions of one name are: these have the same
parameters and as many slots, and blocks that do the same up to the numbers of
results and of the functions that are called. Blocks that no branch leads to need
not have a counterpart, and a value may be subtracted from zero where it is
negated on the other side. Similar programs run in lockstep
(`Machine.Like.advance`), and a run of one ends as the run of the other does
(`Program.Similar.run`).
-/

namespace Blockform

/-! ## Operations -/

/-- The values are one constant, one parameter, or results that correspond. -/
inductive Value.Like (ρ : InstId → InstId → Prop) : Value → Value → Prop where
  | const (ty ty' : Ty) (n : Int32) : Like ρ (.const ty n) (.const ty' n)
  | param (index : Nat) : Like ρ (.param index) (.param index)
  | inst {id id' : InstId} (ty ty' : Ty) (h : ρ id id') : Like ρ (.inst id ty) (.inst id' ty')

/-- The functions of two programs have one name. -/
def Program.SameName (p p' : Program) (id id' : FunctionId) : Prop :=
  ∃ name, p.lookup name = some id ∧ p'.lookup name = some id'

/-- The operations compute the same from values that are alike. -/
inductive Op.Like (p p' : Program) (ρ : InstId → InstId → Prop) : Op → Op → Prop where
  | load {dest dest' : InstId} (slot : SlotId) (hdest : ρ dest dest') :
    Like p p' ρ (.load dest slot) (.load dest' slot)
  | store {value value' : Value} (slot : SlotId) (hvalue : value.Like ρ value') :
    Like p p' ρ (.store value slot) (.store value' slot)
  | binary {dest dest' : InstId} (op : BinaryOp) (ty ty' : Ty) {lhs lhs' rhs rhs' : Value}
    (hdest : ρ dest dest') (hlhs : lhs.Like ρ lhs') (hrhs : rhs.Like ρ rhs') :
    Like p p' ρ (.binary dest op ty lhs rhs) (.binary dest' op ty' lhs' rhs')
  | neg {dest dest' : InstId} {operand operand' : Value} (hdest : ρ dest dest')
    (hoperand : operand.Like ρ operand') : Like p p' ρ (.neg dest operand) (.neg dest' operand')
  | negSub {dest dest' : InstId} (ty zeroTy : Ty) {operand operand' : Value} (hdest : ρ dest dest')
    (hoperand : operand.Like ρ operand') :
    Like p p' ρ (.neg dest operand) (.binary dest' .sub ty (.const zeroTy 0) operand')
  | subNeg {dest dest' : InstId} (ty zeroTy : Ty) {operand operand' : Value} (hdest : ρ dest dest')
    (hoperand : operand.Like ρ operand') :
    Like p p' ρ (.binary dest .sub ty (.const zeroTy 0) operand) (.neg dest' operand')
  | icmp {dest dest' : InstId} (pred : Predicate) {lhs lhs' rhs rhs' : Value}
    (hdest : ρ dest dest') (hlhs : lhs.Like ρ lhs') (hrhs : rhs.Like ρ rhs') :
    Like p p' ρ (.icmp dest pred lhs rhs) (.icmp dest' pred lhs' rhs')
  | zext {dest dest' : InstId} {operand operand' : Value} (hdest : ρ dest dest')
    (hoperand : operand.Like ρ operand') : Like p p' ρ (.zext dest operand) (.zext dest' operand')
  | call {dest dest' : InstId} {callee callee' : FunctionId} {args args' : List Value}
    (hdest : ρ dest dest') (hcallee : p.SameName p' callee callee')
    (hargs : List.Forall₂ (Value.Like ρ) args args') :
    Like p p' ρ (.call dest callee args) (.call dest' callee' args')

/-- The terminators lead to the same blocks, which are among the first `n`. -/
inductive Terminator.Like (ρ : InstId → InstId → Prop) (n : Nat) :
    Terminator → Terminator → Prop where
  | ret {value value' : Value} (hvalue : value.Like ρ value') : Like ρ n (.ret value) (.ret value')
  | br {target : BlockId} (h : target.val < n) : Like ρ n (.br target) (.br target)
  | condBr {cond cond' : Value} {thenBlock elseBlock : BlockId} (hcond : cond.Like ρ cond')
    (hthen : thenBlock.val < n) (helse : elseBlock.val < n) :
    Like ρ n (.condBr cond thenBlock elseBlock) (.condBr cond' thenBlock elseBlock)

/-! ## Functions -/

/-- The blocks do the same. -/
structure Block.Like (p p' : Program) (ρ : InstId → InstId → Prop) (n : Nat) (b b' : Block) :
    Prop where
  ops : List.Forall₂ (Op.Like p p' ρ) b.ops b'.ops
  ends : ∃ t t', b.terminator = some t ∧ b'.terminator = some t' ∧ t.Like ρ n t'

/-- The functions are alike in their first `n` blocks, and no branch leads from
    these to another one. Each result corresponds to at most one. -/
structure Function.Like (p p' : Program) (ρ : InstId → InstId → Prop) (n : Nat)
    (f f' : Function) : Prop where
  unique : Relator.BiUnique ρ
  name : f'.name = f.name
  params : f'.params = f.params
  slots : f'.slots.length = f.slots.length
  blocks : ∀ i < n, ∃ b b', f.blocks[i]? = some b ∧ f'.blocks[i]? = some b' ∧
    b.Like p p' ρ n b'

/-- The functions do the same, up to the numbers of results. -/
inductive Function.Similar (p p' : Program) (f f' : Function) : Prop where
  | declared (hname : f'.name = f.name) (hf : f.blocks = []) (hf' : f'.blocks = [])
  | built {ρ : InstId → InstId → Prop} {n : Nat} (hn : 0 < n) (h : f.Like p p' ρ n f')

/-- The programs have functions of the same names, which do the same. -/
structure Program.Similar (p p' : Program) : Prop where
  names : ∀ name, p.lookup name = none ↔ p'.lookup name = none
  functions : ∀ id id', p.SameName p' id id' →
    ∃ f f', p.function? id = some f ∧ p'.function? id' = some f' ∧ f.Similar p p' f'

/-! ## Results -/

/-- The results are values that correspond, or failures of one kind. -/
inductive Corresponds {α β : Type} (R : α → β → Prop) :
    Except (Abort ExecError) α → Except (Abort ExecError) β → Prop where
  | ok {a : α} {b : β} (h : R a b) : Corresponds R (.ok a) (.ok b)
  | error {e e' : ExecError} (hkind : e'.kind = e.kind) :
    Corresponds R (.error (.error e)) (.error (.error e'))
  | outOfRange (fault : Fault) :
    Corresponds R (.error (@Abort.outOfRange _ fault)) (.error (@Abort.outOfRange _ fault))

/-! ## Frames -/

/-- The activations are at one place, with the same arguments and slots, and with
    the same values for results that correspond. -/
structure Frame.Like (p p' : Program) (ρ : InstId → InstId → Prop) (n : Nat) (fr fr' : Frame) :
    Prop where
  function : fr.function.Like p p' ρ n fr'.function
  args : fr'.args = fr.args
  results : ∀ id id', ρ id id' → fr'.results[id'.val]? = fr.results[id.val]?
  slots : fr'.slots = fr.slots
  ends : ∃ t t', fr.block.terminator = some t ∧ fr'.block.terminator = some t' ∧ t.Like ρ n t'
  rest : List.Forall₂ (Op.Like p p' ρ) fr.rest fr'.rest

namespace Frame.Like

variable {p p' : Program} {ρ : InstId → InstId → Prop} {n : Nat} {fr fr' : Frame}

theorem start {f f' : Function} (hf : f.Like p p' ρ n f') {b b' : Block} (hb : b.Like p p' ρ n b')
    (args : List Int32) : (Frame.start f args b).Like p p' ρ n (.start f' args b') where
  function := hf
  args := rfl
  results _ _ _ := rfl
  slots := by simp only [Frame.start, List.map_const', hf.slots]
  ends := hb.ends
  rest := hb.ops

/-- Values that are alike have the same value, or fail in the same way. -/
theorem eval (h : fr.Like p p' ρ n fr') {v v' : Value} (hv : v.Like ρ v') :
    (∃ x, fr.eval v = .ok x ∧ fr'.eval v' = .ok x) ∨
      ∃ e e', fr.eval v = .error e ∧ fr'.eval v' = .error e' ∧ e'.kind = e.kind := by
  cases hv with
  | const ty ty' x => exact .inl ⟨x, rfl, rfl⟩
  | param index =>
    simp only [Frame.eval, h.args]
    cases fr.args[index]? with
    | some x => exact .inl ⟨x, rfl, rfl⟩
    | none => exact .inr ⟨_, _, rfl, rfl, rfl⟩
  | @inst id id' ty ty' hid =>
    simp only [Frame.eval, h.results id id' hid]
    cases fr.results[id.val]? with
    | some x => exact .inl ⟨x, rfl, rfl⟩
    | none => exact .inr ⟨_, _, rfl, rfl, rfl⟩

theorem evalAll (h : fr.Like p p' ρ n fr') {vs vs' : List Value}
    (hvs : List.Forall₂ (Value.Like ρ) vs vs') :
    (∃ xs, fr.evalAll vs = .ok xs ∧ fr'.evalAll vs' = .ok xs) ∨
      ∃ e e', fr.evalAll vs = .error e ∧ fr'.evalAll vs' = .error e' ∧ e'.kind = e.kind := by
  unfold Frame.evalAll
  induction hvs with
  | nil => exact .inl ⟨[], rfl, rfl⟩
  | cons hv _ ih =>
    rw [List.mapM_cons, List.mapM_cons]
    rcases h.eval hv with ⟨x, hx, hx'⟩ | ⟨e, e', he, he', hkind⟩
    · rw [hx, hx']
      rcases ih with ⟨xs, hxs, hxs'⟩ | ⟨e, e', he, he', hkind⟩
      · rw [hxs, hxs']
        exact .inl ⟨x :: xs, rfl, rfl⟩
      · rw [he, he']
        exact .inr ⟨e, e', rfl, rfl, hkind⟩
    · rw [he, he']
      exact .inr ⟨e, e', rfl, rfl, hkind⟩

theorem define (h : fr.Like p p' ρ n fr') {dest dest' : InstId} (hdest : ρ dest dest')
    (x : Int32) : (fr.define dest x).Like p p' ρ n (fr'.define dest' x) where
  function := h.function
  args := h.args
  results id id' hid := by
    have hsame : dest' = id' ↔ dest = id :=
      ⟨fun heq => h.function.unique.1 hdest (heq ▸ hid),
        fun heq => h.function.unique.2 hdest (heq ▸ hid)⟩
    have hvals : dest'.val = id'.val ↔ dest.val = id.val := by
      cases dest; cases dest'; cases id; cases id'
      simpa using hsame
    simp only [Frame.define, Std.TreeMap.getElem?_insert, Nat.compare_eq_eq, hvals,
      h.results id id' hid]
  slots := h.slots
  ends := h.ends
  rest := h.rest

theorem setSlot (h : fr.Like p p' ρ n fr') (slot : SlotId) (x : Int32) :
    Frame.Like p p' ρ n { fr with slots := fr.slots.set slot.val x }
      { fr' with slots := fr'.slots.set slot.val x } :=
  { h with slots := congrArg (List.set · slot.val x) h.slots }

theorem fetch (h : fr.Like p p' ρ n fr') {rest rest' : List Op}
    (hrest : List.Forall₂ (Op.Like p p' ρ) rest rest') :
    Frame.Like p p' ρ n { fr with rest } { fr' with rest := rest' } :=
  ⟨h.function, h.args, h.results, h.slots, h.ends, hrest⟩

theorem jump (h : fr.Like p p' ρ n fr') {b b' : Block} (hb : b.Like p p' ρ n b') :
    (fr.jump b).Like p p' ρ n (fr'.jump b') :=
  ⟨h.function, h.args, h.results, h.slots, hb.ends, hb.ops⟩

end Frame.Like

/-! ## Calls -/

/-- The calls print the same, or lead to activations that are alike. -/
inductive Entry.Like (p p' : Program) : Entry → Entry → Prop where
  | printed (v : Int32) : Like p p' (.printed v) (.printed v)
  | entered {ρ : InstId → InstId → Prop} {n : Nat} {fr fr' : Frame}
    (h : fr.Like p p' ρ n fr') : Like p p' (.entered fr) (.entered fr')

variable {p p' : Program}

/-- Functions of one name are called alike. -/
theorem Program.Similar.enter (hp : p.Similar p') {id id' : FunctionId}
    (hid : p.SameName p' id id') (maxDepth active : Nat) (args : List Int32) :
    Corresponds (Entry.Like p p') (p.enter maxDepth active id args)
      (p'.enter maxDepth active id' args) := by
  obtain ⟨f, f', hf, hf', hsimilar⟩ := hp.functions id id' hid
  cases hsimilar with
  | declared hname hblocks hblocks' =>
    rw [enter_declaration hf hblocks, enter_declaration hf' hblocks', hname]
    cases callHost f.name args with
    | ok v => exact .ok (.printed v)
    | error e => exact .error rfl
  | built hn hlike =>
    obtain ⟨b, b', hb, hb', hblock⟩ := hlike.blocks 0 hn
    obtain ⟨rest, hblocks⟩ := List.head?_eq_some_iff.mp (List.head?_eq_getElem? ▸ hb)
    obtain ⟨rest', hblocks'⟩ := List.head?_eq_some_iff.mp (List.head?_eq_getElem? ▸ hb')
    rw [enter_body hf hblocks, enter_body hf' hblocks', hlike.params]
    split
    · exact .error rfl
    · split
      · exact .error rfl
      · exact .ok (.entered (.start hlike hblock args))

/-! ## Machines -/

/-- A frame that waits is like another one that waits for a result that
    corresponds. -/
def WaitsLike (p p' : Program) (c c' : InstId × Frame) : Prop :=
  ∃ ρ n, ρ c.1 c'.1 ∧ c.2.Like p p' ρ n c'.2

/-- The machines are at one place, and have counted and printed the same. -/
structure Machine.Like (p p' : Program) (ρ : InstId → InstId → Prop) (n : Nat) (m m' : Machine) :
    Prop where
  frame : m.frame.Like p p' ρ n m'.frame
  callers : List.Forall₂ (WaitsLike p p') m.callers m'.callers
  active : m'.active = m.active
  steps : m'.steps = m.steps
  output : m'.output = m.output

/-- The steps lead to machines that are alike, or halt with one result. -/
inductive Step.Like (p p' : Program) : Step → Step → Prop where
  | running {ρ : InstId → InstId → Prop} {n : Nat} {m m' : Machine} (h : m.Like p p' ρ n m') :
    Like p p' (.running m) (.running m')
  | halted {r r' : Except (Abort ExecError) Int32} {m m' : Machine} (hr : Corresponds Eq r r')
    (hsteps : m'.steps = m.steps) (houtput : m'.output = m.output) :
    Like p p' (.halted r m) (.halted r' m')

namespace Machine.Like

variable {p p' : Program} {ρ : InstId → InstId → Prop} {n : Nat} {m m' : Machine}
  {limits : ExecOptions}

theorem fail (h : m.Like p p' ρ n m') {e e' : ExecError} (hkind : e'.kind = e.kind) :
    (m.fail e).Like p p' (m'.fail e') :=
  .halted (.error hkind) h.steps h.output

theorem lost (h : m.Like p p' ρ n m') : m.lost.Like p p' m'.lost :=
  .halted (.outOfRange .noEntry) h.steps h.output

theorem goOn (h : m.Like p p' ρ n m') {fr fr' : Frame} (hfr : fr.Like p p' ρ n fr') :
    (m.goOn fr).Like p p' (m'.goOn fr') :=
  .running ⟨hfr, h.callers, h.active, h.steps, h.output⟩

theorem withValue (h : m.Like p p' ρ n m') {v v' : Value} (hv : v.Like ρ v')
    {next next' : Int32 → Step} (hnext : ∀ x, (next x).Like p p' (next' x)) :
    (m.withValue v next).Like p p' (m'.withValue v' next') := by
  unfold Machine.withValue
  rcases h.frame.eval hv with ⟨x, hx, hx'⟩ | ⟨e, e', he, he', hkind⟩
  · rw [hx, hx']
    exact hnext x
  · rw [he, he']
    exact h.fail hkind

/-! ### Operations -/

theorem defined (h : m.Like p p' ρ n m') {dest dest' : InstId} (hdest : ρ dest dest') (x : Int32) :
    (m.goOn (m.frame.define dest x)).Like p p' (m'.goOn (m'.frame.define dest' x)) :=
  h.goOn (h.frame.define hdest x)

/-- Two operands are evaluated, and the values are gone on with. -/
theorem withValues (h : m.Like p p' ρ n m') {lhs lhs' rhs rhs' : Value} (hlhs : lhs.Like ρ lhs')
    (hrhs : rhs.Like ρ rhs') {next next' : Int32 → Int32 → Step}
    (hnext : ∀ a b, (next a b).Like p p' (next' a b)) :
    (m.withValue lhs fun a => m.withValue rhs (next a)).Like p p'
      (m'.withValue lhs' fun a => m'.withValue rhs' (next' a)) := by
  apply h.withValue hlhs
  intro a
  exact h.withValue hrhs (hnext a)

theorem execute_call (hp : p.Similar p') (h : m.Like p p' ρ n m') {dest dest' : InstId}
    {callee callee' : FunctionId} {args args' : List Value} (hdest : ρ dest dest')
    (hcallee : p.SameName p' callee callee') (hargs : List.Forall₂ (Value.Like ρ) args args') :
    (m.execute p limits (.call dest callee args)).Like p p'
      (m'.execute p' limits (.call dest' callee' args')) := by
  unfold Machine.execute
  rcases h.frame.evalAll hargs with ⟨values, hvalues, hvalues'⟩ | ⟨e, e', he, he', hkind⟩
  · have henter := hp.enter hcallee limits.maxDepth.toNat m.active values
    simp only [hvalues, hvalues', h.active]
    generalize p.enter _ _ callee values = r, p'.enter _ _ callee' values = r' at henter ⊢
    cases henter with
    | ok hentry =>
      cases hentry with
      | printed v =>
        exact .running ⟨h.frame.define hdest 0, h.callers, h.active, h.steps,
          congrArg (Array.push · v) h.output⟩
      | entered hfr =>
        exact .running ⟨hfr, .cons ⟨ρ, n, hdest, h.frame⟩ h.callers, rfl, h.steps, h.output⟩
    | error hkind => exact h.fail hkind
    | outOfRange fault => exact .halted (.outOfRange fault) h.steps h.output
  · simp only [he, he']
    exact h.fail hkind

theorem execute (hp : p.Similar p') (h : m.Like p p' ρ n m') {op op' : Op}
    (hop : op.Like p p' ρ op') :
    (m.execute p limits op).Like p p' (m'.execute p' limits op') := by
  cases hop with
  | load slot hdest =>
    simp only [Machine.execute, h.frame.slots]
    cases m.frame.slots[slot.val]? with
    | some x => exact h.defined hdest x
    | none => exact h.lost
  | store slot hvalue =>
    apply h.withValue hvalue
    intro x
    rw [h.frame.slots]
    split
    · exact h.goOn (h.frame.slots ▸ h.frame.setSlot slot x)
    · exact h.lost
  | binary op ty ty' hdest hlhs hrhs =>
    apply h.withValues hlhs hrhs
    intro a b
    cases op.eval a b with
    | some x => exact h.defined hdest x
    | none => exact h.fail rfl
  | neg hdest hoperand =>
    apply h.withValue hoperand
    intro x
    exact h.defined hdest (-x)
  | negSub ty zeroTy hdest hoperand =>
    apply h.withValue hoperand
    intro x
    have hneg := h.defined hdest (-x)
    rwa [← Int32.zero_sub x] at hneg
  | subNeg ty zeroTy hdest hoperand =>
    apply h.withValue hoperand
    intro x
    have hneg := h.defined hdest (-x)
    rwa [← Int32.zero_sub x] at hneg
  | icmp pred hdest hlhs hrhs =>
    apply h.withValues hlhs hrhs
    intro a b
    exact h.defined hdest (pred.eval a b)
  | zext hdest hoperand =>
    apply h.withValue hoperand
    intro x
    exact h.defined hdest (x &&& 1)
  | call hdest hcallee hargs => exact h.execute_call hp hdest hcallee hargs

/-! ### Ends of blocks -/

theorem jump (h : m.Like p p' ρ n m') {target : BlockId} (htarget : target.val < n) :
    (m.jump target).Like p p' (m'.jump target) := by
  obtain ⟨b, b', hb, hb', hlike⟩ := h.frame.function.blocks target.val htarget
  simp only [Machine.jump, Function.block?, hb, hb']
  exact h.goOn (h.frame.jump hlike)

theorem ret (h : m.Like p p' ρ n m') (x : Int32) : (m.ret x).Like p p' (m'.ret x) := by
  have hcallers := h.callers
  unfold Machine.ret
  generalize m.callers = callers, m'.callers = callers' at hcallers ⊢
  cases hcallers with
  | nil => exact .halted (.ok rfl) h.steps h.output
  | cons hfirst hrest =>
    obtain ⟨ρ₁, n₁, hdest, hfr⟩ := hfirst
    exact .running ⟨hfr.define hdest x, hrest, congrArg (· - 1) h.active, h.steps, h.output⟩

theorem leave (h : m.Like p p' ρ n m') : m.leave.Like p p' m'.leave := by
  obtain ⟨t, t', ht, ht', hends⟩ := h.frame.ends
  simp only [Machine.leave, ht, ht']
  cases hends with
  | ret hvalue =>
    apply h.withValue hvalue
    exact h.ret
  | br htarget => exact h.jump htarget
  | condBr hcond hthen helse =>
    apply h.withValue hcond
    intro x
    apply h.jump
    split
    · exact hthen
    · exact helse

/-! ### Runs -/

/-- Machines that are alike take the same step. -/
theorem advance (hp : p.Similar p') (h : m.Like p p' ρ n m') :
    (m.advance p limits).Like p p' (m'.advance p' limits) := by
  have hrest := h.frame.rest
  have hsteps : m'.steps + 1 = m.steps + 1 := congrArg (· + 1) h.steps
  cases hops : m.frame.rest with
  | nil =>
    rw [hops, List.forall₂_nil_left_iff] at hrest
    rw [advance_nil hops, advance_nil hrest]
    exact leave ⟨h.frame, h.callers, h.active, hsteps, h.output⟩
  | cons op rest =>
    rw [hops] at hrest
    obtain ⟨op', rest', hop, hrest', hops'⟩ := List.forall₂_cons_left_iff.mp hrest
    rw [advance_cons hops, advance_cons hops']
    have hfetched : (m.fetched limits op rest).Like p p' ρ n (m'.fetched limits op' rest') :=
      ⟨h.frame.fetch hrest', h.callers, h.active, hsteps, h.output⟩
    exact hfetched.execute hp hop

theorem turn (hp : p.Similar p') (h : m.Like p p' ρ n m') :
    (m.turn p limits).Like p p' (m'.turn p' limits) := by
  unfold Machine.turn
  rw [h.steps]
  split
  · exact .halted (.outOfRange .overflow) h.steps h.output
  · split
    · exact .halted (.error rfl) rfl h.output
    · exact h.advance hp

/-- The loops of two machines end in the same way. -/
theorem run (h : m.Like p p' ρ n m') (hp : p.Similar p') (limits : ExecOptions) :
    Corresponds Eq (Machine.run p limits m).1 (Machine.run p' limits m').1 ∧
      (Machine.run p' limits m').2.steps = (Machine.run p limits m).2.steps ∧
      (Machine.run p' limits m').2.output = (Machine.run p limits m).2.output := by
  induction m using Machine.run.induct p limits generalizing ρ n m' with
  | case1 m m₁ hturn _ ih =>
    have hlike : (m.turn p limits).Like p p' (m'.turn p' limits) := h.turn hp
    rw [run_eq p, run_eq p', hturn]
    rw [hturn] at hlike
    generalize m'.turn p' limits = step' at hlike ⊢
    cases hlike with
    | running hnext => exact ih hnext
  | case2 m r m₁ hturn =>
    have hlike : (m.turn p limits).Like p p' (m'.turn p' limits) := h.turn hp
    rw [run_eq p, run_eq p', hturn]
    rw [hturn] at hlike
    generalize m'.turn p' limits = step' at hlike ⊢
    cases hlike with
    | halted hr hsteps houtput => exact ⟨hr, hsteps, houtput⟩

end Machine.Like

/-! ## Runs of a program -/

/-- A run of a program ends as that of a similar one does. -/
theorem Program.Similar.run (hp : p.Similar p') (name : String) (args : List Int32)
    (limits : ExecOptions) :
    Corresponds Eq (p.run name args limits) (p'.run name args limits) := by
  cases hid : p.lookup name with
  | none =>
    have hid' := (hp.names name).mp hid
    simp only [run_of_opening, opening, hid, hid']
    exact .error rfl
  | some id =>
    obtain ⟨id', hid'⟩ := Option.ne_none_iff_exists'.mp (mt (hp.names name).mpr (by simp [hid]))
    have henter := hp.enter ⟨name, hid, hid'⟩ limits.maxDepth.toNat 0 args
    simp only [run_of_opening, opening, hid, hid']
    generalize p.enter _ _ id args = r, p'.enter _ _ id' args = r' at henter ⊢
    cases henter with
    | error hkind => exact .error hkind
    | outOfRange fault => exact .outOfRange fault
    | ok hentry =>
      cases hentry with
      | printed v => exact .ok rfl
      | @entered ρ n fr fr' hfr =>
        have hlike : Machine.Like p p' ρ n { frame := fr } { frame := fr' } :=
          ⟨hfr, .nil, rfl, rfl, rfl⟩
        obtain ⟨hresult, hsteps, houtput⟩ := hlike.run hp limits
        simp only [outcomeOf, hsteps, houtput]
        generalize (Machine.run p _ _).1 = r, (Machine.run p' _ _).1 = r' at hresult ⊢
        cases hresult with
        | ok heq => exact .ok (by rw [heq])
        | error hkind => exact .error hkind
        | outOfRange fault => exact .outOfRange fault

/-- Every run of one program gives the value, the output and the number of steps
    that it gives with the other, or fails with an error of the same kind. Only with the
    largest limit on steps may the count of them be what ends both. -/
def Program.RunsAs (p p' : Program) : Prop :=
  ∀ name args limits,
    match p.run name args limits, p'.run name args limits with
    | .ok outcome, .ok outcome' => outcome' = outcome
    | .error (.error e), .error (.error e') => e'.kind = e.kind
    | .error .overflow, .error .overflow => limits.maxSteps.toNat + 1 = UInt64.size
    | _, _ => False

/-- Similar programs that are verified run as each other. -/
theorem Program.Similar.runsAs (hp : p.Similar p') (hverify : p.verify = .ok ()) :
    p.RunsAs p' := by
  intro name args limits
  have hrun := hp.run name args limits
  generalize hr : p.run name args limits = r, p'.run name args limits = r' at hrun ⊢
  cases hrun with
  | ok heq => exact heq.symm
  | error hkind => exact hkind
  | outOfRange fault =>
    cases fault with
    | noEntry => exact run_sound hverify hr
    | overflow => exact Program.overflow_of_run hr

end Blockform
