-- SUMMARY: The steps that an activation takes itself (`Machine.ownSteps`): a body without loops of its own comes to no place twice.
import Blockform.Proofs.Cycles
import Blockform.Proofs.Termination
import Blockform.Proofs.WellFormed
import Mathlib.Algebra.GroupWithZero.Nat
import Mathlib.Data.List.Infix

/-!
# Activations

An activation starts when a body is entered and lasts until it returns. In between
it waits for the bodies that it calls. A run is followed for as long as the
activation lasts (`Machine.trace`), and the steps that are taken while no callee
is active are the activation's own (`Machine.ownSteps`).

Own steps lead from one place of the code to the next (`Function.Next`), however
long the callees have taken in between. In a body without loops no place is come
to twice, and there are as many places as instructions.
-/

namespace Blockform

open Relation

/-! ## Places -/

/-- Where a frame is in the code: its block, and the operations that are still to
    come. -/
def Frame.place (fr : Frame) : Block × List Op := (fr.block, fr.rest)

namespace Function

variable {f : Function} {x y : Block × List Op}

/-- From one place of the code to the next: behind an operation, or to the start of a
    block. -/
inductive Next (f : Function) : Block × List Op → Block × List Op → Prop where
  | op {b : Block} {op : Op} {rest : List Op} : Next f (b, op :: rest) (b, rest)
  | jump {b b' : Block} {t : Terminator} {target : BlockId} (ht : b.terminator = some t)
    (htarget : target ∈ t.successors) (hb : f.block? target = some b') :
    Next f (b, []) (b', b'.ops)

/-- The places of the code: one before each operation, and one at the end of each
    block. -/
def places (f : Function) : List (Block × List Op) :=
  f.blocks.flatMap fun b => b.ops.tails.map fun rest => (b, rest)

theorem mem_places : x ∈ f.places ↔ x.1 ∈ f.blocks ∧ x.2 <:+ x.1.ops := by
  obtain ⟨b, rest⟩ := x
  simp [places, List.mem_tails]

theorem length_places (h : ∀ b ∈ f.blocks, b.isTerminated = true) :
    f.places.length = f.instructionCount := by
  have hcount : f.blocks.countP Block.isTerminated = f.blocks.length := List.countP_eq_length.mpr h
  rw [instructionCount, hcount, places, ops]
  generalize f.blocks = blocks
  induction blocks with
  | nil => rfl
  | cons b blocks ih =>
    simp only [List.flatMap_cons, List.length_append, List.length_map, List.length_tails,
      List.length_cons, ih]
    omega

theorem Next.mem_places (h : f.Next x y) (hx : x ∈ f.places) : y ∈ f.places := by
  rw [Function.mem_places] at hx ⊢
  cases h with
  | op => exact ⟨hx.1, (List.suffix_cons _ _).trans hx.2⟩
  | jump _ _ hb => exact ⟨List.mem_of_getElem? hb, List.suffix_rfl⟩

/-- What comes behind a place is later in the same block, or in a block that control
    flows to. -/
theorem flowsTo_of_next (h : TransGen f.Next x y) {i : BlockId} (hi : f.block? i = some x.1) :
    (y.1 = x.1 ∧ y.2.length < x.2.length) ∨
      ∃ j, f.block? j = some y.1 ∧ TransGen (FlowsTo f.blocks) i j := by
  induction h with
  | single hxy =>
    cases hxy with
    | op => exact .inl ⟨rfl, Nat.lt_succ_self _⟩
    | jump ht htarget hb => exact .inr ⟨_, hb, .single ⟨_, _, hi, ht, htarget⟩⟩
  | tail _ hyz ih =>
    rcases ih with ⟨hblock, hlength⟩ | ⟨j, hj, hflows⟩
    · cases hyz with
      | op => exact .inl ⟨hblock, Nat.lt_of_succ_lt hlength⟩
      | jump ht htarget hb =>
        rw [← hblock] at hi
        exact .inr ⟨_, hb, .single ⟨_, _, hi, ht, htarget⟩⟩
    · cases hyz with
      | op => exact .inr ⟨j, hj, hflows⟩
      | jump ht htarget hb => exact .inr ⟨_, hb, hflows.tail ⟨_, _, hj, ht, htarget⟩⟩

/-- In straight code no place comes behind itself. -/
theorem Straight.not_next (h : f.Straight) (hx : x ∈ f.places) : ¬ TransGen f.Next x x := by
  intro hcycle
  obtain ⟨i, hi⟩ := List.mem_iff_getElem?.mp (Function.mem_places.mp hx).1
  rcases flowsTo_of_next hcycle (i := ⟨i⟩) hi with ⟨-, hlt⟩ | ⟨j, hj, hflows⟩
  · exact Nat.lt_irrefl _ hlt
  · have hlt := (List.getElem?_eq_some_iff.mp hi).1
    have heq : i = j.val := (List.getElem?_inj hlt h.distinct).mp (hi.trans hj.symm)
    subst heq
    exact h.acyclic _ hflows

/-- A way through straight code comes to no place twice. -/
theorem Straight.nodup (h : f.Straight) {l : List (Block × List Op)} (hl : l.IsChain f.Next)
    (hhead : ∀ x ∈ l.head?, x ∈ f.places) : l.Nodup ∧ l ⊆ f.places := by
  have hplaces : ∀ x ∈ l, x ∈ f.places := by
    induction l with
    | nil => nofun
    | cons x l ih =>
      have hx : x ∈ f.places := hhead x rfl
      rw [List.isChain_cons] at hl
      exact List.forall_mem_cons.mpr ⟨hx, ih hl.2 fun y hy => (hl.1 y hy).mem_places hx⟩
  have hbehind : l.Pairwise (TransGen f.Next) := (hl.imp fun _ _ => .single).pairwise
  refine ⟨hbehind.imp_of_mem fun {x y} hx _ hxy heq => ?_, hplaces⟩
  subst heq
  exact h.not_next (hplaces x hx) hxy

end Function

/-! ## Following an activation -/

/-- The machine after a step. -/
def Step.machine : Step → Machine
  | .running m => m
  | .halted _ m => m

namespace Machine

variable {p : Program} {limits : ExecOptions} {m m' : Machine} {fr : Frame} {depth n : Nat}

/-- Where the active frame is in the code. -/
def place (m : Machine) : Block × List Op := m.frame.place

/-- The machines that a run goes through in a number of steps, for as long as no fewer
    frames wait than at the start of an activation. -/
def trace (p : Program) (limits : ExecOptions) (depth : Nat) : Nat → Machine → List Machine
  | 0, _ => []
  | n + 1, m =>
    if m.callers.length < depth then []
    else
      m :: match m.advance p limits with
        | .running m' => trace p limits depth n m'
        | .halted .. => []

/-- The machines of the trace in which the activation itself is active. -/
def ownTrace (p : Program) (limits : ExecOptions) (depth n : Nat) (m : Machine) : List Machine :=
  (m.trace p limits depth n).filter fun m' => m'.callers.length = depth

/-- The frame of an activation, while it is active or waits. -/
def frameAt (m : Machine) (depth : Nat) : Option Frame := m.frames.reverse[depth]?

theorem frameAt_active (h : m.callers.length = depth) : m.frameAt depth = some m.frame := by
  simp [frameAt, frames, ← h]

theorem frameAt_waiting (h : depth < m.callers.length) :
    m.frameAt depth = (m.callers.map Prod.snd).reverse[depth]? := by
  rw [frameAt, frames, List.reverse_cons]
  exact List.getElem?_append_left (by simpa)

theorem depth_le_of_frameAt (h : m.frameAt depth = some fr) : depth ≤ m.callers.length := by
  have hlt := (List.getElem?_eq_some_iff.mp h).1
  simpa [frames, Nat.lt_succ_iff] using hlt

theorem frameAt_eq_of_callers (hcallers : m'.callers = m.callers)
    (hdepth : depth < m.callers.length) : m'.frameAt depth = m.frameAt depth := by
  rw [frameAt_waiting hdepth, frameAt_waiting (hcallers ▸ hdepth), hcallers]

/-- While the activation waits, its frame stays; when the last callee returns, it gets
    a result. -/
theorem frameAt_of_waiting (hfr : m.frameAt depth = some fr) (hdepth : depth < m.callers.length)
    (h : m.advance p limits = .running m') :
    ∃ fr', m'.frameAt depth = some fr' ∧ fr'.function = fr.function ∧ fr'.place = fr.place := by
  cases does_running h with
  | compute _ _ _ => exact ⟨fr, (frameAt_eq_of_callers (by rfl) hdepth).trans hfr, rfl, rfl⟩
  | store _ _ => exact ⟨fr, (frameAt_eq_of_callers (by rfl) hdepth).trans hfr, rfl, rfl⟩
  | print _ _ _ => exact ⟨fr, (frameAt_eq_of_callers (by rfl) hdepth).trans hfr, rfl, rfl⟩
  | jump _ _ _ _ => exact ⟨fr, (frameAt_eq_of_callers (by rfl) hdepth).trans hfr, rfl, rfl⟩
  | enter _ _ _ =>
    refine ⟨fr, ?_, rfl, rfl⟩
    rw [frameAt_waiting hdepth] at hfr
    rw [frameAt_waiting (Nat.lt_succ_of_lt hdepth), List.map_cons, List.reverse_cons,
      List.getElem?_append_left (by simpa)]
    exact hfr
  | @ret value v dest waiting callers _ _ _ hcallers =>
    rw [frameAt_waiting hdepth, hcallers, List.map_cons, List.reverse_cons] at hfr
    rw [hcallers] at hdepth
    rcases Nat.lt_or_eq_of_le (Nat.le_of_lt_succ hdepth) with hlt | heq
    · rw [List.getElem?_append_left (by simpa)] at hfr
      exact ⟨fr, (frameAt_waiting hlt).trans hfr, rfl, rfl⟩
    · obtain rfl : waiting = fr := by simpa [heq] using hfr
      exact ⟨waiting.define dest v, frameAt_active heq.symm, rfl, rfl⟩

/-- A step of the activation's own goes to the next place, or leaves the activation. -/
theorem frameAt_of_active (hdepth : m.callers.length = depth)
    (h : m.advance p limits = .running m') :
    m'.callers.length < depth ∨
      ∃ fr', m'.frameAt depth = some fr' ∧ fr'.function = m.frame.function ∧
        m.frame.function.Next m.place fr'.place := by
  have hop {op : Op} {rest : List Op} (hrest : m.frame.rest = op :: rest) :
      m.frame.function.Next m.place (m.frame.block, rest) := by
    rw [place, Frame.place, hrest]
    exact .op
  cases does_running h with
  | compute hrest _ _ => exact .inr ⟨_, frameAt_active hdepth, rfl, hop hrest⟩
  | store hrest _ => exact .inr ⟨_, frameAt_active hdepth, rfl, hop hrest⟩
  | print hrest _ _ => exact .inr ⟨_, frameAt_active hdepth, rfl, hop hrest⟩
  | @enter dest callee args rest values fr hrest _ _ =>
    refine .inr ⟨{ m.frame with rest }, ?_, rfl, hop hrest⟩
    rw [frameAt_waiting (Nat.lt_succ_of_le (Nat.le_of_eq hdepth.symm))]
    simp [← hdepth]
  | jump hrest ht htarget hb =>
    refine .inr ⟨_, frameAt_active hdepth, rfl, ?_⟩
    rw [place, Frame.place, hrest]
    exact .jump ht htarget hb
  | ret _ _ _ hcallers =>
    rw [hcallers, List.length_cons] at hdepth
    exact .inl (Nat.lt_of_succ_le (Nat.le_of_eq hdepth))

theorem ownTrace_succ (hle : depth ≤ m.callers.length) (n : Nat) :
    m.ownTrace p limits depth (n + 1) =
      (if m.callers.length = depth then [m] else []) ++
        match m.advance p limits with
        | .running m' => m'.ownTrace p limits depth n
        | .halted .. => [] := by
  rw [ownTrace, trace, if_neg (Nat.not_lt_of_le hle), List.filter_cons]
  by_cases h : m.callers.length = depth <;> cases m.advance p limits <;> simp [h, ownTrace]

theorem ownTrace_left (h : m.callers.length < depth) (n : Nat) :
    m.ownTrace p limits depth n = [] := by
  cases n with
  | zero => rfl
  | succ n => rw [ownTrace, trace, if_pos h, List.filter_nil]

/-- The steps of an activation's own lead from one place to the next, starting from
    where its frame is. -/
theorem ownTrace_follows (hfr : m.frameAt depth = some fr) (n : Nat) :
    ((m.ownTrace p limits depth n).map place).IsChain fr.function.Next ∧
      ∀ x ∈ ((m.ownTrace p limits depth n).map place).head?, x = fr.place := by
  induction n generalizing m fr with
  | zero => exact ⟨.nil, nofun⟩
  | succ n ih =>
    have hle := depth_le_of_frameAt hfr
    rw [ownTrace_succ hle]
    rcases Nat.lt_or_eq_of_le hle with hlt | heq
    · rw [if_neg (Nat.ne_of_gt hlt), List.nil_append]
      cases hadvance : m.advance p limits with
      | halted r m' => exact ⟨.nil, nofun⟩
      | running m' =>
        obtain ⟨fr', hfr', hfunction, hplace⟩ := frameAt_of_waiting hfr hlt hadvance
        rw [← hfunction, ← hplace]
        exact ih hfr'
    · obtain rfl : m.frame = fr := Option.some.inj ((frameAt_active heq.symm).symm.trans hfr)
      rw [if_pos heq.symm, List.singleton_append, List.map_cons, List.isChain_cons]
      refine ⟨?_, fun x hx => (Option.some.inj hx).symm⟩
      cases hadvance : m.advance p limits with
      | halted r m' => exact ⟨nofun, .nil⟩
      | running m' =>
        rcases frameAt_of_active heq.symm hadvance with hleft | ⟨fr', hfr', hfunction, hnext⟩
        · simp only [ownTrace_left hleft]
          exact ⟨nofun, .nil⟩
        · obtain ⟨hchain, hhead⟩ := ih hfr'
          rw [hfunction] at hchain
          exact ⟨fun x hx => hhead x hx ▸ hnext, hchain⟩

/-- The steps that the activation of the active frame takes itself, by the machines
    that take them. -/
def ownSteps (p : Program) (limits : ExecOptions) (n : Nat) (m : Machine) : List Machine :=
  m.ownTrace p limits m.callers.length n

/-- How far these steps have moved the count of steps. -/
def ownCount (p : Program) (limits : ExecOptions) (n : Nat) (m : Machine) : Nat :=
  ((m.ownSteps p limits n).map fun m' =>
    ((m'.advance p limits).machine.steps - m'.steps).toNat).sum

/-- The blocks that the activation of the active frame comes to, in order: those of
    which all operations are still to come. -/
def entered (p : Program) (limits : ExecOptions) (n : Nat) (m : Machine) : List Block :=
  ((m.ownSteps p limits n).filter fun m' => m'.frame.rest = m'.frame.block.ops).map
    fun m' => m'.frame.block

theorem advance_steps (p : Program) (limits : ExecOptions) (m : Machine) :
    (m.advance p limits).machine.steps = m.steps + 1 := by
  cases hadvance : m.advance p limits with
  | running m' => exact steps_of_running hadvance
  | halted r m' => exact steps_of_halted hadvance

/-- Each step is counted once. -/
theorem ownCount_eq_length : m.ownCount p limits n = (m.ownSteps p limits n).length := by
  have hone (m' : Machine) : ((m'.advance p limits).machine.steps - m'.steps).toNat = 1 := by
    rw [advance_steps, UInt64.add_comm, UInt64.add_sub_cancel]
    rfl
  simp [ownCount, hone]

/-! ## Straight code -/

variable {f : Function}

theorem ownSteps_nodup (hf : f.Straight) (hfunction : m.frame.function = f)
    (hplace : m.place ∈ f.places) (n : Nat) :
    ((m.ownSteps p limits n).map place).Nodup ∧
      ((m.ownSteps p limits n).map place) ⊆ f.places := by
  have hactive : m.frameAt m.callers.length = some m.frame := frameAt_active rfl
  obtain ⟨hchain, hhead⟩ := ownTrace_follows hactive n
  rw [hfunction] at hchain
  exact hf.nodup hchain fun x hx => hhead x hx ▸ hplace

theorem entered_nodup (h : ((m.ownSteps p limits n).map place).Nodup) :
    (m.entered p limits n).Nodup := by
  have hstarts : (m.entered p limits n).map (fun b => (b, b.ops)) =
      ((m.ownSteps p limits n).filter fun m' => m'.frame.rest = m'.frame.block.ops).map place := by
    rw [entered, List.map_map]
    refine List.map_congr_left fun m' hm' => ?_
    have hrest : m'.frame.rest = m'.frame.block.ops := of_decide_eq_true (List.mem_filter.mp hm').2
    rw [Function.comp_apply, place, Frame.place, hrest]
  have hsublist : ((m.ownSteps p limits n).filter fun m' =>
      m'.frame.rest = m'.frame.block.ops).Sublist (m.ownSteps p limits n) := List.filter_sublist
  exact .of_map _ (hstarts ▸ h.sublist (hsublist.map _))

/-- No block is come to twice, and no more steps are taken than there are
    instructions. -/
theorem passes_once (hf : f.Straight) (hends : ∀ b ∈ f.blocks, b.isTerminated = true)
    (hfunction : m.frame.function = f) (hplace : m.place ∈ f.places) (n : Nat) :
    (m.entered p limits n).Nodup ∧ m.ownCount p limits n ≤ f.instructionCount := by
  obtain ⟨hnodup, hplaces⟩ : ((m.ownSteps p limits n).map place).Nodup ∧
      ((m.ownSteps p limits n).map place) ⊆ f.places :=
    ownSteps_nodup hf hfunction hplace n
  have hle := hnodup.length_le_of_subset hplaces
  rw [List.length_map, Function.length_places hends] at hle
  exact ⟨entered_nodup hnodup, ownCount_eq_length ▸ hle⟩

end Machine

/-! ## Programs of trees -/

variable {tree : Node} {options : LowerOptions} {p : Program}

/-- Control-flow cycles come from loops only. In every function of a lowered program
    a cycle leads through the test of a loop. So an activation of a definition
    without loops of its own comes to no block twice and, its callees aside, takes
    no more steps than the function has instructions. -/
theorem lowered_cycles_through_tests (h : lower tree options = .ok p) :
    (∀ f ∈ p.functions, ∀ start path, f.Cycle start path → ∃ i ∈ path, TestAt f.blocks i) ∧
    ∀ body, tree.kind = .module body → ∀ d ∈ moduleDefinitions body options,
      blockLoops d.body = false →
      ∃ id f, p.lookup d.name = some id ∧ p.function? id = some f ∧ f.blocks ≠ [] ∧
        ∀ (limits : ExecOptions) (active : Nat) (args : List Int32) (m : Machine),
          p.enter limits.maxDepth.toNat active id args = .ok (.entered m.frame) → ∀ n,
          (m.entered p limits n).Nodup ∧ m.ownCount p limits n ≤ f.instructionCount := by
  refine ⟨fun f hf start path hcycle => ?_, fun body hbody d hd hloops => ?_⟩
  · exact (lower_built h hf hcycle.blocks_ne_nil).exists_test hcycle
  · obtain ⟨kind, location, span⟩ := tree
    obtain rfl : kind = .module body := hbody
    obtain ⟨id, f, hid, hf, hblocks, hstraight⟩ :=
      ((lower_covers h).1.compiled d hd).straight hloops
    refine ⟨id, f, hid, hf, hblocks, fun limits active args m henter n => ?_⟩
    obtain ⟨g, entry, rest, hg, hentry, -, -, hframe⟩ := Program.enter_eq_entered.mp henter
    cases hf.symm.trans hg
    have hends (b : Block) (hb : b ∈ f.blocks) : b.isTerminated = true := by
      obtain ⟨t, ht, -⟩ := (Function.verified_of_blocks (lower_verify h) hf hblocks).ends b hb
      simp [Block.isTerminated, ht]
    have hplace : m.place ∈ f.places := by
      rw [Machine.place, hframe, Function.mem_places]
      exact ⟨by simp [Frame.place, Frame.start, hentry], List.suffix_rfl⟩
    have hfunction : m.frame.function = f := by
      rw [hframe]
      rfl
    exact m.passes_once hstraight hends hfunction hplace n

/-- A loop beside a function with a branch. -/
def signTree : Node :=
  .module [
    .functionDef "sign" ["n"] [.ifElse (.name "n") [.ret (.int 1)] [.ret (.int 0)]],
    .whileLoop (.int 1) []]

/-- The program of this tree. -/
def signProgram : Program where
  functions := [
    .declaration "print" ⟨1⟩,
    { name := "main", signature := ⟨0⟩,
      blocks := [
        { label := "entry", terminator := some (.br ⟨1⟩) },
        { label := "while.test", ops := [.icmp ⟨0⟩ .ne (.int 0) (.int 1)]
          terminator := some (.condBr (.inst ⟨0⟩ .i1) ⟨2⟩ ⟨3⟩) },
        { label := "while.body", terminator := some (.br ⟨1⟩) },
        { label := "while.end", terminator := some (.ret (.int 0)) }] },
    { name := "sign", signature := ⟨1⟩, params := ["n"],
      blocks := [
        { label := "entry", ops := [.icmp ⟨0⟩ .ne (.int 0) (.param 0)]
          terminator := some (.condBr (.inst ⟨0⟩ .i1) ⟨1⟩ ⟨2⟩) },
        { label := "if.then", terminator := some (.ret (.int 1)) },
        { label := "if.else", terminator := some (.ret (.int 0)) }] }]

/-- The loop is a cycle, and goes through its test; the function is passed through in
    no more than four steps. -/
theorem signTree_cycles :
    lower signTree {} = .ok signProgram ∧
      (∃ f ∈ signProgram.functions, f.Cycle ⟨1⟩ [⟨2⟩, ⟨1⟩] ∧
        ∃ i ∈ [⟨2⟩, ⟨1⟩], TestAt f.blocks i) ∧
      ∃ m : Machine, signProgram.enter 1 0 ⟨2⟩ [5] = .ok (.entered m.frame) ∧
        ∀ n, (m.entered signProgram { maxDepth := 1 } n).Nodup ∧
          m.ownCount signProgram { maxDepth := 1 } n ≤ 4 := by
  have hlowered : lower signTree {} = .ok signProgram := by decide +kernel
  obtain ⟨hcycles, hpasses⟩ := lowered_cycles_through_tests hlowered
  refine ⟨hlowered, ⟨signProgram.functions[1], by simp, ?_⟩, ?_⟩
  · have hback : List.IsChain (FlowsTo signProgram.functions[1].blocks) [⟨2⟩, ⟨1⟩] :=
      .cons_cons ⟨_, _, rfl, rfl, by decide⟩ (.singleton _)
    have hcycle : signProgram.functions[1].Cycle ⟨1⟩ [⟨2⟩, ⟨1⟩] :=
      ⟨.cons_cons ⟨_, _, rfl, rfl, by decide⟩ hback, rfl⟩
    exact ⟨hcycle, hcycles _ (by simp) _ _ hcycle⟩
  · obtain ⟨id, f, hid, hf, -, hsteps⟩ := hpasses _ rfl
      ⟨"sign", ["n"], [.ifElse (.name "n") [.ret (.int 1)] [.ret (.int 0)]]⟩
      (.tail _ (.head _)) rfl
    have hlookup : signProgram.lookup "sign" = some ⟨2⟩ := by decide
    cases hlookup.symm.trans hid
    cases hf
    have henter : signProgram.enter 1 0 ⟨2⟩ [5] = .ok (.entered
        (.start signProgram.functions[2] [5] signProgram.functions[2].blocks[0])) := rfl
    exact ⟨{ frame := _ }, henter, hsteps { maxDepth := 1 } 0 [5] { frame := _ } henter⟩

/-- The activation comes to the first arm only. -/
example :
    let frame := Frame.start signProgram.functions[2] [5] signProgram.functions[2].blocks[0]
    (({ frame } : Machine).entered signProgram {} 9).map Block.label = ["entry", "if.then"] := by
  decide +kernel

end Blockform
