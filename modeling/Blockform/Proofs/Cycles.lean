-- SUMMARY: The control flow of lowered functions: every cycle leads through the test of a loop (`Builder.Acyclic`).
import Blockform.Proofs.Executing
import Blockform.Proofs.Labels
import Mathlib.Data.List.Chain
import Mathlib.Logic.Relation

/-!
# Cycles

The numbers of blocks are no order of control flow: the blocks inside of a second
arm are newer than the joining block that they go to. What orders blocks is when
they are ended. A block is ended by a jump to blocks that are still open, and as
an open block leads nowhere, that closes no cycle (`Builder.Acyclic.close`). Only
the jump behind the body of a loop goes back, and its target is the test of the
loop.
-/

namespace Blockform

open Relation

/-! ## Control flow -/

/-- Control may go from one block of a table to another. -/
def FlowsTo (blocks : List Block) (i j : BlockId) : Prop :=
  ∃ k t, blocks[i.val]? = some k ∧ k.terminator = some t ∧ j ∈ t.successors

/-- The block of the number is the test of a loop. -/
def TestAt (blocks : List Block) (i : BlockId) : Prop :=
  ∃ k, blocks[i.val]? = some k ∧ k.CreatedFor "while.test"

/-- Control may go on from a block that is not the test of a loop. -/
def FlowsOn (blocks : List Block) (i j : BlockId) : Prop := FlowsTo blocks i j ∧ ¬ TestAt blocks i

/-- A path on which control may flow from each block to the next, and which ends
    where it has started. -/
structure Function.Cycle (f : Function) (start : BlockId) (path : List BlockId) : Prop where
  flows : List.IsChain (FlowsTo f.blocks) (start :: path)
  back : path.getLast? = some start

/-! ## Functions under construction -/

namespace Builder

variable {b b' : Builder} {i j : BlockId}

/-- Every cycle leads through the test of a loop. -/
def Acyclic (b : Builder) : Prop := ∀ i, ¬ TransGen (FlowsOn b.blocks) i i

theorem IsOpen.of_addBlock {label : String} (h : (b.addBlock label).IsOpen)
    (hcursor : b.HasCursor) : b.IsOpen :=
  (openAt_addBlock.mp h).resolve_right (Nat.ne_of_lt hcursor)

theorem OpenAt.not_flowsTo (h : b.OpenAt i.val) : ¬ FlowsTo b.blocks i j := by
  rintro ⟨k, t, hk, ht, -⟩
  obtain ⟨k', hk', hnone⟩ := h
  cases hk.symm.trans hk'
  cases hnone.symm.trans ht

/-- What is added to a block does not change where it leads. -/
theorem flowsTo_of_emitted {ops : List Op} (h : FlowsTo (b.emitted ops).blocks i j) :
    FlowsTo b.blocks i j := by
  obtain ⟨k, t, hk, ht, hj⟩ := h
  rw [Builder.emitted, List.getElem?_modify, Option.map_eq_map, Option.map_eq_some_iff] at hk
  obtain ⟨k₀, hk₀, rfl⟩ := hk
  refine ⟨k₀, t, hk₀, ?_, hj⟩
  split at ht <;> exact ht

theorem flowsTo_of_addBlock {label : String} (h : FlowsTo (b.addBlock label).blocks i j) :
    FlowsTo b.blocks i j := by
  obtain ⟨k, t, hk, ht, hj⟩ := h
  rcases Nat.lt_or_ge i.val b.blocks.length with hi | hi
  · exact ⟨k, t, (List.getElem?_append_left hi).symm.trans hk, ht, hj⟩
  · -- The new block has no terminator.
    have hmem := List.mem_of_getElem? ((List.getElem?_append_right hi).symm.trans hk)
    cases List.mem_singleton.mp hmem
    cases ht

/-- The test of a loop stays what it is. -/
theorem Grows.testAt (h : b.Grows b') (htest : TestAt b.blocks i) : TestAt b'.blocks i := by
  obtain ⟨k, hk, uses, hlabel⟩ := htest
  obtain ⟨k', hk', hgrows⟩ := h.blocks _ k hk
  exact ⟨k', hk', uses, hgrows.label.trans hlabel⟩

theorem testAt_addBlock (b : Builder) :
    TestAt (b.addBlock "while.test").blocks ⟨b.blocks.length⟩ :=
  ⟨{ label := b.freshLabel "while.test" }, by simp [addBlock], _, b.freshLabel_eq _⟩

namespace Acyclic

/-- No cycle is closed by new ways that lead to an open block, or that start from or
    lead to the test of a loop. -/
theorem of_grows (hb : b.Acyclic) (hgrows : b.Grows b')
    (hnew : ∀ i j, FlowsTo b'.blocks i j → FlowsTo b.blocks i j ∨ TestAt b'.blocks i ∨
      b'.OpenAt j.val ∨ TestAt b'.blocks j) : b'.Acyclic := by
  have hstep {i j : BlockId} (hij : FlowsOn b'.blocks i j) :
      FlowsOn b.blocks i j ∨ ∀ k, ¬ FlowsOn b'.blocks j k := by
    obtain ⟨hflows, hno⟩ := hij
    rcases hnew i j hflows with hold | htest | hopen | htest
    · exact .inl ⟨hold, mt hgrows.testAt hno⟩
    · exact absurd htest hno
    · exact .inr fun k hjk => hopen.not_flowsTo hjk.1
    · exact .inr fun k hjk => hjk.2 htest
  have hpath {i j : BlockId} (hij : TransGen (FlowsOn b'.blocks) i j) :
      TransGen (FlowsOn b.blocks) i j ∨ ∀ k, ¬ FlowsOn b'.blocks j k := by
    induction hij with
    | single hij => exact (hstep hij).imp_left .single
    | tail _ hjk ih =>
      rcases ih with hold | hstuck
      · exact (hstep hjk).imp_left hold.tail
      · exact absurd hjk (hstuck _)
  intro i hcycle
  rcases hpath hcycle with hold | hstuck
  · exact hb i hold
  · obtain ⟨j, hij, -⟩ := TransGen.head'_iff.mp hcycle
    exact hstuck j hij

theorem emitted (hb : b.Acyclic) (hopen : b.IsOpen) (ops : List Op) : (b.emitted ops).Acyclic :=
  hb.of_grows (Framed.emitted hopen ops).toGrows fun _ _ hij => .inl (flowsTo_of_emitted hij)

theorem emits (hb : b.Acyclic) (h : b.Emits b') : b'.Acyclic := by
  obtain ⟨ops, rfl, rfl | hopen⟩ := h
  · rwa [emitted_nil]
  · exact hb.emitted hopen ops

theorem addBlock (hb : b.Acyclic) (label : String) : (b.addBlock label).Acyclic :=
  hb.of_grows (Framed.addBlock b label).toGrows fun _ _ hij => .inl (flowsTo_of_addBlock hij)

theorem withSlot (hb : b.Acyclic) (name : String) : (b.withSlot name).Acyclic := by
  unfold Builder.withSlot ensureSlot
  cases b.slot? name <;> exact hb

/-- Ending the block under the cursor changes only where that block leads. -/
theorem flowsTo_close {t : Terminator} (h : FlowsTo (b.close t).blocks i j) :
    FlowsTo b.blocks i j ∨ (i = b.cursor ∧ j ∈ t.successors) := by
  obtain ⟨k, t', hk, ht, hj⟩ := h
  rw [Builder.close, List.getElem?_modify, Option.map_eq_map, Option.map_eq_some_iff] at hk
  obtain ⟨k₀, hk₀, rfl⟩ := hk
  split at ht
  · rename_i hi
    cases ht
    exact .inr ⟨congrArg BlockId.mk hi.symm, hj⟩
  · exact .inl ⟨k₀, t', hk₀, ht, hj⟩

/-- A block may be ended by a jump to blocks that are still open behind it, or to the
    test of a loop. -/
theorem close (hb : b.Acyclic) (hopen : b.IsOpen) {t : Terminator}
    (ht : ∀ j ∈ t.successors, (b.close t).OpenAt j.val ∨ TestAt b.blocks j) :
    (b.close t).Acyclic := by
  have hgrows := (Framed.close hopen t).toGrows
  refine hb.of_grows hgrows fun i j hij => ?_
  rcases flowsTo_close hij with hold | ⟨-, hj⟩
  · exact .inl hold
  · exact .inr (.inr ((ht j hj).imp_right hgrows.testAt))

theorem br (hb : b.Acyclic) (hopen : b.IsOpen) {target : BlockId}
    (htarget : (b.close (.br target)).OpenAt target.val ∨ TestAt b.blocks target) :
    (b.close (.br target)).Acyclic := by
  refine hb.close hopen fun j hj => ?_
  rwa [List.mem_singleton.mp hj]

/-- The test of a loop may be ended in any way. -/
theorem close_test (hb : b.Acyclic) (hopen : b.IsOpen) (htest : TestAt b.blocks b.cursor)
    (t : Terminator) : (b.close t).Acyclic := by
  have hgrows := (Framed.close hopen t).toGrows
  refine hb.of_grows hgrows fun i j hij => ?_
  rcases flowsTo_close hij with hold | ⟨rfl, -⟩
  · exact .inl hold
  · exact .inr (.inl (hgrows.testAt htest))

theorem ret (hb : b.Acyclic) (hopen : b.IsOpen) (v : Value) : (b.close (.ret v)).Acyclic :=
  hb.close hopen nofun

theorem start (name : String) (params : List String) : (Builder.start name params).Acyclic := by
  have hempty : Builder.Acyclic { name, params } := by
    intro i hcycle
    obtain ⟨j, ⟨⟨k, t, hk, -⟩, -⟩, -⟩ := TransGen.head'_iff.mp hcycle
    cases hk
  exact hempty.addBlock "entry"

end Acyclic

end Builder

namespace Lower

open Builder

variable {s s' : Workspace} {v : Value}

/-! ## Constructs -/

/-- A step closes no cycle but through the test of a loop. -/
def StepAcyclic (x : Lower Unit) : Prop :=
  ∀ s s', x s = .ok () s' → s.builder.HasCursor → s.builder.Acyclic → s'.builder.Acyclic

theorem write_acyclic {name : String} (h : build (Build.write name v) s = .ok () s')
    (hs : s.builder.Acyclic) : s'.builder.Acyclic := by
  obtain ⟨b, hwrite, rfl⟩ := build_eq_ok.mp h
  obtain ⟨w, b₁, hint, hopen, rfl⟩ := Build.write_eq_ok.mp hwrite
  exact ((hs.emits (Build.toInt_emits hint)).withSlot name).emitted (isOpen_withSlot.mpr hopen) _

theorem ret_acyclic (h : build (Build.ret v) s = .ok () s') (hs : s.builder.Acyclic) :
    s'.builder.Acyclic := by
  obtain ⟨b, hret, rfl⟩ := build_eq_ok.mp h
  obtain ⟨w, b₁, hint, hopen, rfl⟩ := Build.ret_eq_ok.mp hret
  exact (hs.emits (Build.toInt_emits hint)).ret hopen w

theorem reopen_acyclic (h : reopen s = .ok () s') (hs : s.builder.Acyclic) :
    s'.builder.Acyclic := by
  obtain ⟨-, ⟨-, rfl⟩ | ⟨-, rfl⟩⟩ := reopen_eq_ok.mp h
  · exact hs
  · exact hs.addBlock _

/-- The joining block is open behind an arm that goes to it. -/
theorem fallThrough_acyclic {join join' : Option BlockId} (h : fallThrough join s = .ok join' s')
    (hjoin : ∀ target, join' = some target → s'.builder.OpenAt target.val)
    (hs : s.builder.Acyclic) : s'.builder.Acyclic := by
  obtain ⟨-, ⟨-, -, rfl⟩ | ⟨hopen, target, s₁, rfl, rfl, hjoined⟩⟩ := fallThrough_eq_ok.mp h
  · exact hs
  · have htarget := hjoin target rfl
    rcases hjoined with ⟨-, rfl⟩ | ⟨-, -, rfl⟩
    · exact hs.br hopen (.inl htarget)
    · exact (hs.addBlock _).br (hopen.addBlock _) (.inl htarget)

theorem branch_acyclic {test : Lower Value} {body orelse : Lower Unit}
    (hemits : ∀ {s v s'}, test s = .ok v s' → s.builder.Emits s'.builder)
    (hbody : StepAcyclic body) (hsettles : StepSettles body) (horelse : StepAcyclic orelse)
    (hsettles' : StepSettles orelse) : StepAcyclic (branch test body orelse) := by
  intro s s' h hcursor hs
  cases branch_run h with
  | @mk s₁ s₂ s₃ s₄ s₅ cond join join' hcond hopen hthen hjoin helse hjoin' =>
    have hcursor₁ : s₁.builder.HasCursor := (hemits hcond).settles.toFramed.hasCursor hcursor
    have hopen₁ : s₁.builder.IsOpen :=
      (hopen.of_addBlock ((Framed.addBlock _ _).hasCursor hcursor₁)).of_addBlock hcursor₁
    obtain ⟨hfirst, hsecond, hlast, -⟩ :=
      arms_fresh hopen₁ hthen hjoin helse hjoin' hsettles hsettles'
    let s₀ := s₁.withArms.closed (.condBr cond s₁.nextBlock s₁.secondBlock)
    have hs₀ : s₀.builder.Acyclic := by
      have harms : s₁.withArms.builder.Acyclic := ((hs.emits (hemits hcond)).addBlock _).addBlock _
      refine harms.close hopen fun j hj => .inl ?_
      rcases List.mem_pair.mp hj with rfl | rfl
      · exact hfirst.openAt
      · exact secondArm_openAt hcursor₁ _
    have hs₂ : s₂.builder.Acyclic := hbody _ _ hthen hfirst.lt hs₀
    have hjoined : ∀ target, join = some target → s₃.builder.OpenAt target.val := by
      intro target heq
      exact (fallThrough_fresh hjoin (fun _ hnone => by cases hnone) target heq).1.openAt
    have hs₃ : s₃.builder.Acyclic := fallThrough_acyclic hjoin hjoined hs₂
    have hs₄ : s₄.builder.Acyclic := horelse _ _ helse hsecond.lt hs₃
    have hs₅ := fallThrough_acyclic hjoin' (fun target heq => (hlast target heq).openAt) hs₄
    cases join' with
    | none => exact hs₅
    | some target => exact hs₅

/-- The way back is the one to the test. -/
theorem loop_acyclic {test : Lower Value} {body : Lower Unit}
    (hemits : ∀ {s v s'}, test s = .ok v s' → s.builder.Emits s'.builder)
    (hbody : StepAcyclic body) (hsettles : StepSettles body) : StepAcyclic (loop test body) := by
  intro s s' h hcursor hs
  cases loop_run h with
  | @mk s₁ s₂ s₃ cond hopen hcond hrun hcursor₂ hback hexit =>
    let s₀ := s.withLoop.closed (.br s.nextBlock)
    have htest : TestAt s.withLoop.builder.blocks s.nextBlock :=
      ((Framed.addBlock _ _).trans (.addBlock _ _)).toGrows.testAt (testAt_addBlock s.builder)
    have hloop : s.withLoop.builder.Acyclic := ((hs.addBlock _).addBlock _).addBlock _
    have hs₀ : (s₀.movedTo s.nextBlock).builder.Acyclic := hloop.br hopen (.inr htest)
    have htest₀ := (Framed.close hopen (.br s.nextBlock)).toGrows.testAt htest
    have hlength : s.builder.blocks.length + 3 ≤ s₁.builder.blocks.length :=
      Nat.le_trans (Nat.le_of_eq (s.length_withLoop _).symm) (hemits hcond).settles.length
    have hsecond : (s₁.movedTo s.secondBlock).builder.HasCursor :=
      Nat.lt_of_lt_of_le (Nat.lt_succ_self _) (Nat.le_trans (Nat.le_succ _) hlength)
    have hs₁ : s₁.builder.Acyclic := hs₀.emits (hemits hcond)
    have hs₂ : s₂.builder.Acyclic := hbody _ _ hrun hsecond hs₁
    have htest₂ : TestAt s₂.builder.blocks s.nextBlock := by
      have htest₁ : TestAt s₁.builder.blocks s.nextBlock :=
        (hemits hcond).settles.toGrows.testAt htest₀
      exact (hsettles _ _ hrun).toGrows.testAt htest₁
    obtain ⟨hs₃, htest₃⟩ : s₃.builder.Acyclic ∧ TestAt s₃.builder.blocks s.nextBlock := by
      rcases hback with ⟨hopen₂, rfl⟩ | ⟨-, rfl⟩
      · exact ⟨hs₂.br hopen₂ (.inr htest₂), (Framed.close hopen₂ _).toGrows.testAt htest₂⟩
      · exact ⟨hs₂, htest₂⟩
    have hexit_eq : s₁.builder.cursor = s.nextBlock := (hemits hcond).cursor_eq
    have hs₄ : (s₃.movedTo s₁.builder.cursor).builder.Acyclic := hs₃
    exact hs₄.close_test hexit (hexit_eq ▸ htest₃) _

/-! ## Statements -/

theorem block_acyclic {ns : List Node} (hns : ∀ n ∈ ns, StepAcyclic (statement n)) :
    StepAcyclic (block ns) := by
  induction ns with
  | nil =>
    intro s s' h _ hs
    obtain ⟨-, rfl⟩ := Effect.pure_eq_ok.mp h
    exact hs
  | cons n rest ih =>
    intro s s' h hcursor hs
    rw [List.forall_mem_cons] at hns
    obtain ⟨s₁, s₂, hreopen, hn, hrest⟩ := block_cons_eq_ok.mp h
    have hcursor₁ := (reopen_settles hreopen).toFramed.hasCursor hcursor
    have hcursor₂ := (statement_settles n _ _ hn).toFramed.hasCursor hcursor₁
    exact ih hns.2 _ _ hrest hcursor₂ (hns.1 _ _ hn hcursor₁ (reopen_acyclic hreopen hs))

theorem elseClause_acyclic {ns : List Node} (hns : ∀ n ∈ ns, StepAcyclic (statement n)) :
    StepAcyclic (elseClause ns) := by
  intro s s' h hcursor hs
  cases ns with
  | nil =>
    obtain ⟨-, rfl⟩ := Effect.pure_eq_ok.mp h
    exact hs
  | cons n rest =>
    rw [List.forall_mem_cons] at hns
    rw [elseClause_cons] at h
    have hbuilder := s.shortened_builder (n :: rest).length
    exact hns.1 _ _ h (hbuilder ▸ hcursor) (hbuilder ▸ hs)

theorem statement_acyclic (n : Node) : StepAcyclic (statement n) := by
  induction n using Node.parts_induction with
  | step n ih =>
    obtain ⟨kind, location, span⟩ := n
    intro s s' hrun hcursor hs
    cases statement_run hrun with
    | assign hvalue h => exact write_acyclic h (hs.emits (expr_emits hvalue))
    | expr h => exact hs.emits (expr_emits h)
    | ret hvalue h => exact ret_acyclic h (hs.emits (expr_emits hvalue))
    | retNone h => exact ret_acyclic h hs
    | ifElse h =>
      exact branch_acyclic condition_emits
        (block_acyclic fun n hn => ih n (by simp [Kind.parts, hn]))
        (block_settles fun n _ => statement_settles n)
        (elseClause_acyclic fun n hn => ih n (by simp [Kind.parts, hn]))
        (elseClause_settles fun n _ => statement_settles n) _ _ h hcursor hs
    | whileLoop h =>
      exact loop_acyclic condition_emits
        (block_acyclic fun n hn => ih n (by simp [Kind.parts, hn]))
        (block_settles fun n _ => statement_settles n) _ _ h hcursor hs
    | functionDef h => exact hs
    | value h => exact hs.emits (exprEmits ⟨kind, location, span⟩ _ _ _ h)

/-- What is lowered for a body has no cycle but through the tests of its loops. -/
theorem body_acyclic {ns : List Node} {ctx : Context} {name : String} {params : List String}
    (h : block ns (.start ctx name params) = .ok () s)
    (hend : (s.builder.IsOpen ∧ s' = s.closed (.ret (.int 0))) ∨ (¬ s.builder.IsOpen ∧ s' = s)) :
    s'.builder.Acyclic := by
  have hs : s.builder.Acyclic :=
    block_acyclic (fun n _ => statement_acyclic n) _ _ h Nat.zero_lt_one (.start name params)
  rcases hend with ⟨hopen, rfl⟩ | ⟨-, rfl⟩
  · exact hs.ret hopen _
  · exact hs

end Lower

/-! ## Functions -/

namespace Function

variable {f : Function}

theorem Cycle.blocks_ne_nil {start : BlockId} {path : List BlockId} (h : f.Cycle start path) :
    f.blocks ≠ [] := by
  cases path with
  | nil => cases h.back
  | cons i path =>
    obtain ⟨⟨k, t, hk, -⟩, -⟩ := List.isChain_cons_cons.mp h.flows
    exact List.ne_nil_of_mem (List.mem_of_getElem? hk)

/-- A cycle that leads through no test would lead on from each of its blocks. -/
theorem Cycle.exists_test {start : BlockId} {path : List BlockId} (h : f.Cycle start path)
    (hf : ∀ i, ¬ TransGen (FlowsOn f.blocks) i i) : ∃ i ∈ path, TestAt f.blocks i := by
  by_contra hnone
  have hstart : start ∈ path := List.mem_of_getLast? h.back
  have hno : ∀ i ∈ start :: path, ¬ TestAt f.blocks i := by
    refine List.forall_mem_cons.mpr ⟨fun htest => hnone ⟨start, hstart, htest⟩, ?_⟩
    exact fun i hi htest => hnone ⟨i, hi, htest⟩
  have hon : List.IsChain (TransGen (FlowsOn f.blocks)) (start :: path) :=
    h.flows.imp_of_mem_imp fun i j hi _ hij => .single ⟨hij, hno i hi⟩
  exact hf start (List.rel_of_pairwise_cons hon.pairwise hstart)

/-- Control never comes back to a block, and the blocks can be told apart. -/
structure Straight (f : Function) : Prop where
  distinct : f.blocks.Nodup
  acyclic : ∀ i, ¬ TransGen (FlowsTo f.blocks) i i

/-- Without tests of loops there are no cycles. -/
theorem straight_of_labelled {b : Builder} (hacyclic : b.Acyclic) (hlabelled : b.Labelled false)
    (hf : f.blocks = b.blocks) : f.Straight where
  distinct := hf ▸ .of_map _ hlabelled.distinct
  acyclic i hcycle := by
    have hno (j : BlockId) : ¬ TestAt f.blocks j := by
      rintro ⟨k, hk, htest⟩
      rw [hf] at hk
      exact hlabelled.not_createdFor_test (List.mem_of_getElem? hk) htest
    have hon : TransGen (FlowsOn f.blocks) i i :=
      TransGen.mono (fun i _ hij => ⟨hij, hno i⟩) i i hcycle
    rw [hf] at hon
    exact hacyclic i hon

/-- The cycles of what lowering has built for a definition lead through the tests of
    loops. -/
theorem Built.exists_test (h : f.Built) {start : BlockId} {path : List BlockId}
    (hcycle : f.Cycle start path) : ∃ i ∈ path, TestAt f.blocks i := by
  cases h with
  | mk hbody hcursor hend hfunction =>
    have hacyclic := Lower.body_acyclic hbody hend
    subst hfunction
    exact hcycle.exists_test hacyclic

end Function

/-- A definition without loops of its own has a straight body. -/
theorem Compiled.straight {p : Program} {d : Definition} (h : Compiled p d)
    (hloops : blockLoops d.body = false) :
    ∃ id f, p.lookup d.name = some id ∧ p.function? id = some f ∧ f.blocks ≠ [] ∧ f.Straight := by
  cases h with
  | @mk id ctx s s' hid hbody hcursor hend hfunction hgrows =>
    refine ⟨id, _, hid, hfunction, ?_, ?_⟩
    · exact List.ne_nil_of_length_pos (Lower.ended_length hcursor hend)
    · have hlabelled := Lower.body_labelled hbody hend
      rw [hloops] at hlabelled
      exact Function.straight_of_labelled (Lower.body_acyclic hbody hend) hlabelled rfl

end Blockform
