-- SUMMARY: Which blocks of a lowered function are branched to: all but the entry block and those for what stands behind a terminator (`Builder.Linked`).
import Blockform.Proofs.Cycles

/-!
# Predecessors

A construct creates its blocks before it branches to them, and the blocks of a
loop are branched to only when its body has been lowered. In between, the blocks
that are still to be branched to are known (`Builder.Linked`): whatever is lowered
meanwhile leaves them alone, and branches to blocks of its own. In the end none is
left, so that every block has a predecessor but for the entry block and for the
blocks that hold what stands behind a terminator.
-/

namespace Blockform

/-! ## Blocks -/

/-- Some block branches to the block of the number. -/
def Entered (blocks : List Block) (j : BlockId) : Prop := ∃ i, FlowsTo blocks i j

/-! ## Functions under construction -/

namespace Builder

variable {b b' : Builder} {i j : BlockId} {waiting waiting' : List BlockId} {label : String}

/-- The block may be branched to: it is neither the entry block nor one for what
    stands behind a terminator. -/
def MayEnter (b : Builder) (j : BlockId) : Prop :=
  0 < j.val ∧ ∃ k, b.blocks[j.val]? = some k ∧ ¬ k.CreatedFor "unreachable"

/-- Of the blocks that may be branched to, all are, but for those that wait for
    it. -/
structure Linked (waiting : List BlockId) (b : Builder) : Prop where
  entered : ∀ j, Entered b.blocks j ↔ b.MayEnter j ∧ j ∉ waiting
  exist : ∀ j ∈ waiting, j.val < b.blocks.length

theorem MayEnter.lt (h : b.MayEnter j) : j.val < b.blocks.length := by
  obtain ⟨-, k, hk, -⟩ := h
  exact (List.getElem?_eq_some_iff.mp hk).1

theorem Grows.flowsTo (h : b.Grows b') (hij : FlowsTo b.blocks i j) : FlowsTo b'.blocks i j := by
  obtain ⟨k, t, hk, ht, hj⟩ := hij
  obtain ⟨k', hk', hgrows⟩ := h.blocks _ k hk
  cases hgrows.ended (by simp [ht])
  exact ⟨k, t, hk', ht, hj⟩

theorem Grows.mayEnter (h : b.Grows b') (hj : b.MayEnter j) : b'.MayEnter j := by
  obtain ⟨hpos, k, hk, hlabel⟩ := hj
  obtain ⟨k', hk', hgrows⟩ := h.blocks _ k hk
  refine ⟨hpos, k', hk', ?_⟩
  rwa [Block.CreatedFor, hgrows.label]

/-- A block that was there before is for what it was for. -/
theorem Grows.mayEnter_iff (h : b.Grows b') (hlt : j.val < b.blocks.length) :
    b'.MayEnter j ↔ b.MayEnter j := by
  refine ⟨?_, h.mayEnter⟩
  rintro ⟨hpos, k', hk', hlabel⟩
  have hk : b.blocks[j.val]? = some b.blocks[j.val] := List.getElem?_eq_getElem hlt
  obtain ⟨k'', hk'', hgrows⟩ := h.blocks _ _ hk
  cases hk'.symm.trans hk''
  refine ⟨hpos, _, hk, ?_⟩
  rwa [Block.CreatedFor, ← hgrows.label]

/-- A new block may be branched to unless it is for what stands behind a
    terminator. -/
theorem mayEnter_addBlock (hb : b.HasCursor) (hlabel : label ∈ blockLabels) :
    (b.addBlock label).MayEnter ⟨b.blocks.length⟩ ↔ label ≠ "unreachable" := by
  have hpos : 0 < b.blocks.length := Nat.zero_lt_of_lt hb
  have hnew : (b.addBlock label).blocks[b.blocks.length]? =
      some { label := b.freshLabel label } := by
    simp [addBlock]
  have hfor : ({ label := b.freshLabel label } : Block).CreatedFor "unreachable" ↔
      label = "unreachable" := createdFor_freshLabel hlabel (by decide) rfl
  constructor
  · rintro ⟨-, k, hk, hno⟩
    cases hnew.symm.trans hk
    exact fun heq => hno (hfor.mpr heq)
  · exact fun hne => ⟨hpos, _, hnew, fun heq => hne (hfor.mp heq)⟩

namespace Linked

theorem not_entered_length (hb : b.Linked waiting) : ¬ Entered b.blocks ⟨b.blocks.length⟩ :=
  fun h => Nat.lt_irrefl _ ((hb.entered _).mp h).1.lt

/-- What leads nowhere new links what was linked. -/
theorem of_grows (hb : b.Linked waiting) (hgrows : b.Grows b')
    (hlength : b'.blocks.length = b.blocks.length)
    (hold : ∀ i j, FlowsTo b'.blocks i j → FlowsTo b.blocks i j) : b'.Linked waiting where
  entered j := by
    have hentered : Entered b'.blocks j ↔ Entered b.blocks j :=
      ⟨fun ⟨i, hij⟩ => ⟨i, hold i j hij⟩, fun ⟨i, hij⟩ => ⟨i, hgrows.flowsTo hij⟩⟩
    rw [hentered, hb.entered]
    refine and_congr_left fun _ => ⟨hgrows.mayEnter, fun hj => ?_⟩
    exact (hgrows.mayEnter_iff (hlength ▸ hj.lt)).mp hj
  exist j hj := hlength ▸ hb.exist j hj

theorem emits (hb : b.Linked waiting) (h : b.Emits b') : b'.Linked waiting := by
  have hgrows := h.settles.toGrows
  obtain ⟨ops, rfl, -⟩ := h
  exact hb.of_grows hgrows (by simp [emitted]) fun _ _ => flowsTo_of_emitted

theorem withSlot (hb : b.Linked waiting) (name : String) : (b.withSlot name).Linked waiting := by
  unfold Builder.withSlot ensureSlot
  cases b.slot? name <;> exact ⟨hb.entered, hb.exist⟩

theorem movedTo (hb : b.Linked waiting) (target : BlockId) :
    { b with cursor := target }.Linked waiting := ⟨hb.entered, hb.exist⟩

/-- A new block waits to be branched to, unless it is one that is not. -/
theorem addBlock (hb : b.Linked waiting) (hcursor : b.HasCursor) (hlabel : label ∈ blockLabels)
    (hwaiting : ∀ j, j ∈ waiting' ↔
      j ∈ waiting ∨ (j = ⟨b.blocks.length⟩ ∧ label ≠ "unreachable")) :
    (b.addBlock label).Linked waiting' where
  entered j := by
    have hgrows := (Framed.addBlock b label).toGrows
    have hentered : Entered (b.addBlock label).blocks j ↔ Entered b.blocks j :=
      ⟨fun ⟨i, hij⟩ => ⟨i, flowsTo_of_addBlock hij⟩, fun ⟨i, hij⟩ => ⟨i, hgrows.flowsTo hij⟩⟩
    rw [hentered, hwaiting, not_or]
    rcases Nat.lt_trichotomy j.val b.blocks.length with hlt | heq | hgt
    · have hne : j ≠ ⟨b.blocks.length⟩ := fun heq => Nat.ne_of_lt hlt (congrArg BlockId.val heq)
      rw [hb.entered, hgrows.mayEnter_iff hlt]
      simp [hne]
    · obtain rfl : j = ⟨b.blocks.length⟩ := congrArg BlockId.mk heq
      rw [mayEnter_addBlock hcursor hlabel]
      simp only [hb.not_entered_length, true_and, false_iff]
      exact fun h => h.2.2 h.1
    · have hnot : ¬ Entered b.blocks j := fun h =>
        Nat.lt_asymm hgt ((hb.entered j).mp h).1.lt
      have hnot' : ¬ (b.addBlock label).MayEnter j := fun h => by
        have hlt := h.lt
        simp only [Builder.addBlock, List.length_append, List.length_singleton] at hlt
        omega
      simp [hnot, hnot']
  exist j hj := by
    simp only [Builder.addBlock, List.length_append, List.length_singleton]
    rcases (hwaiting j).mp hj with hj | ⟨rfl, -⟩
    · exact Nat.lt_succ_of_lt (hb.exist j hj)
    · exact Nat.lt_succ_self _

/-- The blocks that a terminator leads to wait no longer. -/
theorem close (hb : b.Linked waiting) (hopen : b.IsOpen) {t : Terminator}
    (ht : ∀ j ∈ t.successors, b.MayEnter j)
    (hwaiting : ∀ j, j ∈ waiting' ↔ j ∈ waiting ∧ j ∉ t.successors) :
    (b.close t).Linked waiting' where
  entered j := by
    have hgrows := (Framed.close hopen t).toGrows
    have hlength : (b.close t).blocks.length = b.blocks.length := by simp [Builder.close]
    have henter : (b.close t).MayEnter j ↔ b.MayEnter j :=
      ⟨fun hj => (hgrows.mayEnter_iff (hlength ▸ hj.lt)).mp hj, hgrows.mayEnter⟩
    obtain ⟨k, hk, hnone⟩ := hopen
    have hentered : Entered (b.close t).blocks j ↔ Entered b.blocks j ∨ j ∈ t.successors := by
      constructor
      · rintro ⟨i, hij⟩
        exact (Acyclic.flowsTo_close hij).imp (fun hold => ⟨i, hold⟩) And.right
      · rintro (⟨i, hij⟩ | hj)
        · exact ⟨i, hgrows.flowsTo hij⟩
        · exact ⟨b.cursor, { k with terminator := some t }, t, by simp [Builder.close, hk], rfl, hj⟩
    rw [hentered, henter, hwaiting, hb.entered]
    by_cases hj : j ∈ t.successors
    · simp [hj, ht j hj]
    · simp [hj]
  exist j hj := by
    simp only [Builder.close, List.length_modify]
    exact hb.exist j ((hwaiting j).mp hj).1

/-- The blocks that a terminator leads to were all that was new. -/
theorem close_new {t : Terminator} (hb : b.Linked (t.successors ++ waiting)) (hopen : b.IsOpen)
    (ht : ∀ j ∈ t.successors, b.MayEnter j ∧ j ∉ waiting) : (b.close t).Linked waiting := by
  refine hb.close hopen (fun j hj => (ht j hj).1) fun j => ?_
  rw [List.mem_append]
  exact ⟨fun hj => ⟨.inr hj, fun hnew => (ht j hnew).2 hj⟩, fun h => h.1.resolve_left h.2⟩

/-- A branch to a block that does not wait. -/
theorem br (hb : b.Linked waiting) (hopen : b.IsOpen) {target : BlockId}
    (htarget : b.MayEnter target) (hnot : target ∉ waiting) :
    (b.close (.br target)).Linked waiting := by
  refine hb.close hopen (fun j hj => List.mem_singleton.mp hj ▸ htarget) fun j => ?_
  refine ⟨fun hj => ⟨hj, fun heq => ?_⟩, And.left⟩
  exact hnot (List.mem_singleton.mp heq ▸ hj)

theorem ret (hb : b.Linked waiting) (hopen : b.IsOpen) (v : Value) :
    (b.close (.ret v)).Linked waiting :=
  hb.close hopen nofun fun j => by simp [Terminator.successors]

theorem start (name : String) (params : List String) : (Builder.start name params).Linked [] where
  entered j := by
    have hnot : ¬ Entered (Builder.start name params).blocks j := by
      rintro ⟨i, k, t, hk, ht, -⟩
      obtain rfl : k = { label := "entry" } :=
        List.mem_singleton.mp (List.mem_of_getElem? hk)
      cases ht
    have hnot' : ¬ (Builder.start name params).MayEnter j := fun h =>
      have hlt : j.val < 1 := h.lt
      Nat.not_lt_of_le h.1 hlt
    simp [hnot, hnot']
  exist := nofun

end Linked

end Builder

namespace Lower

open Builder

variable {s s' : Workspace} {v : Value} {waiting : List BlockId}

/-! ## Constructs -/

/-- A step branches to the blocks that it creates, and to no others. -/
def StepLinked (x : Lower Unit) : Prop :=
  ∀ waiting s s', x s = .ok () s' → s.builder.HasCursor → s.builder.Linked waiting →
    s'.builder.Linked waiting

theorem write_linked {name : String} (h : build (Build.write name v) s = .ok () s')
    (hs : s.builder.Linked waiting) : s'.builder.Linked waiting := by
  obtain ⟨b, hwrite, rfl⟩ := build_eq_ok.mp h
  obtain ⟨w, b₁, hint, hopen, rfl⟩ := Build.write_eq_ok.mp hwrite
  have hslot := (hs.emits (Build.toInt_emits hint)).withSlot name
  exact hslot.emits (.emitted (isOpen_withSlot.mpr hopen) _)

theorem ret_linked (h : build (Build.ret v) s = .ok () s') (hs : s.builder.Linked waiting) :
    s'.builder.Linked waiting := by
  obtain ⟨b, hret, rfl⟩ := build_eq_ok.mp h
  obtain ⟨w, b₁, hint, hopen, rfl⟩ := Build.ret_eq_ok.mp hret
  exact (hs.emits (Build.toInt_emits hint)).ret hopen w

/-- Nothing branches to the block for what stands behind a terminator. -/
theorem reopen_linked (h : reopen s = .ok () s') (hs : s.builder.Linked waiting) :
    s'.builder.Linked waiting := by
  obtain ⟨hcursor, ⟨-, rfl⟩ | ⟨-, rfl⟩⟩ := reopen_eq_ok.mp h
  · exact hs
  · exact (hs.addBlock hcursor (by decide) (by simp)).movedTo _

/-- A joining block is branched to as soon as it is created. -/
theorem fallThrough_linked {join join' : Option BlockId} (h : fallThrough join s = .ok join' s')
    (hs : s.builder.Linked waiting)
    (hjoin : ∀ target, join = some target → s.builder.MayEnter target ∧ target ∉ waiting) :
    s'.builder.Linked waiting ∧
      ∀ target, join' = some target → s'.builder.MayEnter target ∧ target ∉ waiting := by
  obtain ⟨hcursor, ⟨-, rfl, rfl⟩ | ⟨hopen, target, s₁, rfl, rfl, hjoined⟩⟩ :=
    fallThrough_eq_ok.mp h
  · exact ⟨hs, hjoin⟩
  · rcases hjoined with ⟨rfl, rfl⟩ | ⟨rfl, rfl, rfl⟩
    · obtain ⟨htarget, hnot⟩ := hjoin target rfl
      refine ⟨hs.br hopen htarget hnot, ?_⟩
      rintro _ ⟨⟩
      exact ⟨(Framed.close hopen _).toGrows.mayEnter htarget, hnot⟩
    · have hopen₁ : (s.withBlock "if.end").builder.IsOpen := hopen.addBlock _
      have hnew : (s.withBlock "if.end").builder.MayEnter s.nextBlock :=
        (mayEnter_addBlock hcursor (by decide)).mpr (by decide)
      have hnot : s.nextBlock ∉ waiting := fun hmem => Nat.lt_irrefl _ (hs.exist _ hmem)
      have hs₁ : (s.withBlock "if.end").builder.Linked ([s.nextBlock] ++ waiting) :=
        hs.addBlock hcursor (by decide) (by simp [Workspace.nextBlock, or_comm])
      refine ⟨hs₁.close_new (t := .br s.nextBlock) hopen₁ ?_, ?_⟩
      · exact List.forall_mem_singleton.mpr ⟨hnew, hnot⟩
      · rintro _ ⟨⟩
        exact ⟨(Framed.close hopen₁ _).toGrows.mayEnter hnew, hnot⟩

/-- The arms are branched to at once, and the joining block by the first arm that
    goes to it. -/
theorem branch_linked {test : Lower Value} {body orelse : Lower Unit}
    (hemits : ∀ {s v s'}, test s = .ok v s' → s.builder.Emits s'.builder)
    (hbody : StepLinked body) (hsettles : StepSettles body) (horelse : StepLinked orelse)
    (hsettles' : StepSettles orelse) : StepLinked (branch test body orelse) := by
  intro waiting s s' h hcursor hs
  cases branch_run h with
  | @mk s₁ s₂ s₃ s₄ s₅ cond join join' hcond hopen hthen hjoin helse hjoin' =>
    have hs₁ := hs.emits (hemits hcond)
    have hcursor₁ : s₁.builder.HasCursor := (hemits hcond).settles.toFramed.hasCursor hcursor
    have hcursor₁' : (s₁.withBlock "if.then").builder.HasCursor :=
      (Framed.addBlock _ _).hasCursor hcursor₁
    have hnew (j : BlockId) (hj : s₁.builder.blocks.length ≤ j.val) : j ∉ waiting :=
      fun hmem => Nat.not_lt_of_le hj (hs₁.exist j hmem)
    let s₀ := s₁.withArms.closed (.condBr cond s₁.nextBlock s₁.secondBlock)
    have harms : s₁.withArms.builder.Linked ([s₁.nextBlock, s₁.secondBlock] ++ waiting) := by
      have hfirst : (s₁.withBlock "if.then").builder.Linked (s₁.nextBlock :: waiting) :=
        hs₁.addBlock hcursor₁ (by decide) (by simp [Workspace.nextBlock, or_comm])
      refine hfirst.addBlock hcursor₁' (by decide) fun j => ?_
      simp [Workspace.secondBlock, Builder.addBlock, or_assoc, or_comm, or_left_comm]
    have hfirst : s₁.withArms.builder.MayEnter s₁.nextBlock :=
      (Framed.addBlock _ _).toGrows.mayEnter
        ((mayEnter_addBlock hcursor₁ (by decide)).mpr (by decide))
    have hsecond : s₁.withArms.builder.MayEnter s₁.secondBlock := by
      have hlabel : "if.else" ∈ blockLabels := by decide
      have hadded := (mayEnter_addBlock hcursor₁' hlabel).mpr (by decide)
      rwa [← s₁.withBlock_nextBlock "if.then"]
    have hs₀ : s₀.builder.Linked waiting := by
      refine harms.close_new (t := .condBr cond s₁.nextBlock s₁.secondBlock) hopen fun j hj => ?_
      rcases List.mem_pair.mp hj with rfl | rfl
      · exact ⟨hfirst, hnew _ (Nat.le_refl _)⟩
      · exact ⟨hsecond, hnew _ (Nat.le_succ _)⟩
    have hs₂ := hbody waiting _ _ hthen (firstArm_hasCursor _ _) (hs₀.movedTo _)
    obtain ⟨hs₃, hjoined⟩ := fallThrough_linked hjoin hs₂ (by simp)
    have hopen₃ := secondArm_isOpen hcursor₁ (hsettles _ _ hthen) (fallThrough_run hjoin)
    have hs₄ := horelse waiting _ _ helse hopen₃.hasCursor (hs₃.movedTo _)
    have hjoined₄ : ∀ target, join = some target →
        s₄.builder.MayEnter target ∧ target ∉ waiting := fun target heq =>
      ⟨(hsettles' _ _ helse).toGrows.mayEnter (hjoined target heq).1, (hjoined target heq).2⟩
    obtain ⟨hs₅, -⟩ := fallThrough_linked hjoin' hs₄ hjoined₄
    cases join' with
    | none => exact hs₅
    | some target => exact hs₅.movedTo target

/-- The body and the end of a loop wait while the body is lowered, for the branch
    that is added behind it. -/
theorem loop_linked {test : Lower Value} {body : Lower Unit}
    (hemits : ∀ {s v s'}, test s = .ok v s' → s.builder.Emits s'.builder)
    (hbody : StepLinked body) (hsettles : StepSettles body) : StepLinked (loop test body) := by
  intro waiting s s' h hcursor hs
  cases loop_run h with
  | @mk s₁ s₂ s₃ cond hopen hcond hrun hcursor₂ hback hexit =>
    let s₀ := s.withLoop.closed (.br s.nextBlock)
    have hnew (j : BlockId) (hj : s.builder.blocks.length ≤ j.val) : j ∉ waiting :=
      fun hmem => Nat.not_lt_of_le hj (hs.exist j hmem)
    have hcursor' : (s.withBlock "while.test").builder.HasCursor :=
      (Framed.addBlock _ _).hasCursor hcursor
    have hcursor'' : ((s.withBlock "while.test").withBlock "while.body").builder.HasCursor :=
      (Framed.addBlock _ _).hasCursor hcursor'
    have htest : s.withLoop.builder.MayEnter s.nextBlock :=
      ((Framed.addBlock _ _).trans (.addBlock _ _)).toGrows.mayEnter
        ((mayEnter_addBlock hcursor (by decide)).mpr (by decide))
    have hsecond : s.withLoop.builder.MayEnter s.secondBlock := by
      have hlabel : "while.body" ∈ blockLabels := by decide
      have hadded := (mayEnter_addBlock hcursor' hlabel).mpr (by decide)
      rw [← s.withBlock_nextBlock "while.test"]
      exact (Framed.addBlock _ _).toGrows.mayEnter hadded
    have hthird : s.withLoop.builder.MayEnter s.thirdBlock := by
      have hlabel : "while.end" ∈ blockLabels := by decide
      have hadded := (mayEnter_addBlock hcursor'' hlabel).mpr (by decide)
      rw [← s.withBlock_secondBlock "while.test", ← Workspace.withBlock_nextBlock _ "while.body"]
      exact hadded
    -- What waits while the body is lowered.
    let pending := [s.secondBlock, s.thirdBlock] ++ waiting
    have hloop : s.withLoop.builder.Linked (s.nextBlock :: pending) := by
      have h₁ : (s.withBlock "while.test").builder.Linked (s.nextBlock :: waiting) :=
        hs.addBlock hcursor (by decide) (by simp [Workspace.nextBlock, or_comm])
      have h₂ : ((s.withBlock "while.test").withBlock "while.body").builder.Linked
          (s.secondBlock :: s.nextBlock :: waiting) :=
        h₁.addBlock hcursor' (by decide)
          (by simp [Workspace.secondBlock, Builder.addBlock, or_comm])
      refine h₂.addBlock hcursor'' (by decide) fun j => ?_
      simp [pending, Workspace.thirdBlock, Builder.addBlock, or_assoc, or_comm, or_left_comm]
    have hpending : s.nextBlock ∉ pending := by
      simp only [pending, List.mem_append, List.mem_cons, List.not_mem_nil, or_false, not_or]
      refine ⟨⟨?_, ?_⟩, hnew _ (Nat.le_refl _)⟩
      · simp [Workspace.nextBlock, Workspace.secondBlock]
      · simp [Workspace.nextBlock, Workspace.thirdBlock]
    have hs₀ : s₀.builder.Linked pending :=
      Linked.close_new (t := .br s.nextBlock) hloop hopen
        (List.forall_mem_singleton.mpr ⟨htest, hpending⟩)
    have hs₁ : s₁.builder.Linked pending := (hs₀.movedTo s.nextBlock).emits (hemits hcond)
    have hgrows₁ : s.withLoop.builder.Grows s₁.builder :=
      (Framed.close hopen (.br s.nextBlock)).toGrows.trans
        (Grows.of_movedTo (hemits hcond).settles.toGrows)
    have hcursor₁ : (s₁.movedTo s.secondBlock).builder.HasCursor := (hgrows₁.mayEnter hsecond).lt
    have hs₂ := hbody pending _ _ hrun hcursor₁ (hs₁.movedTo _)
    have hgrows₂ : s.withLoop.builder.Grows s₂.builder :=
      hgrows₁.trans (Grows.of_movedTo (hsettles _ _ hrun).toGrows)
    obtain ⟨hs₃, hgrows₃⟩ : s₃.builder.Linked pending ∧ s.withLoop.builder.Grows s₃.builder := by
      rcases hback with ⟨hopen₂, rfl⟩ | ⟨-, rfl⟩
      · exact ⟨hs₂.br hopen₂ (hgrows₂.mayEnter htest) hpending,
          hgrows₂.trans (Framed.close hopen₂ _).toGrows⟩
      · exact ⟨hs₂, hgrows₂⟩
    refine Linked.movedTo ?_ _
    refine Linked.close_new (t := .condBr cond s.secondBlock s.thirdBlock) (hs₃.movedTo _) hexit ?_
    intro j hj
    rcases List.mem_pair.mp hj with rfl | rfl
    · exact ⟨hgrows₃.mayEnter hsecond, hnew _ (Nat.le_succ _)⟩
    · exact ⟨hgrows₃.mayEnter hthird, hnew _ (Nat.le_add_right _ 2)⟩

/-! ## Statements -/

theorem block_linked {ns : List Node} (hns : ∀ n ∈ ns, StepLinked (statement n)) :
    StepLinked (block ns) := by
  induction ns with
  | nil =>
    intro waiting s s' h _ hs
    obtain ⟨-, rfl⟩ := Effect.pure_eq_ok.mp h
    exact hs
  | cons n rest ih =>
    intro waiting s s' h hcursor hs
    rw [List.forall_mem_cons] at hns
    obtain ⟨s₁, s₂, hreopen, hn, hrest⟩ := block_cons_eq_ok.mp h
    have hcursor₁ := (reopen_settles hreopen).toFramed.hasCursor hcursor
    have hcursor₂ := (statement_settles n _ _ hn).toFramed.hasCursor hcursor₁
    have hs₂ := hns.1 waiting _ _ hn hcursor₁ (reopen_linked hreopen hs)
    exact ih hns.2 waiting _ _ hrest hcursor₂ hs₂

theorem elseClause_linked {ns : List Node} (hns : ∀ n ∈ ns, StepLinked (statement n)) :
    StepLinked (elseClause ns) := by
  intro waiting s s' h hcursor hs
  cases ns with
  | nil =>
    obtain ⟨-, rfl⟩ := Effect.pure_eq_ok.mp h
    exact hs
  | cons n rest =>
    rw [List.forall_mem_cons] at hns
    rw [elseClause_cons] at h
    have hbuilder := s.shortened_builder (n :: rest).length
    exact hns.1 waiting _ _ h (hbuilder ▸ hcursor) (hbuilder ▸ hs)

theorem statement_linked (n : Node) : StepLinked (statement n) := by
  induction n using Node.parts_induction with
  | step n ih =>
    obtain ⟨kind, location, span⟩ := n
    intro waiting s s' hrun hcursor hs
    cases statement_run hrun with
    | assign hvalue h => exact write_linked h (hs.emits (expr_emits hvalue))
    | expr h => exact hs.emits (expr_emits h)
    | ret hvalue h => exact ret_linked h (hs.emits (expr_emits hvalue))
    | retNone h => exact ret_linked h hs
    | ifElse h =>
      exact branch_linked condition_emits
        (block_linked fun n hn => ih n (by simp [Kind.parts, hn]))
        (block_settles fun n _ => statement_settles n)
        (elseClause_linked fun n hn => ih n (by simp [Kind.parts, hn]))
        (elseClause_settles fun n _ => statement_settles n) waiting _ _ h hcursor hs
    | whileLoop h =>
      exact loop_linked condition_emits
        (block_linked fun n hn => ih n (by simp [Kind.parts, hn]))
        (block_settles fun n _ => statement_settles n) waiting _ _ h hcursor hs
    | functionDef h => exact hs
    | value h => exact hs.emits (exprEmits ⟨kind, location, span⟩ _ _ _ h)

/-- Nothing is left to wait in what is lowered for a body. -/
theorem body_linked {ns : List Node} {ctx : Context} {name : String} {params : List String}
    (h : block ns (.start ctx name params) = .ok () s)
    (hend : (s.builder.IsOpen ∧ s' = s.closed (.ret (.int 0))) ∨ (¬ s.builder.IsOpen ∧ s' = s)) :
    s'.builder.Linked [] := by
  have hs : s.builder.Linked [] :=
    block_linked (fun n _ => statement_linked n) [] _ _ h Nat.zero_lt_one (.start name params)
  rcases hend with ⟨hopen, rfl⟩ | ⟨-, rfl⟩
  · exact hs.ret hopen _
  · exact hs

end Lower

/-! ## Programs of trees -/

/-- The blocks of a function that are branched to are those that may be, and the
    first one is the entry block. -/
theorem Function.Built.blocks_linked {f : Function} (h : f.Built) :
    ∃ b : Builder, f.blocks = b.blocks ∧ b.Linked [] ∧
      ∃ entry, b.blocks[0]? = some entry ∧ entry.label = "entry" := by
  cases h with
  | @mk d ctx s s' hbody hcursor hend hfunction =>
    have hblocks : f.blocks = s'.builder.blocks := hfunction ▸ rfl
    have hgrows : (Builder.start d.name d.params).Grows s'.builder := by
      have hsettles := Lower.block_settles (fun n _ => Lower.statement_settles n) _ _ hbody
      rcases hend with ⟨hopen, rfl⟩ | ⟨-, rfl⟩
      · exact hsettles.toGrows.trans (Builder.Framed.close hopen _).toGrows
      · exact hsettles.toGrows
    obtain ⟨entry, hentry, hgrown⟩ := hgrows.blocks 0 _ rfl
    exact ⟨s'.builder, hblocks, Lower.body_linked hbody hend, entry, hentry, hgrown.label⟩

/-- There are no orphan blocks. In a function of a lowered program nothing branches
    to the entry block, and of the other blocks those have no predecessor that hold
    what stands behind a terminator, and no others. So a joining block is there only
    if some block branches to it. -/
theorem lowered_orphans {tree : Node} {options : LowerOptions} {p : Program}
    (h : lower tree options = .ok p) {f : Function} (hf : f ∈ p.functions) :
    ¬ Entered f.blocks ⟨0⟩ ∧
      (∀ i k, 0 < i.val → f.block? i = some k →
        (¬ Entered f.blocks i ↔ k.CreatedFor "unreachable")) ∧
      ∀ i k, f.block? i = some k → k.CreatedFor "if.end" → Entered f.blocks i := by
  by_cases hblocks : f.blocks = []
  · have hnone (i : BlockId) (k : Block) : f.block? i ≠ some k := by simp [Function.block?, hblocks]
    refine ⟨?_, fun i k _ hk => absurd hk (hnone i k), fun i k hk => absurd hk (hnone i k)⟩
    rintro ⟨i, k, t, hk, -⟩
    exact hnone i k hk
  · obtain ⟨b, hb, hlinked, entry, hentry, hlabel⟩ := (lower_built h hf hblocks).blocks_linked
    have hpred (i : BlockId) (k : Block) (hpos : 0 < i.val) (hk : f.block? i = some k) :
        Entered f.blocks i ↔ ¬ k.CreatedFor "unreachable" := by
      rw [Function.block?, hb] at hk
      rw [hb, hlinked.entered]
      constructor
      · rintro ⟨⟨-, k', hk', hno⟩, -⟩
        cases hk.symm.trans hk'
        exact hno
      · exact fun hno => ⟨⟨hpos, k, hk, hno⟩, List.not_mem_nil⟩
    refine ⟨fun h => ?_, fun i k hpos hk => ?_, fun i k hk hjoin => ?_⟩
    · rw [hb] at h
      exact Nat.lt_irrefl 0 ((hlinked.entered _).mp h).1.1
    · rw [hpred i k hpos hk, Classical.not_not]
    · have hpos : 0 < i.val := by
        refine Nat.pos_of_ne_zero fun hzero => ?_
        rw [Function.block?, hb, hzero] at hk
        cases hentry.symm.trans hk
        have hentry' : entry.CreatedFor "entry" := ⟨0, hlabel⟩
        have heq := hjoin.unique (by decide) (by decide) hentry'
        exact absurd heq (by decide)
      refine (hpred i k hpos hk).mpr fun horphan => ?_
      have heq := hjoin.unique (by decide) (by decide) horphan
      exact absurd heq (by decide)

/-- Two arms that return, with a statement behind them, and a branch that is joined. -/
def orphanTree : Node :=
  .module [
    .functionDef "f" ["n"] [
      .ifElse (.name "n") [.ret (.int 1)] [.ret (.int 2)],
      .ret (.int 3)],
    .ifElse (.int 1) [] []]

/-- The program of this tree. -/
def orphanProgram : Program where
  functions := [
    .declaration "print" ⟨1⟩,
    { name := "main", signature := ⟨0⟩,
      blocks := [
        { label := "entry", ops := [.icmp ⟨0⟩ .ne (.int 0) (.int 1)]
          terminator := some (.condBr (.inst ⟨0⟩ .i1) ⟨1⟩ ⟨2⟩) },
        { label := "if.then", terminator := some (.br ⟨3⟩) },
        { label := "if.else", terminator := some (.br ⟨3⟩) },
        { label := "if.end", terminator := some (.ret (.int 0)) }] },
    { name := "f", signature := ⟨1⟩, params := ["n"],
      blocks := [
        { label := "entry", ops := [.icmp ⟨0⟩ .ne (.int 0) (.param 0)]
          terminator := some (.condBr (.inst ⟨0⟩ .i1) ⟨1⟩ ⟨2⟩) },
        { label := "if.then", terminator := some (.ret (.int 1)) },
        { label := "if.else", terminator := some (.ret (.int 2)) },
        { label := "unreachable", terminator := some (.ret (.int 3)) }] }]

/-- The join has predecessors, and the block for the statement that is not reached has
    none. -/
theorem orphanTree_orphans :
    lower orphanTree {} = .ok orphanProgram ∧
      Entered orphanProgram.functions[1].blocks ⟨3⟩ ∧
      ¬ Entered orphanProgram.functions[2].blocks ⟨3⟩ := by
  have hlowered : lower orphanTree {} = .ok orphanProgram := by decide +kernel
  obtain ⟨-, -, hjoins⟩ := lowered_orphans hlowered (f := orphanProgram.functions[1]) (by simp)
  obtain ⟨-, horphans, -⟩ := lowered_orphans hlowered (f := orphanProgram.functions[2]) (by simp)
  exact ⟨hlowered, hjoins ⟨3⟩ _ rfl ⟨0, rfl⟩, (horphans ⟨3⟩ _ (by decide) rfl).mpr ⟨0, rfl⟩⟩

end Blockform
