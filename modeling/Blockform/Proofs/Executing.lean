-- SUMMARY: The blocks of a statement do what the statement means.
import Blockform.Proofs.Evaluating

/-!
# Execution

A machine that stands where a statement was lowered attains what the statement
means: it stands where the builder has its cursor afterwards, or is about to
return (`Machine.Ends`). In the first case the block under the cursor is open,
so what was lowered behind a `return` is never reached.

A construct jumps to blocks that were put aside empty (`Builder.Fresh`) and that
nothing has touched until the cursor was moved to them.
-/

namespace Blockform

open Machine Effect

variable {p : Program} {limits : ExecOptions} {a : Activation} {σ : Store} {b b' : Builder}
  {m m' : Machine} {n : Int32} {v w : Value} {fuel : Nat}

/-! ## Fresh blocks -/

namespace Builder

variable {i : Nat}

theorem Fresh.openAt (h : b.Fresh i) : b.OpenAt i := by
  obtain ⟨k, hk, -, ht⟩ := h
  exact ⟨k, hk, ht⟩

theorem Fresh.lt (h : b.Fresh i) : i < b.blocks.length := h.openAt.lt

theorem Fresh.addBlock (h : b.Fresh i) (label : String) : (b.addBlock label).Fresh i := by
  have hi := h.lt
  obtain ⟨k, hk, hrest⟩ := h
  exact ⟨k, by simp [Builder.addBlock, List.getElem?_append_left hi, hk], hrest⟩

theorem fresh_addBlock (b : Builder) (label : String) :
    (b.addBlock label).Fresh b.blocks.length :=
  ⟨{ label := b.freshLabel label }, by simp [addBlock], rfl, rfl⟩

theorem Fresh.movedTo (h : b.Fresh i) (target : BlockId) : { b with cursor := target }.Fresh i := h

/-- A block that was put aside is still empty. -/
theorem Fresh.framed (h : b.Fresh i) (hframed : b.Framed b') (hne : i ≠ b.cursor.val) :
    b'.Fresh i := by
  have hi := h.lt
  obtain ⟨k, hk, hrest⟩ := h
  exact ⟨k, (hframed.others i hi hne).trans hk, hrest⟩

theorem Grows.of_movedTo {target : BlockId} (h : { b with cursor := target }.Grows b') :
    b.Grows b' := { h with }

/-- Different variables have different slots. -/
theorem slot?_inj {x y : String} {slot : SlotId} (hx : b.slot? x = some slot)
    (hy : b.slot? y = some slot) : x = y := by
  rw [slot?_eq] at hx hy
  obtain ⟨i, hi, rfl⟩ := Option.map_eq_some_iff.mp hx
  obtain ⟨j, hj, heq⟩ := Option.map_eq_some_iff.mp hy
  cases heq
  obtain ⟨hlt, hname, -⟩ := List.findIdx?_eq_some_iff_getElem.mp hi
  obtain ⟨hlt', hname', -⟩ := List.findIdx?_eq_some_iff_getElem.mp hj
  rw [decide_eq_true_iff] at hname hname'
  exact hname.symm.trans hname'

theorem slot?_withSlot (b : Builder) (name : String) :
    (b.withSlot name).slot? name = some (b.ensureSlot name).1 := by
  unfold withSlot ensureSlot
  cases hslot : b.slot? name with
  | some slot => exact hslot
  | none => simp [slot?_addSlot, hslot]

end Builder

/-! ## Leaving a block -/

namespace Machine

/-- At the start of an empty block, the machine stands where the cursor is moved
    to. -/
theorem Stands.jump (hm : Stands a σ b m) {target : BlockId} (hfresh : b'.Fresh target.val)
    (hgrows : b'.Grows a.body) :
    ∃ k, m.frame.function.block? target = some k ∧ ∀ steps,
      Stands a σ { b' with cursor := target } { m with steps, frame := m.frame.jump k } := by
  obtain ⟨k₀, hk₀, hempty, -⟩ := hfresh
  obtain ⟨k, hk, -⟩ := hgrows.blocks _ _ hk₀
  refine ⟨k, ?_, fun steps => ?_⟩
  · rw [hm.function]
    exact hk
  · refine ⟨hm.function, hm.args, hm.callers, hm.active, hm.printed, hm.slots, hk, k₀, hk₀, ?_⟩
    rw [hempty]
    rfl

theorem br_gets (hm : Stands a σ b m) {target : BlockId}
    (hclose : (b.close (.br target)).Grows a.body) (hfresh : b'.Fresh target.val)
    (hgrows : b'.Grows a.body) :
    ∃ m', m.advance p limits = .running m' ∧ Stands a σ { b' with cursor := target } m' := by
  obtain ⟨hrest, hterminator⟩ := hm.leave hclose
  obtain ⟨k, hk, hstands⟩ := hm.jump hfresh hgrows
  refine ⟨_, ?_, hstands (m.steps + 1)⟩
  rw [advance_nil hrest]
  simp only [Machine.leave, hterminator, Machine.jump, hk]
  rfl

theorem condBr_gets (hm : Stands a σ b m) {thenBlock elseBlock target : BlockId}
    (hclose : (b.close (.condBr v thenBlock elseBlock)).Grows a.body)
    (hv : m.frame.eval v = .ok n) (htarget : (if n ≠ 0 then thenBlock else elseBlock) = target)
    (hfresh : b'.Fresh target.val) (hgrows : b'.Grows a.body) :
    ∃ m', m.advance p limits = .running m' ∧ Stands a σ { b' with cursor := target } m' := by
  obtain ⟨hrest, hterminator⟩ := hm.leave hclose
  obtain ⟨k, hk, hstands⟩ := hm.jump hfresh hgrows
  refine ⟨_, ?_, hstands (m.steps + 1)⟩
  rw [advance_nil hrest]
  simp only [Machine.leave, hterminator, withValue, hv, htarget, Machine.jump, hk]
  rfl

theorem returns_of_ret (hm : Stands a σ b m) (hclose : (b.close (.ret v)).Grows a.body)
    (hv : m.frame.eval v = .ok n) : Returns a.callers a.active σ.printed n m := by
  obtain ⟨hrest, hterminator⟩ := hm.leave hclose
  exact ⟨hrest, ⟨v, hterminator, hv⟩, hm.callers, hm.active, hm.printed⟩

/-- A variable that is written has its slot changed, and no other. -/
theorem write_gets {name : String} {u : Unit} (h : Build.write name v b = .ok u b')
    (hgrows : b'.Grows a.body) (hm : Stands a σ b m) (hv : m.frame.Holds b.nextInst v n) :
    Gets p limits (Stands a (σ.set name n) b') m := by
  obtain ⟨w, b₁, hint, hopen, rfl⟩ := Build.write_eq_ok.mp h
  have hgrows₂ : (b₁.withSlot name).Grows a.body :=
    (Builder.Framed.emitted (Builder.isOpen_withSlot.mpr hopen) _).toGrows.trans hgrows
  have hgrows₁ : b₁.Grows a.body := (Builder.Framed.withSlot b₁ name).toGrows.trans hgrows₂
  refine (toInt_gets hint hgrows₁ hm hv).andThen fun m₁ hw => ?_
  have hstands : Stands a σ (b₁.withSlot name) m₁ := by
    refine hw.1.stands.of_eq ?_ ?_ <;> unfold Builder.withSlot Builder.ensureSlot <;>
      cases b₁.slot? name <;> rfl
  obtain ⟨rest, hrest, hfetched⟩ := hstands.fetch limits hgrows
  have hslot := hgrows₂.slot? (Builder.slot?_withSlot b₁ name)
  have hold := hfetched.slots name _ hslot
  have hlt := (List.getElem?_eq_some_iff.mp hold).1
  have hstep : m₁.advance p limits = .running
      { m₁.fetched limits (.store w (b₁.ensureSlot name).1) rest with
        frame := { (m₁.fetched limits (.store w (b₁.ensureSlot name).1) rest).frame with
          slots := m₁.frame.slots.set (b₁.ensureSlot name).1.val n } } := by
    rw [advance_cons hrest]
    simp only [execute, withValue, fetched_eval, hw.1.holds.eval, hlt, if_true]
    rfl
  refine .step hstep ⟨hfetched.function, hfetched.args, hfetched.callers, hfetched.active,
    hfetched.printed, fun x slot hx => ?_, hfetched.block, hfetched.rest⟩
  by_cases hname : x = name
  · subst hname
    cases hslot.symm.trans hx
    simp only [Store.set, if_true]
    exact List.getElem?_set_self hlt
  · have hne : (b₁.ensureSlot name).1.val ≠ slot.val := fun heq => by
      have hsame : (b₁.ensureSlot name).1 = slot := congrArg SlotId.mk heq
      rw [hsame] at hslot
      exact hname (Builder.slot?_inj hx hslot)
    have hkept := hfetched.slots x slot hx
    simp only [Store.set, hname, if_false]
    rw [List.getElem?_set_ne hne]
    exact hkept

/-- The value that is returned is an integer by then. -/
theorem ret_gets {u : Unit} (h : Build.ret v b = .ok u b') (hgrows : b'.Grows a.body)
    (hm : Stands a σ b m) (hv : m.frame.Holds b.nextInst v n) :
    Gets p limits (Returns a.callers a.active σ.printed n) m := by
  obtain ⟨w, b₁, hint, hopen, rfl⟩ := Build.ret_eq_ok.mp h
  have hgrows₁ := (Builder.Framed.close hopen (.ret w)).toGrows.trans hgrows
  exact (toInt_gets hint hgrows₁ hm hv).andThen fun m₁ hw =>
    .done (returns_of_ret hw.1.stands hgrows hw.1.holds.eval)

end Machine

/-! ## Constructs -/

/-- How a machine ends a statement: it stands behind it, or is about to
    return. -/
def Machine.Ends (a : Activation) (b : Builder) (r : Flow × Store) (m : Machine) : Prop :=
  match r.1 with
  | .next => b.IsOpen ∧ Stands a r.2 b m
  | .returned v => Returns a.callers a.active r.2.printed v m

theorem Workspace.Precedes.of_movedTo {s : Workspace} {target : BlockId}
    (h : (s.movedTo target).Precedes a p) : s.Precedes a p :=
  ⟨h.builder.of_movedTo, h.program⟩

namespace Lower

variable {s s' : Workspace}

/-- From where a step of lowering started, the machine attains what a computation
    means. -/
def StepAttains (p : Program) (limits : ExecOptions) (a : Activation) (fuel : Nat)
    (x : Lower Unit) (meaning : Meaning Store Flow) : Prop :=
  ∀ s s', x s = .ok () s' → s.builder.IsOpen → s'.Precedes a p → ∀ σ m, Stands a σ s.builder m →
    Attains p limits fuel (Ends a s'.builder) m (meaning σ)

/-- The joining block is empty as long as no arm is lowered on it. -/
theorem fallThrough_fresh {join join' : Option BlockId} (h : fallThrough join s = .ok join' s')
    (hjoin : ∀ target, join = some target →
      s.builder.Fresh target.val ∧ target.val ≠ s.builder.cursor.val) :
    ∀ target, join' = some target →
      s'.builder.Fresh target.val ∧ target.val ≠ s'.builder.cursor.val := by
  obtain ⟨hcursor, ⟨-, rfl, rfl⟩ | ⟨hopen, target, s₁, rfl, rfl, hjoined⟩⟩ :=
    fallThrough_eq_ok.mp h
  · exact hjoin
  · rintro _ ⟨⟩
    obtain ⟨hfresh, hne, hopen₁⟩ : s₁.builder.Fresh target.val ∧
        target.val ≠ s₁.builder.cursor.val ∧ s₁.builder.IsOpen := by
      rcases hjoined with ⟨hsome, rfl⟩ | ⟨-, rfl, rfl⟩
      · exact ⟨(hjoin target hsome).1, (hjoin target hsome).2, hopen⟩
      · exact ⟨Builder.fresh_addBlock _ _, Nat.ne_of_gt hcursor, hopen.addBlock _⟩
    exact ⟨hfresh.framed (.close hopen₁ _) hne, hne⟩

/-- An arm that falls through goes to the joining block. -/
theorem fallThrough_gets {join join' : Option BlockId} (h : fallThrough join s = .ok join' s')
    (hopen : s.builder.IsOpen) (hm : Stands a σ s.builder m) {s'' : Workspace}
    (hs' : s'.builder.Grows a.body) (hs'' : s''.builder.Grows a.body)
    (hfresh : ∀ target, join' = some target → s''.builder.Fresh target.val) :
    ∃ target, join' = some target ∧
      Gets p limits (Stands a σ (s''.movedTo target).builder) m := by
  obtain ⟨-, ⟨hclosed, -⟩ | ⟨-, target, s₁, rfl, rfl, hjoined⟩⟩ := fallThrough_eq_ok.mp h
  · exact absurd hopen hclosed
  · have hm₁ : Stands a σ s₁.builder m := by
      rcases hjoined with ⟨-, rfl⟩ | ⟨-, -, rfl⟩
      · exact hm
      · exact hm.addBlock _
    obtain ⟨m', hstep, hm'⟩ := br_gets hm₁ hs' (hfresh target rfl) hs''
    exact ⟨target, rfl, .step hstep hm'⟩

/-- The blocks of a branch are empty when they are jumped to: the first arm at
    once, the second when the first is lowered, and the joining block at the
    end. -/
theorem arms_fresh {body orelse : Lower Unit} {s s₂ s₃ s₄ s₅ : Workspace} {t : Terminator}
    {join join' : Option BlockId} (hopen : s.builder.IsOpen)
    (hbody : body ((s.withArms.closed t).movedTo s.nextBlock) = .ok () s₂)
    (hthen : fallThrough none s₂ = .ok join s₃)
    (horelse : orelse (s₃.movedTo s.secondBlock) = .ok () s₄)
    (helse : fallThrough join s₄ = .ok join' s₅) (hsettles : StepSettles body)
    (hsettles' : StepSettles orelse) :
    (s.withArms.closed t).builder.Fresh s.nextBlock.val ∧ s₃.builder.Fresh s.secondBlock.val ∧
      (∀ target, join' = some target → s₅.builder.Fresh target.val) ∧
      ∀ target, join = some target →
        s₅.builder.blocks[target.val]? = s₃.builder.blocks[target.val]? := by
  have hopen₁ : s.withArms.builder.IsOpen := (hopen.addBlock _).addBlock _
  have hcursor : s.builder.cursor.val < s.builder.blocks.length := hopen.lt
  have hfirst : (s.withArms.closed t).builder.Fresh s.nextBlock.val :=
    ((Builder.fresh_addBlock s.builder _).addBlock _).framed (.close hopen₁ _)
      (Nat.ne_of_gt hcursor)
  have hsecond : (s.withArms.closed t).builder.Fresh s.secondBlock.val := by
    have hnew := Builder.fresh_addBlock (s.builder.addBlock "if.then") "if.else"
    have hlength : (s.builder.addBlock "if.then").blocks.length = s.secondBlock.val := by
      simp [Builder.addBlock, Workspace.secondBlock]
    rw [hlength] at hnew
    exact hnew.framed (.close hopen₁ _) (Nat.ne_of_gt (Nat.lt_succ_of_lt hcursor))
  have hthen' := fallThrough_run hthen
  have hframed := (hsettles _ _ hbody).toFramed.trans hthen'.framed
  have hframed' := (hsettles' _ _ horelse).toFramed
  -- The joining block is newer than the second arm.
  have hjoin : ∀ target, join = some target →
      target.val < s₃.builder.blocks.length ∧ target.val ≠ s.secondBlock.val := by
    intro target heq
    rcases hthen'.target target heq with hnone | ⟨hge, hlt⟩
    · cases hnone
    · have hle := Nat.le_trans (hsettles _ _ hbody).length hge
      exact ⟨hlt, Nat.ne_of_gt (Nat.lt_of_lt_of_le hsecond.lt hle)⟩
  have hsecond' : ((s.withArms.closed t).movedTo s.nextBlock).builder.Fresh s.secondBlock.val :=
    hsecond.movedTo _
  refine ⟨hfirst, hsecond'.framed hframed (Nat.succ_ne_self _), fun target heq => ?_,
    fun target heq => ?_⟩
  · refine (fallThrough_fresh helse (fun target heq => ?_) target heq).1
    obtain ⟨hlt, hne⟩ := hjoin target heq
    have hfresh : (s₃.movedTo s.secondBlock).builder.Fresh target.val :=
      (fallThrough_fresh hthen (fun _ hnone => by cases hnone) target heq).1.movedTo _
    exact ⟨hfresh.framed hframed' hne, hframed'.ne_cursor hlt hne⟩
  · obtain ⟨hlt, hne⟩ := hjoin target heq
    have hlt' := Nat.lt_of_lt_of_le hlt hframed'.length
    rw [(fallThrough_run helse).framed.others _ hlt' (hframed'.ne_cursor hlt hne)]
    exact hframed'.others _ hlt hne

theorem branch_attains {test : Lower Value} {body orelse : Lower Unit}
    {ts : Meaning Store Int32} {bs es : Meaning Store Flow}
    (hemits : ∀ {s v s'}, test s = .ok v s' → s.builder.Emits s'.builder)
    (htest : TestAttains p limits a fuel test ts)
    (hbody : StepAttains p limits a fuel body bs) (hsettles : StepSettles body)
    (hgrows : StepGrows body) (horelse : StepAttains p limits a fuel orelse es)
    (hsettles' : StepSettles orelse) (hgrows' : StepGrows orelse) :
    StepAttains p limits a fuel (branch test body orelse)
      (do if (← ts) ≠ 0 then bs else es) := by
  intro s s' h hopen hs' σ m hm
  cases branch_run h with
  | @mk s₁ s₂ s₃ s₄ s₅ cond join join' hcond hopen₁ hthen hjoin helse hjoin' =>
    have hfall := fallThrough_run hjoin
    have hfall' := fallThrough_run hjoin'
    let s₀ := s₁.withArms.closed (.condBr cond s₁.nextBlock s₁.secondBlock)
    -- The finished function comes about from every stage.
    have hs₅ : s₅.Precedes a p := by
      cases join' with
      | none => exact hs'
      | some target => exact hs'.of_movedTo
    have hs₄ := hs₅.before hfall'.framed.toGrows (fallThrough_grows _ _ _ _ hjoin')
    have hs₃ : s₃.Precedes a p :=
      (hs₄.before (hsettles' _ _ helse).toGrows (hgrows' _ _ _ helse)).of_movedTo
    have hs₂ := hs₃.before hfall.framed.toGrows (fallThrough_grows _ _ _ _ hjoin)
    have hs₀ : s₀.Precedes a p :=
      (hs₂.before (hsettles _ _ hthen).toGrows (hgrows _ _ _ hthen)).of_movedTo
    have hs₁ : s₁.Precedes a p := by
      have hadded := (Builder.Framed.addBlock s₁.builder "if.then").trans (.addBlock _ "if.else")
      exact hs₀.before (hadded.trans (.close hopen₁ _)).toGrows
        ((Context.Grows.note _ _).trans (.note _ _))
    have hopen₁' : s₁.builder.IsOpen := (hemits hcond).isOpen_iff.mpr hopen
    obtain ⟨hfirst, hsecond, hlast, hsame⟩ :=
      arms_fresh hopen₁' hthen hjoin helse hjoin' hsettles hsettles'
    -- The machine evaluates the test, and jumps to an arm.
    refine (htest _ _ _ hcond hs₁ _ _ hm).bind fun n τ m₁ hn => ?_
    have hm₁ : Stands a τ s₁.withArms.builder m₁ := (hn.stands.addBlock _).addBlock _
    by_cases hn₀ : n ≠ 0
    · have htarget := (ite_truth n s₁.nextBlock s₁.secondBlock).trans (if_pos hn₀)
      obtain ⟨m₂, hstep, hm₂⟩ :=
        condBr_gets hm₁ hs₀.builder hn.holds.eval htarget hfirst hs₀.builder
      rw [if_pos hn₀]
      refine .next hstep ?_
      refine (hbody _ _ hthen hfirst.openAt hs₂ τ m₂ hm₂).extend fun (flow, τ') m₃ hr => ?_
      cases flow with
      | returned v => exact .done hr
      | next =>
        obtain ⟨target, rfl, hgets⟩ := fallThrough_gets hjoin hr.1 hr.2 hs₃.builder hs₃.builder
          fun target heq => (fallThrough_fresh hjoin nofun target heq).1
        cases hfall'.joined target rfl
        refine hgets.andThen fun m₄ hm₄ => .done ⟨(hlast target rfl).openAt, ?_⟩
        exact hm₄.of_eq rfl (hsame target rfl)
    · have htarget := (ite_truth n s₁.nextBlock s₁.secondBlock).trans (if_neg hn₀)
      obtain ⟨m₂, hstep, hm₂⟩ :=
        condBr_gets hm₁ hs₀.builder hn.holds.eval htarget hsecond hs₃.builder
      rw [if_neg hn₀]
      refine .next hstep ?_
      refine (horelse _ _ helse hsecond.openAt hs₄ τ m₂ hm₂).extend fun (flow, τ') m₃ hr => ?_
      cases flow with
      | returned v => exact .done hr
      | next =>
        obtain ⟨target, rfl, hgets⟩ :=
          fallThrough_gets hjoin' hr.1 hr.2 hs₅.builder hs₅.builder hlast
        exact hgets.andThen fun m₄ hm₄ => .done ⟨(hlast target rfl).openAt, hm₄⟩

/-- The blocks of a loop are empty when they are jumped to, and the test is left
    as it is while the body is lowered. -/
theorem loop_fresh {test : Lower Value} {body : Lower Unit} {s s₁ s₂ s₃ : Workspace} {cond : Value}
    (hopen : s.builder.IsOpen)
    (hemits : ∀ {s v s'}, test s = .ok v s' → s.builder.Emits s'.builder)
    (htest : test ((s.withLoop.closed (.br s.nextBlock)).movedTo s.nextBlock) = .ok cond s₁)
    (hbody : body (s₁.movedTo s.secondBlock) = .ok () s₂)
    (hback :
      (s₂.builder.IsOpen ∧ s₃ = s₂.closed (.br s.nextBlock)) ∨ (¬ s₂.builder.IsOpen ∧ s₃ = s₂))
    (hsettles : StepSettles body) :
    (s.withLoop.closed (.br s.nextBlock)).builder.Fresh s.nextBlock.val ∧
      s₁.builder.Fresh s.secondBlock.val ∧ s₃.builder.Fresh s.thirdBlock.val ∧
      s₃.builder.blocks[s.nextBlock.val]? = s₁.builder.blocks[s.nextBlock.val]? := by
  have hopen' : s.withLoop.builder.IsOpen := ((hopen.addBlock _).addBlock _).addBlock _
  have hcursor : s.builder.cursor.val < s.builder.blocks.length := hopen.lt
  have hclose := Builder.Framed.close hopen' (.br s.nextBlock)
  have hnext : (s.withLoop.closed (.br s.nextBlock)).builder.Fresh s.nextBlock.val :=
    (((Builder.fresh_addBlock s.builder _).addBlock _).addBlock _).framed hclose
      (Nat.ne_of_gt hcursor)
  have hsecond : s.withLoop.builder.Fresh s.secondBlock.val := by
    have hnew := Builder.fresh_addBlock (s.builder.addBlock "while.test") "while.body"
    have hlength : (s.builder.addBlock "while.test").blocks.length = s.secondBlock.val := by
      simp [Builder.addBlock, Workspace.secondBlock]
    rw [hlength] at hnew
    exact hnew.addBlock _
  have hthird : s.withLoop.builder.Fresh s.thirdBlock.val := by
    have hnew := Builder.fresh_addBlock
      ((s.builder.addBlock "while.test").addBlock "while.body") "while.end"
    have hlength : ((s.builder.addBlock "while.test").addBlock "while.body").blocks.length =
        s.thirdBlock.val := by
      simp [Builder.addBlock, Workspace.thirdBlock]
    rw [hlength] at hnew
    exact hnew
  -- The test works on its own block, and the body on the second and on blocks of its own.
  have htest' := (hemits htest).settles.toFramed
  have hbody' := (hsettles _ _ hbody).toFramed
  have hsecond₀ : ((s.withLoop.closed (.br s.nextBlock)).movedTo s.nextBlock).builder.Fresh
      s.secondBlock.val :=
    (hsecond.framed hclose (Nat.ne_of_gt (Nat.lt_succ_of_lt hcursor))).movedTo _
  have hthird₀ : ((s.withLoop.closed (.br s.nextBlock)).movedTo s.nextBlock).builder.Fresh
      s.thirdBlock.val :=
    (hthird.framed hclose (Nat.ne_of_gt (Nat.lt_succ_of_lt (Nat.lt_succ_of_lt hcursor)))).movedTo _
  have hsecond₁ := hsecond₀.framed htest' (Nat.succ_ne_self _)
  have hthird₁ : (s₁.movedTo s.secondBlock).builder.Fresh s.thirdBlock.val :=
    (hthird₀.framed htest' (Nat.ne_of_gt (Nat.lt_succ_of_lt (Nat.lt_succ_self _)))).movedTo _
  have hne : s.thirdBlock.val ≠ s.secondBlock.val := Nat.succ_ne_self _
  have hne' : s.nextBlock.val ≠ s.secondBlock.val := Nat.ne_of_lt (Nat.lt_succ_self _)
  have hlt : s.nextBlock.val < (s₁.movedTo s.secondBlock).builder.blocks.length :=
    Nat.lt_of_lt_of_le hnext.lt htest'.length
  have hthird₂ := hthird₁.framed hbody' hne
  have hsame := hbody'.others _ hlt hne'
  refine ⟨hnext, hsecond₁, ?_, ?_⟩
  · rcases hback with ⟨hopen₂, rfl⟩ | ⟨-, rfl⟩
    · exact hthird₂.framed (.close hopen₂ _) (hbody'.ne_cursor hthird₁.lt hne)
    · exact hthird₂
  · rcases hback with ⟨hopen₂, rfl⟩ | ⟨-, rfl⟩
    · have hlt' := Nat.lt_of_lt_of_le hlt hbody'.length
      exact ((Builder.Framed.close hopen₂ _).others _ hlt' (hbody'.ne_cursor hlt hne')).trans hsame
    · exact hsame

theorem loop_attains {test : Lower Value} {body : Lower Unit} {ts : Meaning Store Int32}
    {bs : Meaning Store Flow}
    (hemits : ∀ {s v s'}, test s = .ok v s' → s.builder.Emits s'.builder)
    (htest : TestAttains p limits a fuel test ts)
    (htestGrows : StepGrows test) (hbody : StepAttains p limits a fuel body bs)
    (hsettles : StepSettles body) (hgrows : StepGrows body) :
    StepAttains p limits a fuel (loop test body) (repeatWhile ts bs fuel) := by
  intro s s' h hopen hs' σ m hm
  cases loop_run h with
  | @mk s₁ s₂ s₃ cond hopen' hcond hrun hcursor hback hexit =>
    let s₀ := s.withLoop.closed (.br s.nextBlock)
    let s₄ := (s₃.movedTo s₁.builder.cursor).closed (.condBr cond s.secondBlock s.thirdBlock)
    have hexit_eq : s₁.builder.cursor = s.nextBlock := (hemits hcond).cursor_eq
    -- The finished function comes about from every stage.
    have hs₄ : s₄.Precedes a p := hs'.of_movedTo
    have hs₃ : s₃.Precedes a p :=
      (hs₄.before (Builder.Framed.close hexit _).toGrows (.refl _)).of_movedTo
    have hs₂ : s₂.Precedes a p := by
      rcases hback with ⟨hopen₂, rfl⟩ | ⟨-, rfl⟩
      · exact hs₃.before (Builder.Framed.close hopen₂ _).toGrows (.refl _)
      · exact hs₃
    have hs₁ : s₁.Precedes a p :=
      (hs₂.before (hsettles _ _ hrun).toGrows (hgrows _ _ _ hrun)).of_movedTo
    have hs₀ : s₀.Precedes a p :=
      (hs₁.before (hemits hcond).settles.toGrows (htestGrows _ _ _ hcond)).of_movedTo
    obtain ⟨hnext, hsecond, hthird, hsame⟩ := loop_fresh hopen hemits hcond hrun hback hsettles
    have hend : s₄.builder.Fresh s.thirdBlock.val := by
      refine (hthird.movedTo s₁.builder.cursor).framed (.close hexit _) ?_
      change s.thirdBlock.val ≠ s₁.builder.cursor.val
      rw [hexit_eq]
      exact Nat.ne_of_gt (Nat.lt_succ_of_lt (Nat.lt_succ_self _))
    -- Each round starts at the test, with less fuel.
    have hloop : ∀ k, k ≤ fuel → ∀ τ m, Stands a τ (s₀.movedTo s.nextBlock).builder m →
        Attains p limits k (Ends a (s₄.movedTo s.thirdBlock).builder) m
          (repeatWhile ts bs k τ) := by
      intro k
      induction k with
      | zero => exact fun _ τ m _ => ⟨m, .refl m⟩
      | succ k ih =>
        intro hk τ m hm
        refine ((htest _ _ _ hcond hs₁ _ _ hm).mono hk fun _ _ => id).bind fun n τ₁ m₁ hn => ?_
        have hm₁ : Stands a τ₁ (s₃.movedTo s₁.builder.cursor).builder m₁ := by
          refine hn.stands.of_eq rfl ?_
          rw [hexit_eq]
          exact hsame
        by_cases hn₀ : n = 0
        · have hfalse : ¬ n ≠ 0 := not_not_intro hn₀
          have htarget := (ite_truth n s.secondBlock s.thirdBlock).trans (if_neg hfalse)
          obtain ⟨m₂, hstep, hm₂⟩ :=
            condBr_gets hm₁ hs₄.builder hn.holds.eval htarget hend hs₄.builder
          rw [if_pos hn₀]
          exact .next hstep (.done ⟨hend.openAt, hm₂⟩)
        · have htarget := (ite_truth n s.secondBlock s.thirdBlock).trans (if_pos hn₀)
          obtain ⟨m₂, hstep, hm₂⟩ :=
            condBr_gets hm₁ hs₄.builder hn.holds.eval htarget hsecond hs₁.builder
          rw [if_neg hn₀]
          refine .step hstep ?_
          refine ((hbody _ _ hrun hsecond.openAt hs₂ τ₁ m₂ hm₂).mono (Nat.le_of_succ_le hk)
            fun _ _ => id).bind fun flow τ₂ m₃ hr => ?_
          cases flow with
          | returned v => exact .done hr
          | next =>
            rcases hback with ⟨-, rfl⟩ | ⟨hclosed, -⟩
            · obtain ⟨m₄, hstep', hm₄⟩ := br_gets hr.2 hs₃.builder hnext hs₀.builder
              exact .next hstep' (ih (Nat.le_of_succ_le hk) τ₂ m₄ hm₄)
            · exact absurd hr.1 hclosed
    have hm₀ : Stands a σ s.withLoop.builder m := ((hm.addBlock _).addBlock _).addBlock _
    obtain ⟨m₀, hstep, hstands⟩ := br_gets hm₀ hs₀.builder hnext hs₀.builder
    exact .next hstep (hloop fuel (Nat.le_refl _) σ m₀ hstands)

/-! ## Statements -/

variable {env : Env}

/-- From where a node was lowered in the place of a statement, the machine
    attains what running the node means. -/
def StatementAttains (p : Program) (limits : ExecOptions) (a : Activation) (env : Env) (n : Node) :
    Prop :=
  StepAttains p limits a env.fuel (statement n) (n.exec env)

/-- Statements are run as long as the block under the cursor is open. What was
    lowered behind a return is not reached. -/
theorem block_attains {ns : List Node} (hns : ∀ n ∈ ns, StatementAttains p limits a env n) :
    StepAttains p limits a env.fuel (block ns) (blockExec env ns) := by
  induction ns with
  | nil =>
    intro s s' h hopen hs' σ m hm
    obtain ⟨-, rfl⟩ := pure_eq_ok.mp h
    exact .done ⟨hopen, hm⟩
  | cons n rest ih =>
    intro s s' h hopen hs' σ m hm
    rw [List.forall_mem_cons] at hns
    obtain ⟨s₁, s₂, hreopen, hn, hrest⟩ := block_cons_eq_ok.mp h
    obtain ⟨-, ⟨-, rfl⟩ | ⟨hclosed, -⟩⟩ := reopen_eq_ok.mp hreopen
    · have hs₂ := hs'.before (block_settles (fun n _ => statement_settles n) _ _ hrest).toGrows
        (block_grows _ _ _ _ hrest)
      refine (hns.1 _ _ hn hopen hs₂ σ m hm).bind fun flow τ m₁ hr => ?_
      cases flow with
      | returned v => exact .done hr
      | next => exact ih hns.2 _ _ hrest hr.1 hs' τ m₁ hr.2
    · exact absurd hopen hclosed

theorem elseClause_attains {ns : List Node} (hns : ∀ n ∈ ns, StatementAttains p limits a env n) :
    StepAttains p limits a env.fuel (elseClause ns) (elseExec env ns) := by
  intro s s' h hopen hs' σ m hm
  cases ns with
  | nil =>
    obtain ⟨-, rfl⟩ := pure_eq_ok.mp h
    exact .done ⟨hopen, hm⟩
  | cons n rest =>
    have hbuilder := s.shortened_builder (n :: rest).length
    rw [elseClause_cons] at h
    rw [← hbuilder] at hopen hm
    exact hns n (List.mem_cons_self ..) _ _ h hopen hs' σ m hm

/-- A node that has a value is run for what its operands do. -/
theorem exec_of_exprRun {k : Kind} (h : ExprRun k s v s') (env : Env) :
    k.exec env = (do let _ ← k.value env; return .next) := by
  cases h <;> rfl

/-- A statement means what its blocks do. -/
theorem statementAttains (henv : env.Fits p limits a) (n : Node) :
    StatementAttains p limits a env n := by
  induction n using Node.parts_induction with
  | step n ih =>
    obtain ⟨kind, location, span⟩ := n
    intro s s' hrun hopen hs' σ m hm
    cases statement_run hrun with
    | assign hvalue h =>
      obtain ⟨b, hwrite, rfl⟩ := build_eq_ok.mp h
      have hs₁ := hs'.before (Build.write_settles hwrite).toGrows (.refl _)
      refine (expr_attains henv hvalue hs₁ hm).bind fun n τ m₁ hn => ?_
      refine .after (write_gets hwrite hs'.builder hn.stands hn.holds) fun m₂ hm₂ => ?_
      obtain ⟨w, b₁, -, hopen₁, rfl⟩ := Build.write_eq_ok.mp hwrite
      exact .done ⟨Builder.isOpen_emitted.mpr (Builder.isOpen_withSlot.mpr hopen₁), hm₂⟩
    | expr h =>
      refine (expr_attains henv h hs' hm).bind fun n τ m₁ hn => ?_
      exact .done ⟨(expr_emits h).isOpen_iff.mpr hopen, hn.stands⟩
    | ret hvalue h =>
      obtain ⟨b, hret, rfl⟩ := build_eq_ok.mp h
      have hs₁ := hs'.before (Build.ret_settles hret).toGrows (.refl _)
      refine (expr_attains henv hvalue hs₁ hm).bind fun n τ m₁ hn => ?_
      exact .after (ret_gets hret hs'.builder hn.stands hn.holds) fun m₂ hm₂ => .done hm₂
    | retNone h =>
      obtain ⟨b, hret, rfl⟩ := build_eq_ok.mp h
      exact .after (ret_gets hret hs'.builder hm (Frame.holds_int ..)) fun m₁ hm₁ => .done hm₁
    | ifElse h =>
      exact branch_attains condition_emits (condition_attains henv _)
        (block_attains fun n hn => ih n (by simp [Kind.parts, hn]))
        (block_settles fun n _ => statement_settles n) (block_grows _)
        (elseClause_attains fun n hn => ih n (by simp [Kind.parts, hn]))
        (elseClause_settles fun n _ => statement_settles n)
        (elseClause_grows _) _ _ h hopen hs' σ m hm
    | whileLoop h =>
      exact loop_attains condition_emits (condition_attains henv _) (condition_grows _)
        (block_attains fun n hn => ih n (by simp [Kind.parts, hn]))
        (block_settles fun n _ => statement_settles n) (block_grows _)
        _ _ h hopen hs' σ m hm
    | functionDef h => exact .done ⟨hopen, hm⟩
    | value h =>
      change Attains _ _ _ _ _ (kind.exec env σ)
      rw [exec_of_exprRun h env]
      refine (exprAttains henv ⟨kind, location, span⟩ _ _ _ h hs' σ m hm).bind
        fun n τ m₁ hn => ?_
      exact .done ⟨(exprEmits ⟨kind, location, span⟩ _ _ _ h).isOpen_iff.mpr hopen, hn.stands⟩

end Lower

end Blockform
