-- SUMMARY: Lowering accepts exactly its language, and reports the first violation.
import Blockform.Proofs.Following

/-!
# The first violation

Statements and functions follow what they ask for, as expressions do. The block
under the cursor is open where a statement starts, and there is a cursor where
it ends; blocks that a construct puts aside are found as they were left
(`Builder.Settles`). So the outcome of lowering a tree is that of the walk.
-/

namespace Blockform

open Effect Walk

namespace Lower

variable {α : Type} {options : LowerOptions} {R R' : Builder → Prop}

/-! ## Constructs -/

/-- There is room for a statement behind any other. -/
theorem reopen_follows : Follows options Builder.HasCursor Builder.IsOpen reopen [] := by
  intro w s hw hcursor
  by_cases hopen : s.builder.IsOpen
  · exact ⟨(), s, reopen_eq_ok.mpr ⟨hcursor, .inl ⟨hopen, rfl⟩⟩, hw, rfl, hopen⟩
  · have hok : reopen s = .ok () ((s.withBlock "unreachable").movedTo s.nextBlock) :=
      reopen_eq_ok.mpr ⟨hcursor, .inr ⟨hopen, rfl⟩⟩
    exact ⟨(), _, hok, (hw.withBlock _).movedTo _, rfl, reopen_isOpen hok⟩

theorem fallThrough_follows (join : Option BlockId) :
    Follows options Builder.HasCursor Builder.HasCursor (fallThrough join) [] := by
  intro w s hw hcursor
  by_cases hopen : s.builder.IsOpen
  · obtain ⟨target, s₁, hjoin, hw₁⟩ : ∃ target s₁, ((join = some target ∧ s₁ = s) ∨
        (join = none ∧ target = s.nextBlock ∧ s₁ = s.withBlock "if.end")) ∧
          w.Tracks options s₁ := by
      cases join with
      | some target => exact ⟨target, s, .inl ⟨rfl, rfl⟩, hw⟩
      | none => exact ⟨_, _, .inr ⟨rfl, rfl, rfl⟩, hw.withBlock _⟩
    have hok : fallThrough join s = .ok (some target) (s₁.closed (.br target)) :=
      fallThrough_eq_ok.mpr ⟨hcursor, .inr ⟨hopen, target, s₁, rfl, rfl, hjoin⟩⟩
    exact ⟨_, _, hok, hw₁.closed _, rfl, (fallThrough_run hok).framed.hasCursor hcursor⟩
  · exact ⟨join, s, fallThrough_eq_ok.mpr ⟨hcursor, .inl ⟨hopen, rfl, rfl⟩⟩, hw, rfl, hcursor⟩

/-- What is known of the runs of a step, seen from the function it starts with. -/
theorem Follows.keeping {x : Lower α} {rs : List Request} (hx : Follows options R R' x rs)
    {K : Builder → Builder → Prop} (hkeeps : ∀ {s a s'}, x s = .ok a s' → K s.builder s'.builder)
    (b : Builder) : Follows options (fun b' => R b' ∧ b' = b) (fun b' => R' b' ∧ K b b') x rs := by
  rintro w s hw ⟨hR, rfl⟩
  cases hrun : w.run options rs with
  | error e => exact hx.refused hw hR hrun
  | ok w' =>
    obtain ⟨a, s', hok, hw', houter, hR'⟩ := hx.granted hw hR hrun
    exact ⟨a, s', hok, hw', houter, hR', hkeeps hok⟩

/-- The way out of a branch, behind its second arm. -/
theorem branchEnd_follows (join : Option BlockId) {b : Builder}
    (hjoin : ∀ target, join = some target → target.val < b.blocks.length) :
    Follows options (fun b' => b'.HasCursor ∧ b.Settles b') Builder.HasCursor
      (do
        match ← fallThrough join with
        | some target => moveTo target
        | none => Pure.pure ()) [] := by
  rintro w s hw ⟨hcursor, hsettles⟩
  obtain ⟨join', s', hok, hw', houter, hcursor'⟩ :=
    (fallThrough_follows join).granted hw hcursor rfl
  have hrun := fallThrough_run hok
  cases join' with
  | none => exact ⟨(), s', bind_of_ok hok, hw', houter, hcursor'⟩
  | some target =>
    refine ⟨(), s'.movedTo target, bind_of_ok hok, hw'.movedTo target, houter, ?_⟩
    rcases hrun.target target rfl with heq | ⟨-, hlt⟩
    · exact Nat.lt_of_lt_of_le (hjoin target heq)
        (Nat.le_trans hsettles.length hrun.framed.length)
    · exact hlt

theorem branch_follows {test : Lower Value} {body orelse : Lower Unit} {ts bs es : List Request}
    (htest : Follows options Builder.IsOpen Builder.IsOpen test ts)
    (hbody : Follows options Builder.HasCursor Builder.HasCursor body bs)
    (horelse : Follows options Builder.IsOpen Builder.HasCursor orelse es)
    (hsettles : StepSettles body) (hsettles' : StepSettles orelse) :
    Follows options Builder.IsOpen Builder.HasCursor (branch test body orelse)
      (ts ++ (bs ++ es)) := by
  refine htest.bind fun cond => ?_
  intro w s hw hopen
  have hopen' : s.withArms.builder.IsOpen := (hopen.addBlock _).addBlock _
  let s₁ := (s.withArms.closed (.condBr cond s.nextBlock s.secondBlock)).movedTo s.nextBlock
  have hw₁ : w.Tracks options s₁ := (((hw.withBlock _).withBlock _).closed _).movedTo _
  have hclosed : build (Build.condBr cond s.nextBlock s.secondBlock)
      ((s.withBlock "if.then").withBlock "if.else") =
      .ok () (s.withArms.closed (.condBr cond s.nextBlock s.secondBlock)) :=
    terminate_eq_ok.mpr ⟨hopen', rfl⟩
  have harms : Follows options (fun b => b.HasCursor ∧ b = s₁.builder) Builder.HasCursor
      (do
        body
        let join ← fallThrough none
        moveTo s.secondBlock
        orelse
        match ← fallThrough join with
        | some target => moveTo target
        | none => Pure.pure ()) (bs ++ es) := by
    refine (hbody.keeping (hsettles _ _) s₁.builder).bind fun _ => ?_
    rintro w₂ s₂ hw₂ ⟨hcursor₂, hsettled⟩
    obtain ⟨join, s₃, hok, hw₃, houter, hcursor₃⟩ :=
      (fallThrough_follows none).granted hw₂ hcursor₂ rfl
    have hrun := fallThrough_run hok
    have hopen₃ := secondArm_isOpen hopen.hasCursor hsettled hrun
    have hjoin : ∀ target, join = some target →
        target.val < (s₃.movedTo s.secondBlock).builder.blocks.length := by
      intro target heq
      rcases hrun.target target heq with hnone | ⟨-, hlt⟩
      · cases hnone
      · exact hlt
    have hsecond := ((horelse.keeping (hsettles' _ _) (s₃.movedTo s.secondBlock).builder).bind
      fun _ => branchEnd_follows join hjoin) w₂ _ (hw₃.movedTo s.secondBlock) ⟨hopen₃, rfl⟩
    rw [List.append_nil] at hsecond
    rw [bind_of_ok hok, bind_of_ok (moveTo_run _ _)]
    exact hsecond
  rw [bind_of_ok (newBlock_run _ _), bind_of_ok (newBlock_run _ _), Workspace.withBlock_nextBlock,
    bind_of_ok hclosed, bind_of_ok (moveTo_run _ _)]
  exact harms w s₁ hw₁ ⟨firstArm_hasCursor _ _, rfl⟩

/-- The way out of a loop, behind its body: back to the test, whose block was put
    aside meanwhile. -/
theorem loopEnd_follows (cond : Value) (testBlock bodyBlock : BlockId) {endBlock testExit : BlockId}
    {b : Builder} (hexit : b.OpenAt testExit.val) (hne : testExit.val ≠ b.cursor.val)
    (hend : endBlock.val < b.blocks.length) :
    Follows options (fun b' => b'.HasCursor ∧ b.Settles b') Builder.HasCursor
      (do
        if !(← isTerminated) then build (Build.br testBlock)
        moveTo testExit
        build (Build.condBr cond bodyBlock endBlock)
        moveTo endBlock) [] := by
  rintro w s hw ⟨hcursor, hsettles⟩
  have hopen₁ : s.builder.OpenAt testExit.val :=
    (hsettles.openAt_iff hexit.lt hne).mpr hexit
  have hfinish {s' : Workspace} (hw' : w.Tracks options s')
      (hopen' : s'.builder.OpenAt testExit.val)
      (hlength : s.builder.blocks.length ≤ s'.builder.blocks.length) :
      ∃ u s'', (do
        moveTo testExit
        build (Build.condBr cond bodyBlock endBlock)
        moveTo endBlock : Lower Unit) s' = .ok u s'' ∧ w.Tracks options s'' ∧ w.outer = w.outer ∧
          s''.builder.HasCursor := by
    have hclosed : build (Build.condBr cond bodyBlock endBlock) (s'.movedTo testExit) =
        .ok () ((s'.movedTo testExit).closed (.condBr cond bodyBlock endBlock)) :=
      terminate_eq_ok.mpr ⟨hopen', rfl⟩
    refine ⟨(), _,
      (bind_of_ok (moveTo_run _ _)).trans ((bind_of_ok hclosed).trans (moveTo_run _ _)),
      ((hw'.movedTo _).closed _).movedTo _, rfl, ?_⟩
    have hlength' := (Builder.Framed.close (b := (s'.movedTo testExit).builder) hopen'
      (.condBr cond bodyBlock endBlock)).length
    exact Nat.lt_of_lt_of_le hend (Nat.le_trans hsettles.length (Nat.le_trans hlength hlength'))
  by_cases hopen : s.builder.IsOpen
  · have hok : isTerminated s = .ok false s :=
      isTerminated_eq_ok.mpr ⟨rfl, hcursor, by simp [hopen]⟩
    have hback : build (Build.br testBlock) s = .ok () (s.closed (.br testBlock)) :=
      terminate_eq_ok.mpr ⟨hopen, rfl⟩
    have hne' : testExit.val ≠ s.builder.cursor.val := by
      rcases hsettles.cursor with heq | ⟨hge, -⟩
      · rwa [heq]
      · exact Nat.ne_of_lt (Nat.lt_of_lt_of_le hexit.lt hge)
    obtain ⟨u, s'', hrun, hrest⟩ := hfinish (hw.closed (.br testBlock))
      (Builder.openAt_close.mpr ⟨hopen₁, hne'⟩) (Builder.Framed.close hopen (.br testBlock)).length
    exact ⟨u, s'', (bind_of_ok hok).trans ((bind_of_ok hback).trans hrun), hrest⟩
  · have hok : isTerminated s = .ok true s :=
      isTerminated_eq_ok.mpr ⟨rfl, hcursor, by simp [hopen]⟩
    obtain ⟨u, s'', hrun, hrest⟩ := hfinish hw hopen₁ (Nat.le_refl _)
    exact ⟨u, s'', (bind_of_ok hok).trans hrun, hrest⟩

theorem loop_follows {test : Lower Value} {body : Lower Unit} {ts bs : List Request}
    (htest : Follows options Builder.IsOpen Builder.IsOpen test ts)
    (hbody : Follows options Builder.HasCursor Builder.HasCursor body bs)
    (hemits : ∀ {s v s'}, test s = .ok v s' → s.builder.Emits s'.builder)
    (hsettles : StepSettles body) :
    Follows options Builder.IsOpen Builder.HasCursor (loop test body) (ts ++ bs) := by
  intro w s hw hopen
  let s₁ := (s.withLoop.closed (.br s.nextBlock)).movedTo s.nextBlock
  have hw₁ : w.Tracks options s₁ :=
    ((((hw.withBlock _).withBlock _).withBlock _).closed _).movedTo _
  have hopen' : s.withLoop.builder.IsOpen := ((hopen.addBlock _).addBlock _).addBlock _
  have hclosed : build (Build.br s.nextBlock)
      (((s.withBlock "while.test").withBlock "while.body").withBlock "while.end") =
      .ok () (s.withLoop.closed (.br s.nextBlock)) :=
    terminate_eq_ok.mpr ⟨hopen', rfl⟩
  have hlength : s₁.builder.blocks.length = s.builder.blocks.length + 3 := s.length_withLoop _
  have hopen₁ : s₁.builder.IsOpen := by
    refine Builder.openAt_close.mpr ⟨?_, Nat.ne_of_gt hopen.lt⟩
    refine Builder.openAt_addBlock.mpr (.inl (Builder.openAt_addBlock.mpr (.inl ?_)))
    exact Builder.openAt_addBlock.mpr (.inr rfl)
  have hstages : Follows options (fun b => b.IsOpen ∧ b = s₁.builder) Builder.HasCursor
      (do
        let cond ← test
        let testExit := (← get).builder.cursor
        moveTo s.secondBlock
        body
        if !(← isTerminated) then build (Build.br s.nextBlock)
        moveTo testExit
        build (Build.condBr cond s.secondBlock s.thirdBlock)
        moveTo s.thirdBlock) (ts ++ bs) := by
    refine (htest.keeping hemits s₁.builder).bind fun cond => ?_
    rintro w₂ s₂ hw₂ ⟨hopen₂, hemitted⟩
    have hlength₂ : s.builder.blocks.length + 3 ≤ s₂.builder.blocks.length :=
      hlength ▸ hemitted.settles.length
    -- The test is left open while the body is lowered.
    have hexit : (s₂.movedTo s.secondBlock).builder.OpenAt s₂.builder.cursor.val := hopen₂
    have hne : s₂.builder.cursor.val ≠ s.secondBlock.val := by
      rw [hemitted.cursor_eq]
      exact Nat.ne_of_lt (Nat.lt_succ_self _)
    have hcursor₂ : (s₂.movedTo s.secondBlock).builder.HasCursor :=
      Nat.lt_of_lt_of_le (Nat.lt_succ_self _) (Nat.le_trans (Nat.le_succ _) hlength₂)
    have hrest := ((hbody.keeping (hsettles _ _) (s₂.movedTo s.secondBlock).builder).bind
      fun _ => loopEnd_follows cond s.nextBlock s.secondBlock hexit hne hlength₂)
        w₂ _ (hw₂.movedTo s.secondBlock) ⟨hcursor₂, rfl⟩
    rw [List.append_nil] at hrest
    have hget : (get : Lower Workspace) s₂ = .ok s₂ s₂ := rfl
    rw [bind_of_ok hget, bind_of_ok (moveTo_run _ _)]
    exact hrest
  rw [loop, bind_of_ok (newBlock_run _ _), bind_of_ok (newBlock_run _ _),
    bind_of_ok (newBlock_run _ _), Workspace.withBlock_nextBlock, Workspace.withBlock_nextBlock,
    Workspace.withBlock_secondBlock, bind_of_ok hclosed, bind_of_ok (moveTo_run _ _)]
  exact hstages w s₁ hw₁ ⟨hopen₁, rfl⟩

/-! ## Functions -/

/-- A body that is still open returns; that asks for nothing. -/
theorem fallOff_follows :
    Follows options Builder.HasCursor Builder.HasCursor fallOff [] := by
  intro w s hw hcursor
  obtain ⟨closed, hok, hopen⟩ := exists_isTerminated hcursor
  cases closed with
  | false =>
    obtain ⟨u, s', hret, hrest⟩ := (ret_follows (.int 0)).granted hw (hopen.mp rfl) rfl
    exact ⟨u, s', (bind_of_ok hok).trans hret, hrest⟩
  | true => exact ⟨(), s, bind_of_ok hok, hw, rfl, hcursor⟩

/-- A function that has been claimed is built as its body is walked. -/
theorem buildFunction_follows (name : String) (params : List String) {body : Lower Unit}
    {bs : List Request} (hbody : Follows options Builder.HasCursor Builder.HasCursor body bs)
    (hgrows : StepGrows body) {w : Walk} {ctx ctx₁ : Context} {id : FunctionId}
    (hclaim : ctx.claim name params.length = .ok (id, ctx₁)) (hid : id ∈ ctx₁.building)
    (hoptions : ctx₁.options = options) (hw : w.Registers ctx₁)
    (hinner : w.body = { function := name, params }) :
    match w.run options bs with
    | .ok w' => ∃ ctx', Context.buildFunction name params body ctx = .ok id ctx' ∧
        ctx'.options = options ∧ w'.Registers ctx' ∧ w'.outer = w.outer
    | .error e => ∃ ctx', Context.buildFunction name params body ctx = .error (.error e) ctx' := by
  let s₀ := Workspace.start ctx₁ name params
  have hw₀ : w.Tracks options s₀ :=
    ⟨hoptions, hw.of_eq rfl rfl, by rw [hinner]; exact ⟨rfl, rfl, rfl⟩⟩
  have hcursor₀ : s₀.builder.HasCursor := Nat.one_pos
  have hwhole := hbody.bind fun _ => fallOff_follows
  have hgrown : StepGrows (body >>= fun _ => fallOff) :=
    grows_stepRules.bind hgrows fun _ => grows_stepRules.fallOff
  rw [← List.append_nil bs]
  cases hrun : w.run options (bs ++ []) with
  | error e =>
    obtain ⟨s', hfail⟩ := hwhole.refused hw₀ hcursor₀ hrun
    exact ⟨s'.context, by rw [buildFunction_of_claim hclaim, hfail]⟩
  | ok w' =>
    obtain ⟨u, s', hok, hw', houter, hcursor⟩ := hwhole.granted hw₀ hcursor₀ hrun
    have hclaimed : id ∈ s'.context.building := by
      rw [(hgrown _ _ _ hok).building]
      exact hid
    refine ⟨s'.finished id name, ?_, hw'.options, ?_, houter⟩
    · rw [buildFunction_of_claim hclaim, hok]
    · exact (hw'.registers.complete hclaimed hcursor).of_eq rfl rfl

/-- A function inside another one: it is entered and left. -/
theorem nested_follows {name : String} {params : List String} {body : Lower Unit}
    {bs : List Request} (hbody : Follows options Builder.HasCursor Builder.HasCursor body bs)
    (hgrows : StepGrows body) :
    Follows options R R (nested (Context.buildFunction name params body))
      (.enter name params :: (bs ++ [.leave])) := by
  intro w s hw hR
  have hclaim := hw.registers.claim_eq name params.length
  by_cases hbegun : name ∈ w.begun
  · have hstep : w.step options (.enter name params) = .error (.duplicate name) := if_pos hbegun
    rw [if_pos hbegun] at hclaim
    rw [run_cons_of_error hstep]
    refine ⟨s, ?_⟩
    unfold nested Context.buildFunction
    rw [hclaim]
  · have hstep : w.step options (.enter name params) = .ok (w.enter name params) := if_neg hbegun
    rw [if_neg hbegun] at hclaim
    have hclaimed := hw.registers.claim name params.length
    have hentered : (w.enter name params).Registers _ :=
      ⟨hclaimed.names, hclaimed.distinct, hclaimed.begun, hclaimed.claimed, hclaimed.busy⟩
    have hoptions := (Context.declare_grows s.context name ⟨params.length⟩).options.trans hw.options
    have hbuilt := buildFunction_follows name params hbody hgrows hclaim (List.mem_cons_self ..)
      hoptions hentered rfl
    rw [run_cons_of_ok hstep]
    cases hrun : (w.enter name params).run options bs with
    | error e =>
      rw [hrun] at hbuilt
      obtain ⟨ctx', hfail⟩ := hbuilt
      rw [run_append_of_error hrun]
      refine ⟨{ s with context := ctx' }, ?_⟩
      unfold nested
      rw [hfail]
    | ok w' =>
      rw [hrun] at hbuilt
      obtain ⟨ctx', hok, hoptions', hw', houter⟩ := hbuilt
      have houter : w'.outer = w.body :: w.outer := houter
      have hleave : w'.run options [.leave] = .ok { w' with body := w.body, outer := w.outer } := by
        rw [run_singleton, step, leave, houter]
      rw [run_append_of_ok hrun, hleave]
      have hnested : nested (Context.buildFunction name params body) s =
          .ok (s.context.declare name ⟨params.length⟩).1 { s with context := ctx' } := by
        unfold nested
        rw [hok]
      refine ⟨_, _, hnested, ⟨hoptions', ?_, hw.describes⟩, rfl, hR⟩
      exact ⟨hw'.names, hw'.distinct, hw'.begun, hw'.claimed, hw'.busy⟩

/-! ## Statements -/

/-- Lowering a node in the place of a statement follows what it asks for there. -/
def StatementFollows (options : LowerOptions) (n : Node) : Prop :=
  Follows options Builder.IsOpen Builder.HasCursor (statement n) n.asks

/-- An open block is one to go on from. -/
theorem Follows.hasCursor {x : Lower α} {rs : List Request}
    (hx : Follows options R Builder.IsOpen x rs) : Follows options R Builder.HasCursor x rs := by
  intro w s hw hR
  cases hrun : w.run options rs with
  | error e => exact hx.refused hw hR hrun
  | ok w' =>
    obtain ⟨a, s', hok, hw', houter, hopen⟩ := hx.granted hw hR hrun
    exact ⟨a, s', hok, hw', houter, hopen.hasCursor⟩

/-- A value that is not used. -/
theorem discard_follows {x : Lower α} {rs : List Request} (hx : Follows options R R' x rs) :
    Follows options R R' (do let _ ← x) rs := by
  rw [← List.append_nil rs]
  exact hx.bind fun _ => .pure ()

theorem block_follows {ns : List Node} (hns : ∀ n ∈ ns, StatementFollows options n) :
    Follows options Builder.HasCursor Builder.HasCursor (block ns) (blockAsks ns) := by
  induction ns with
  | nil => exact .pure ()
  | cons n rest ih =>
    rw [List.forall_mem_cons] at hns
    exact reopen_follows.bind fun _ => hns.1.bind fun _ => ih hns.2

theorem elseClause_follows {ns : List Node} (hns : ∀ n ∈ ns, StatementFollows options n) :
    Follows options Builder.IsOpen Builder.HasCursor (elseClause ns) (elseAsks ns) := by
  cases ns with
  | nil => exact (Follows.pure ()).hasCursor
  | cons n rest =>
    intro w s hw hopen
    have hbuilder := s.shortened_builder (n :: rest).length
    rw [elseClause_cons]
    exact hns n (List.mem_cons_self ..) w _ (hw.shortened _) (hbuilder ▸ hopen)

theorem statementKind_follows {k : Kind} (hparts : ∀ n ∈ k.parts, StatementFollows options n) :
    Follows options Builder.IsOpen Builder.HasCursor (statementKind k) k.asks := by
  have hvalue : Follows options Builder.IsOpen Builder.HasCursor
      (do let _ ← exprKind k) k.valueAsks :=
    (discard_follows (exprKind_follows fun n _ => exprFollows n)).hasCursor
  cases k with
  | assign targets value =>
    match targets with
    | [] => exact .unsupported _
    | [⟨kind, location, span⟩] =>
      cases kind with
      | name id => exact ((exprFollows value).bind fun v => write_follows id v).hasCursor
      | _ => exact (Follows.unsupported _).locating _
    | ⟨kind, location, span⟩ :: target :: rest =>
      cases kind <;> exact .unsupported _
  | expr value => exact (discard_follows (exprFollows value)).hasCursor
  | ret value =>
    cases value with
    | none => exact ret_follows (.int 0)
    | some value =>
      change Follows _ _ _ _ value.valueAsks
      rw [← List.append_nil value.valueAsks]
      exact (exprFollows value).bind ret_follows
  | ifElse test body orelse =>
    exact branch_follows (condition_follows test)
      (block_follows fun n hn => hparts n (by simp [Kind.parts, hn]))
      (elseClause_follows fun n hn => hparts n (by simp [Kind.parts, hn]))
      (block_settles fun n _ => statement_settles n)
      (elseClause_settles fun n _ => statement_settles n)
  | whileLoop test body orelse =>
    cases orelse with
    | cons n rest => exact .unsupported _
    | nil =>
      exact loop_follows (condition_follows test)
        (block_follows fun n hn => hparts n (by simp [Kind.parts, hn])) condition_emits
        (block_settles fun n _ => statement_settles n)
  | functionDef name params body =>
    have hbody := block_follows fun n hn => hparts n (by simpa [Kind.parts] using hn)
    exact (discard_follows
      (nested_follows hbody (block_grows _))).hasCursor
  | augAssign target op value => exact .unsupported _
  | module body => exact .unsupported _
  | forLoop target iter body orelse => exact .unsupported _
  | pass => exact .unsupported _
  | breakLoop => exact .unsupported _
  | continueLoop => exact .unsupported _
  | _ => exact hvalue

theorem statementFollows (n : Node) : StatementFollows options n := by
  induction n using Node.parts_induction with
  | step n ih =>
    obtain ⟨kind, location, span⟩ := n
    exact (statementKind_follows ih).locating ⟨kind, location, span⟩

end Lower

/-! ## Trees -/

namespace Walk

/-- Declaring names one after the other registers them. -/
theorem Registers.declareAll {w : Walk} {ctx : Context} (h : w.Registers ctx)
    (names : List String) :
    (names.foldl register w).Registers
      { ctx with program := names.foldl (fun p name => (p.declare name ⟨1⟩).2) ctx.program } := by
  induction names generalizing w ctx with
  | nil => exact h
  | cons name rest ih =>
    obtain ⟨-, hprogram, -, hbuilding⟩ := Context.declare_eq ctx name ⟨1⟩
    have hrest := ih (h.declare name ⟨1⟩)
    rw [hprogram] at hrest
    exact hrest.of_eq rfl hbuilding.symm

/-- The functions that a lowering starts with are those of the walk, before the
    entry function is claimed. -/
theorem registers_start (options : LowerOptions) (body : Body) :
    (options.builtins.foldl register { registered := [], begun := [], body }).Registers
      (.start options) := by
  have hempty : Registers { registered := [], begun := [], body } { program := {}, options } :=
    ⟨rfl, .nil, nofun, nofun, nofun⟩
  exact (hempty.declareAll options.builtins).of_eq rfl rfl

theorem foldl_register_begun (w : Walk) (names : List String) :
    (names.foldl register w).begun = w.begun := by
  induction names generalizing w with
  | nil => rfl
  | cons name rest ih => exact (ih _).trans (register_begun w name)

theorem foldl_register_body (w : Walk) (names : List String) :
    (names.foldl register w).body = w.body := by
  induction names generalizing w with
  | nil => rfl
  | cons name rest ih => exact (ih _).trans (register_body w name)

/-- A refusal is about the tree: none says that a block is closed. That a callee is not
    declared is said only where it may not be declared by calling it. -/
theorem step_refusal {options : LowerOptions} {w : Walk} {r : Request} {e : LoweringError}
    (h : w.step options r = .error e) : e.kind ≠ .closedBlock ∧
      (e.kind = .undeclaredCallee → options.autoDeclareCallees = false) := by
  induction r generalizing e with
  | refused what =>
    cases h
    simp
  | read name =>
    simp only [step] at h
    split at h <;> cases h
    simp
  | bind name => cases h
  | call name =>
    simp only [step] at h
    split at h
    · cases h
    · split at h
      · cases h
      · rename_i hchoice
        cases h
        simpa using hchoice
  | enter name params =>
    simp only [step] at h
    split at h <;> cases h
    simp
  | leave => cases h
  | inside n r ih =>
    rw [step] at h
    cases hr : w.step options r with
    | ok w' =>
      rw [hr] at h
      cases h
    | error e' =>
      rw [hr] at h
      cases h
      rw [LoweringError.locate_kind]
      exact ih hr

theorem run_refusal {options : LowerOptions} {w : Walk} {rs : List Request} {e : LoweringError}
    (h : w.run options rs = .error e) : e.kind ≠ .closedBlock ∧
      (e.kind = .undeclaredCallee → options.autoDeclareCallees = false) := by
  induction rs generalizing w with
  | nil => cases h
  | cons r rest ih =>
    cases hstep : w.step options r with
    | error e' =>
      rw [run_cons_of_error hstep] at h
      cases h
      exact step_refusal hstep
    | ok w₁ =>
      rw [run_cons_of_ok hstep] at h
      exact ih h

theorem run_error {options : LowerOptions} {w : Walk} {rs : List Request} {e : LoweringError}
    (h : w.run options rs = .error e) : e.kind ≠ .closedBlock := (run_refusal h).1

end Walk

/-- Lowering a module does what its walk does. -/
theorem Context.lowerModule_follows (body : List Node) (options : LowerOptions) :
    match Walk.run options (.start options) (blockAsks body) with
    | .ok w => ∃ id ctx, Context.lowerModule body (.start options) = .ok id ctx ∧ w.Registers ctx
    | .error e => ∃ ctx, Context.lowerModule body (.start options) = .error (.error e) ctx := by
  let main : Body := { function := options.entryName, params := [] }
  obtain ⟨w, hstart, hw, hbegun, hmain⟩ : ∃ w : Walk,
      Walk.start options = w.claim options.entryName ∧ w.Registers (.start options) ∧
        w.begun = [] ∧ w.body = main :=
    ⟨_, rfl, registers_start options main, foldl_register_begun _ _, foldl_register_body _ _⟩
  have hclaim := hw.claim_eq options.entryName 0
  rw [hbegun, if_neg List.not_mem_nil] at hclaim
  have hoptions : ((Context.start options).declare options.entryName ⟨0⟩).2.options = options :=
    (Context.declare_grows (.start options) options.entryName ⟨0⟩).options
  have hbody : Lower.Follows options _ _ (Lower.block body) (blockAsks body) :=
    Lower.block_follows fun n _ => Lower.statementFollows n
  have hbuilt := Lower.buildFunction_follows options.entryName [] hbody
    (Lower.block_grows _) hclaim (List.mem_cons_self ..) hoptions
    (hw.claim options.entryName 0) ((register_body w _).trans hmain)
  rw [hstart]
  cases hrun : (w.claim options.entryName).run options (blockAsks body) with
  | ok w' =>
    rw [hrun] at hbuilt
    obtain ⟨ctx, hok, -, hw', -⟩ := hbuilt
    exact ⟨_, ctx, hok, hw'⟩
  | error e =>
    rw [hrun] at hbuilt
    exact hbuilt

theorem lower_of_ok {body : List Node} {options : LowerOptions} {id : FunctionId} {ctx : Context}
    (h : Context.lowerModule body (.start options) = .ok id ctx) (location : Option Location)
    (span : Option Span) : lower ⟨.module body, location, span⟩ options = .ok ctx.program := by
  unfold lower lowerNoting
  simp only [h]

theorem lower_of_error {body : List Node} {options : LowerOptions} {e : Abort LoweringError}
    {ctx : Context} (h : Context.lowerModule body (.start options) = .error e ctx)
    (location : Option Location) (span : Option Span) :
    lower ⟨.module body, location, span⟩ options = .error e := by
  unfold lower lowerNoting
  simp only [h]

/-- A tree is lowered exactly if nothing that it asks for is refused, and the
    first refusal is what is reported, at the position of the innermost node
    around it that has one. -/
theorem lower_reports_firstViolation (tree : Node) (options : LowerOptions) :
    match firstViolation tree options with
    | none => ∃ program, lower tree options = .ok program
    | some e => lower tree options = .error (.error e) ∧ e.kind ≠ .closedBlock := by
  obtain ⟨kind, location, span⟩ := tree
  cases kind with
  | module body =>
    have hmodule := Context.lowerModule_follows body options
    unfold firstViolation
    cases hrun : Walk.run options (.start options) (blockAsks body) with
    | ok w =>
      rw [hrun] at hmodule
      obtain ⟨id, ctx, hok, -⟩ := hmodule
      simp only [hrun]
      exact ⟨_, lower_of_ok hok location span⟩
    | error e =>
      rw [hrun] at hmodule
      obtain ⟨ctx, hfail⟩ := hmodule
      simp only [hrun]
      exact ⟨lower_of_error hfail location span, Walk.run_error hrun⟩
  | _ => exact ⟨rfl, by simp⟩

end Blockform
