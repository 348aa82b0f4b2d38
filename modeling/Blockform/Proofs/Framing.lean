-- SUMMARY: What lowering keeps of a function under construction (`Builder.Framed`), and that whole statements leave nothing open behind them (`Builder.Settles`).
import Blockform.Proofs.Inversion

/-!
# Growth of functions under construction

Building never takes anything back: blocks, slots and the operations of a block
are only added to, and nothing is added behind a terminator (`Builder.Grows`).
A stretch of steps inside a construct works on the block under the cursor and on
the blocks that it creates itself, and leaves all others as they are
(`Builder.Framed`). So a block that was put aside, such as the second arm of a
branch, is found again as it was left. A whole statement also closes every block
that it worked on, but for the one it leaves the cursor on (`Builder.Settles`).
-/

namespace Blockform

/-! ## Growth -/

/-- A block that may have been added to while it was open. -/
structure Block.Grows (k k' : Block) : Prop where
  label : k'.label = k.label
  ops : k.ops <+: k'.ops
  ended : k.terminator ≠ none → k' = k

namespace Block.Grows

variable {k k' k'' : Block}

theorem refl (k : Block) : k.Grows k := ⟨rfl, List.prefix_rfl, fun _ => rfl⟩

theorem trans (h : k.Grows k') (h' : k'.Grows k'') : k.Grows k'' where
  label := h'.label.trans h.label
  ops := h.ops.trans h'.ops
  ended ht := by
    have heq := h.ended ht
    rw [← heq] at ht
    rw [h'.ended ht, heq]

end Block.Grows

namespace Builder

/-- A function under construction after some steps of building. -/
structure Grows (b b' : Builder) : Prop where
  name : b'.name = b.name
  params : b'.params = b.params
  slots : b.slots <+: b'.slots
  nextInst : b.nextInst ≤ b'.nextInst
  length : b.blocks.length ≤ b'.blocks.length
  blocks : ∀ (i : Nat) (k : Block), b.blocks[i]? = some k →
    ∃ k', b'.blocks[i]? = some k' ∧ k.Grows k'

/-- The steps have worked on the block under the cursor and on blocks of their
    own, and the cursor is on one of these. -/
structure Framed (b b' : Builder) : Prop extends Grows b b' where
  others : ∀ i, i < b.blocks.length → i ≠ b.cursor.val → b'.blocks[i]? = b.blocks[i]?
  cursor : b'.cursor = b.cursor ∨
    (b.blocks.length ≤ b'.cursor.val ∧ b'.cursor.val < b'.blocks.length)

/-- The steps have closed every block that they worked on, but for the one under
    the cursor. -/
structure Settles (b b' : Builder) : Prop extends Framed b b' where
  closed : ∀ i, i = b.cursor.val ∨ b.blocks.length ≤ i → b'.OpenAt i → i = b'.cursor.val

variable {b b' b'' : Builder}

theorem Grows.refl (b : Builder) : b.Grows b where
  name := rfl
  params := rfl
  slots := List.prefix_rfl
  nextInst := Nat.le_refl _
  length := Nat.le_refl _
  blocks _ k hk := ⟨k, hk, .refl k⟩

theorem Grows.trans (h : b.Grows b') (h' : b'.Grows b'') : b.Grows b'' where
  name := h'.name.trans h.name
  params := h'.params.trans h.params
  slots := h.slots.trans h'.slots
  nextInst := Nat.le_trans h.nextInst h'.nextInst
  length := Nat.le_trans h.length h'.length
  blocks i k hk := by
    obtain ⟨k', hk', hgrows⟩ := h.blocks i k hk
    obtain ⟨k'', hk'', hgrows'⟩ := h'.blocks i k' hk'
    exact ⟨k'', hk'', hgrows.trans hgrows'⟩

theorem Framed.refl (b : Builder) : b.Framed b where
  toGrows := .refl b
  others _ _ _ := rfl
  cursor := .inl rfl

theorem Framed.trans (h : b.Framed b') (h' : b'.Framed b'') : b.Framed b'' where
  toGrows := h.toGrows.trans h'.toGrows
  others i hi hne := by
    have hne' : i ≠ b'.cursor.val := by
      rcases h.cursor with heq | ⟨hge, -⟩
      · rwa [heq]
      · omega
    rw [h'.others i (Nat.lt_of_lt_of_le hi h.length) hne', h.others i hi hne]
  cursor := by
    rcases h'.cursor with heq | ⟨hge, hlt⟩
    · rw [heq]
      refine h.cursor.imp_right fun hnew => ⟨hnew.1, Nat.lt_of_lt_of_le hnew.2 h'.length⟩
    · exact .inr ⟨Nat.le_trans h.length hge, hlt⟩

/-- The cursor may go to any block that the steps have created. -/
theorem Framed.movedTo (h : b.Framed b') (target : BlockId)
    (hnew : b.blocks.length ≤ target.val) (hlt : target.val < b'.blocks.length) :
    b.Framed { b' with cursor := target } where
  toGrows := { h.toGrows with }
  others := h.others
  cursor := .inr ⟨hnew, hlt⟩

theorem Framed.hasCursor (h : b.Framed b') (hb : b.HasCursor) : b'.HasCursor := by
  rcases h.cursor with heq | ⟨-, hlt⟩
  · rw [HasCursor, heq]
    exact Nat.lt_of_lt_of_le hb h.length
  · exact hlt

/-- A block that was put aside is as open as it was. -/
theorem Framed.openAt_iff (h : b.Framed b') {i : Nat} (hi : i < b.blocks.length)
    (hne : i ≠ b.cursor.val) : b'.OpenAt i ↔ b.OpenAt i := by
  unfold OpenAt
  rw [h.others i hi hne]

/-- A block that was put aside is not the one that the cursor ends on. -/
theorem Framed.ne_cursor (h : b.Framed b') {i : Nat} (hi : i < b.blocks.length)
    (hne : i ≠ b.cursor.val) : i ≠ b'.cursor.val := by
  rcases h.cursor with heq | ⟨hge, -⟩
  · rwa [heq]
  · exact Nat.ne_of_lt (Nat.lt_of_lt_of_le hi hge)

theorem Settles.refl (b : Builder) : b.Settles b where
  toFramed := .refl b
  closed i hi hopen := by
    rcases hi with hi | hi
    · exact hi
    · exact absurd hopen.lt (Nat.not_lt_of_le hi)

theorem Settles.trans (h : b.Settles b') (h' : b'.Settles b'') : b.Settles b'' where
  toFramed := h.toFramed.trans h'.toFramed
  closed i hi hopen := by
    by_cases hwork : i = b'.cursor.val ∨ b'.blocks.length ≤ i
    · exact h'.closed i hwork hopen
    · -- The second stretch has not touched the block, so the first one closed it.
      rw [not_or, Nat.not_le] at hwork
      have hopen' := (h'.openAt_iff hwork.2 hwork.1).mp hopen
      exact absurd (h.closed i hi hopen') hwork.1

/-! ## Single steps -/

/-- Adding to the block under the cursor while it is open. -/
theorem Framed.modify (h : b.IsOpen) {change : Block → Block}
    (hchange : ∀ k : Block, k.terminator = none → k.Grows (change k)) {next : Nat}
    (hnext : b.nextInst ≤ next) :
    b.Framed { b with blocks := b.blocks.modify b.cursor.val change, nextInst := next } where
  name := rfl
  params := rfl
  slots := List.prefix_rfl
  nextInst := hnext
  length := by simp
  blocks i k hk := by
    by_cases hi : b.cursor.val = i
    · obtain ⟨k', hk', ht⟩ := h
      rw [hi, hk] at hk'
      cases hk'
      exact ⟨change k, by simp [hi, hk], hchange k ht⟩
    · exact ⟨k, by simp [hi, hk], .refl k⟩
  others i hi hne := by simp [Ne.symm hne]
  cursor := .inl rfl

theorem Framed.emitted (h : b.IsOpen) (ops : List Op) : b.Framed (b.emitted ops) := by
  refine .modify h (fun k ht => ?_) (Nat.le_add_right _ _)
  exact ⟨rfl, List.prefix_append _ _, fun hne => absurd ht hne⟩

theorem Framed.close (h : b.IsOpen) (t : Terminator) : b.Framed (b.close t) := by
  refine .modify h (fun k ht => ?_) (Nat.le_refl _)
  exact ⟨rfl, List.prefix_rfl, fun hne => absurd ht hne⟩

theorem Framed.addBlock (b : Builder) (label : String) : b.Framed (b.addBlock label) where
  name := rfl
  params := rfl
  slots := List.prefix_rfl
  nextInst := Nat.le_refl _
  length := by simp [Builder.addBlock]
  blocks i k hk := by
    have hi := (List.getElem?_eq_some_iff.mp hk).1
    exact ⟨k, by simp [Builder.addBlock, List.getElem?_append_left hi, hk], .refl k⟩
  others i hi _ := by simp [Builder.addBlock, List.getElem?_append_left hi]
  cursor := .inl rfl

theorem Framed.withSlot (b : Builder) (name : String) : b.Framed (b.withSlot name) := by
  unfold Builder.withSlot Builder.ensureSlot
  cases b.slot? name with
  | some slot => exact .refl b
  | none => exact { Framed.refl b with slots := List.prefix_append _ _ }

/-- Steps that do no more than to add operations under the cursor settle. -/
theorem Settles.emitted (h : b.IsOpen) (ops : List Op) : b.Settles (b.emitted ops) where
  toFramed := .emitted h ops
  closed i hi hopen := (Settles.refl b).closed i hi (openAt_emitted.mp hopen)

theorem Settles.close (h : b.IsOpen) (t : Terminator) : b.Settles (b.close t) where
  toFramed := .close h t
  closed i hi hopen := (Settles.refl b).closed i hi (openAt_close.mp hopen).1

theorem Settles.withSlot (b : Builder) (name : String) : b.Settles (b.withSlot name) where
  toFramed := .withSlot b name
  closed i hi hopen := by
    have hcursor : (b.withSlot name).cursor = b.cursor := by
      unfold Builder.withSlot Builder.ensureSlot
      cases b.slot? name <;> rfl
    rw [hcursor]
    exact (Settles.refl b).closed i hi (openAt_withSlot.mp hopen)

/-- Operations have been added under the cursor, if anything has been done at
    all. -/
def Emits (b b' : Builder) : Prop := ∃ ops, b' = b.emitted ops ∧ (ops = [] ∨ b.IsOpen)

theorem Emits.refl (b : Builder) : b.Emits b := ⟨[], by simp, .inl rfl⟩

theorem Emits.emitted (h : b.IsOpen) (ops : List Op) : b.Emits (b.emitted ops) :=
  ⟨ops, rfl, .inr h⟩

theorem Emits.openAt_iff (h : b.Emits b') {i : Nat} : b'.OpenAt i ↔ b.OpenAt i := by
  obtain ⟨ops, rfl, -⟩ := h
  exact openAt_emitted

theorem Emits.isOpen_iff (h : b.Emits b') : b'.IsOpen ↔ b.IsOpen := by
  obtain ⟨ops, rfl, -⟩ := h
  exact isOpen_emitted

theorem Emits.cursor_eq (h : b.Emits b') : b'.cursor = b.cursor := by
  obtain ⟨ops, rfl, -⟩ := h
  rfl

theorem Emits.trans (h : b.Emits b') (h' : b'.Emits b'') : b.Emits b'' := by
  have hopen := h.isOpen_iff
  obtain ⟨ops, rfl, hops⟩ := h
  obtain ⟨ops', rfl, hops'⟩ := h'
  refine ⟨ops ++ ops', by simp, ?_⟩
  rcases hops with rfl | hops
  · exact hops'.imp (fun heq => by simp [heq]) hopen.mp
  · exact .inr hops

theorem Emits.settles (h : b.Emits b') : b.Settles b' := by
  obtain ⟨ops, rfl, rfl | hopen⟩ := h
  · rw [emitted_nil]
    exact .refl b
  · exact .emitted hopen ops

end Builder

/-! ## Steps of building -/

namespace Build

variable {b b' : Builder} {v w : Value} {u : Unit}

theorem toInt_emits (h : toInt v b = .ok w b') : b.Emits b' := by
  rcases toInt_eq_ok.mp h with ⟨-, -, rfl⟩ | ⟨-, hopen, -, rfl⟩
  · exact .refl b'
  · exact .emitted hopen _

/-- A value is widened, and the block is still open for what takes it. -/
theorem exists_toInt (hb : b.IsOpen) (v : Value) :
    ∃ w b', toInt v b = .ok w b' ∧ b'.IsOpen := by
  obtain ⟨w, b', hok⟩ : ∃ w b', toInt v b = .ok w b' := by
    cases hty : v.ty with
    | i32 => exact ⟨_, _, toInt_eq_ok.mpr (.inl ⟨hty, rfl, rfl⟩)⟩
    | i1 => exact ⟨_, _, toInt_eq_ok.mpr (.inr ⟨hty, hb, rfl, rfl⟩)⟩
  exact ⟨w, b', hok, (toInt_emits hok).isOpen_iff.mpr hb⟩

theorem toBool_emits (h : toBool v b = .ok w b') : b.Emits b' := by
  rcases toBool_eq_ok.mp h with ⟨-, -, rfl⟩ | ⟨-, hopen, -, rfl⟩
  · exact .refl b'
  · exact .emitted hopen _

theorem read_emits {name : String} (h : read name b = .ok v b') : b.Emits b' := by
  rcases read_eq_ok.mp h with ⟨-, rfl⟩ | ⟨-, slot, -, hopen, -, rfl⟩
  · exact .refl b'
  · exact .emitted hopen _

theorem binary_emits {op : BinaryOp} {lhs rhs : Value} (h : binary op lhs rhs b = .ok v b') :
    b.Emits b' := by
  obtain ⟨hopen, -, rfl⟩ := binary_eq_ok.mp h
  exact .emitted hopen _

theorem neg_emits {operand : Value} (h : neg operand b = .ok v b') : b.Emits b' := by
  obtain ⟨hopen, -, rfl⟩ := neg_eq_ok.mp h
  exact .emitted hopen _

theorem icmp_emits {pred : Predicate} {lhs rhs : Value} (h : icmp pred lhs rhs b = .ok v b') :
    b.Emits b' := by
  obtain ⟨hopen, -, rfl⟩ := icmp_eq_ok.mp h
  exact .emitted hopen _

theorem call_emits {callee : FunctionId} {args : List Value} (h : call callee args b = .ok v b') :
    b.Emits b' := by
  obtain ⟨hopen, -, rfl⟩ := call_eq_ok.mp h
  exact .emitted hopen _

theorem write_settles {name : String} (h : write name v b = .ok u b') : b.Settles b' := by
  obtain ⟨w, b₁, hint, hopen, rfl⟩ := write_eq_ok.mp h
  refine (toInt_emits hint).settles.trans ((Builder.Settles.withSlot b₁ name).trans ?_)
  exact .emitted (Builder.isOpen_withSlot.mpr hopen) _

theorem ret_settles (h : ret v b = .ok u b') : b.Settles b' := by
  obtain ⟨w, b₁, hint, hopen, rfl⟩ := ret_eq_ok.mp h
  exact (toInt_emits hint).settles.trans (.close hopen _)

end Build

namespace Lower

open Builder

variable {s s' : Workspace} {v w : Value} {vs : List Value} {u : Unit}

theorem build_emits {x : Build Value} (hx : ∀ {b b' v}, x b = .ok v b' → b.Emits b')
    (h : build x s = .ok v s') : s.builder.Emits s'.builder := by
  obtain ⟨b, hb, rfl⟩ := build_eq_ok.mp h
  exact hx hb

/-! ## Expressions -/

theorem join_emits {op : BinaryOp} (h : join op v vs s = .ok w s') :
    s.builder.Emits s'.builder := by
  induction vs generalizing v s with
  | nil =>
    obtain ⟨-, rfl⟩ := Effect.pure_eq_ok.mp h
    exact .refl s.builder
  | cons v' vs ih =>
    obtain ⟨w', s₁, hbinary, hrest⟩ := join_cons_eq_ok.mp h
    exact (build_emits Build.binary_emits hbinary).trans (ih hrest)

/-- Lowering a node in the place of an expression adds operations under the
    cursor, and does nothing else to the function. -/
def ExprEmits (n : Node) : Prop :=
  ∀ s v s', ExprRun n.kind s v s' → s.builder.Emits s'.builder

theorem asInt_emits {n : Node} (hn : ExprEmits n) (h : asInt (expr n) s = .ok v s') :
    s.builder.Emits s'.builder := by
  obtain ⟨w, s₁, hw, h⟩ := asInt_eq_ok.mp h
  exact (hn _ _ _ (expr_run hw)).trans (build_emits Build.toInt_emits h)

theorem asCondition_emits {n m : Node} (hn : ExprEmits n)
    (h : asCondition m (expr n) s = .ok v s') : s.builder.Emits s'.builder := by
  obtain ⟨w, s₁, hw, h⟩ := asCondition_eq_ok.mp h
  exact (hn _ _ _ (expr_run hw)).trans (build_emits Build.toBool_emits h)

theorem conditions_emits {ns : List Node} (hns : ∀ n ∈ ns, ExprEmits n)
    (h : conditions ns s = .ok vs s') : s.builder.Emits s'.builder := by
  induction ns generalizing s vs with
  | nil =>
    obtain ⟨-, rfl⟩ := Effect.pure_eq_ok.mp h
    exact .refl s.builder
  | cons n rest ih =>
    rw [List.forall_mem_cons] at hns
    obtain ⟨v, s₁, ws, hv, hws, -⟩ := conditions_cons_eq_ok.mp h
    exact (asCondition_emits hns.1 hv).trans (ih hns.2 hws)

theorem arguments_emits {ns : List Node} (hns : ∀ n ∈ ns, ExprEmits n)
    (h : arguments ns s = .ok vs s') : s.builder.Emits s'.builder := by
  induction ns generalizing s vs with
  | nil =>
    obtain ⟨-, rfl⟩ := Effect.pure_eq_ok.mp h
    exact .refl s.builder
  | cons n rest ih =>
    rw [List.forall_mem_cons] at hns
    obtain ⟨v, s₁, ws, hv, hws, -⟩ := arguments_cons_eq_ok.mp h
    exact (asInt_emits hns.1 hv).trans (ih hns.2 hws)

theorem exprEmits (n : Node) : ExprEmits n := by
  induction n using Node.parts_induction with
  | step n ih =>
    obtain ⟨kind, location, span⟩ := n
    intro s v s' h
    cases h with
    | constant => exact .refl s.builder
    | name h => exact build_emits Build.read_emits h
    | neg hoperand h =>
      exact (asInt_emits (ih _ (by simp [Kind.parts])) hoperand).trans
        (build_emits Build.neg_emits h)
    | binOp hop hleft hright h =>
      have hl := asInt_emits (ih _ (by simp [Kind.parts])) hleft
      have hr := asInt_emits (ih _ (by simp [Kind.parts])) hright
      exact (hl.trans hr).trans (build_emits Build.binary_emits h)
    | compare hop hleft hright h =>
      have hl := asInt_emits (ih _ (by simp [Kind.parts])) hleft
      have hr := asInt_emits (ih _ (by simp [Kind.parts])) hright
      exact (hl.trans hr).trans (build_emits Build.icmp_emits h)
    | boolOp hfirst hrest h =>
      have hv := asCondition_emits (ih _ (by simp [Kind.parts])) hfirst
      have hvs := conditions_emits (fun n hn => ih n (by simp [Kind.parts, hn])) hrest
      exact (hv.trans hvs).trans (join_emits h)
    | call hcallee hargs h =>
      obtain ⟨ctx, -, rfl⟩ := resolve_eq_ok.mp hcallee
      have hvs := arguments_emits (fun n hn => ih n (by simp [Kind.parts, hn])) hargs
      exact hvs.trans (build_emits Build.call_emits h)

theorem expr_emits {n : Node} (h : expr n s = .ok v s') : s.builder.Emits s'.builder :=
  exprEmits n _ _ _ (expr_run h)

theorem condition_emits {n : Node} (h : condition n s = .ok v s') :
    s.builder.Emits s'.builder :=
  asCondition_emits (exprEmits n) h

/-! ## Constructs -/

/-- The cursor is open where a statement is lowered. -/
theorem reopen_isOpen (h : reopen s = .ok u s') : s'.builder.IsOpen := by
  obtain ⟨hcursor, ⟨hopen, rfl⟩ | ⟨-, rfl⟩⟩ := reopen_eq_ok.mp h
  · exact hopen
  · exact openAt_addBlock.mpr (.inr rfl)

theorem reopen_settles (h : reopen s = .ok u s') : s.builder.Settles s'.builder := by
  obtain ⟨hcursor, ⟨-, rfl⟩ | ⟨hclosed, rfl⟩⟩ := reopen_eq_ok.mp h
  · exact .refl _
  · refine ⟨(Framed.addBlock s.builder _).movedTo _ (Nat.le_refl _) ?_, fun i hi hopen => ?_⟩
    · simp [Workspace.nextBlock, Builder.addBlock]
    · rcases openAt_addBlock.mp hopen with hopen | heq
      · have hi' : i = s.builder.cursor.val := (Settles.refl s.builder).closed i hi hopen
        rw [hi'] at hopen
        exact absurd hopen hclosed
      · exact heq

/-- What an arm does on its way out: it is closed, and the joining block is open
    if it is new. -/
structure FallThrough (join join' : Option BlockId) (b b' : Builder) : Prop where
  framed : b.Framed b'
  cursor : b'.cursor = b.cursor
  openAt : ∀ i, b'.OpenAt i → i ≠ b.cursor.val ∧ (b.OpenAt i ∨ join' = some ⟨i⟩)
  joined : ∀ target, join = some target → join' = some target
  target : ∀ target, join' = some target →
    join = some target ∨ (b.blocks.length ≤ target.val ∧ target.val < b'.blocks.length)

theorem fallThrough_run {join join' : Option BlockId} (h : fallThrough join s = .ok join' s') :
    FallThrough join join' s.builder s'.builder := by
  obtain ⟨hcursor, ⟨hclosed, rfl, rfl⟩ | ⟨hopen, target, s₁, rfl, rfl, hjoin⟩⟩ :=
    fallThrough_eq_ok.mp h
  · refine ⟨.refl _, rfl, fun i hi => ⟨?_, .inl hi⟩, fun _ => id, fun _ => .inl⟩
    rintro rfl
    exact hclosed hi
  · rcases hjoin with ⟨rfl, rfl⟩ | ⟨rfl, rfl, rfl⟩
    · refine ⟨.close hopen _, rfl, fun i hi => ?_, fun _ => id, fun _ => .inl⟩
      obtain ⟨hi, hne⟩ := openAt_close.mp hi
      exact ⟨hne, .inl hi⟩
    · refine ⟨(Framed.addBlock _ _).trans (.close (hopen.addBlock _) _), rfl, fun i hi => ?_,
        ?_, ?_⟩
      · obtain ⟨hi, hne⟩ := openAt_close.mp hi
        refine ⟨hne, (openAt_addBlock.mp hi).imp_right ?_⟩
        rintro rfl
        rfl
      · exact fun _ h => nomatch h
      · rintro _ ⟨⟩
        refine .inr ⟨Nat.le_refl _, ?_⟩
        simp [Workspace.nextBlock, Builder.addBlock, Builder.close]

/-- The first arm of a branch has been created. -/
theorem firstArm_hasCursor (s : Workspace) (t : Terminator) :
    ((s.withArms.closed t).movedTo s.nextBlock).builder.HasCursor :=
  Nat.lt_of_lt_of_eq (Nat.lt_add_of_pos_right (by decide)) (s.length_withArms t).symm

theorem secondArm_openAt (hs : s.builder.HasCursor) (t : Terminator) :
    (s.withArms.closed t).builder.OpenAt s.secondBlock.val := by
  refine openAt_close.mpr ⟨openAt_addBlock.mpr (.inr ?_), ?_⟩
  · simp [Workspace.secondBlock, Builder.addBlock]
  · exact Nat.ne_of_gt (Nat.lt_succ_of_lt hs)

/-- The second arm of a branch was put aside while the first was lowered, and is
    open. -/
theorem secondArm_isOpen {s₂ s₃ : Workspace} {t : Terminator} {join : Option BlockId}
    (hs : s.builder.HasCursor)
    (hbody : ((s.withArms.closed t).movedTo s.nextBlock).builder.Settles s₂.builder)
    (hjoin : FallThrough none join s₂.builder s₃.builder) :
    (s₃.movedTo s.secondBlock).builder.IsOpen := by
  have hframed := hbody.toFramed.trans hjoin.framed
  have hopen := secondArm_openAt hs t
  exact (hframed.openAt_iff hopen.lt (Nat.succ_ne_self _)).mpr hopen

/-- Whatever runs of a step have in common, it settles. -/
def StepSettles (x : Lower Unit) : Prop :=
  ∀ s s', x s = .ok () s' → s.builder.Settles s'.builder

theorem BranchRun.settles {test : Lower Value} {body orelse : Lower Unit}
    (htest : ∀ {s v s'}, test s = .ok v s' → s.builder.Emits s'.builder)
    (hbody : StepSettles body) (horelse : StepSettles orelse)
    (h : BranchRun test body orelse s s') : s.builder.Settles s'.builder := by
  cases h with
  | @mk s₁ s₂ s₃ s₄ s₅ cond join join' hcond hopen hthen hjoin helse hjoin' =>
    refine (htest hcond).settles.trans ?_
    have hthen := hbody _ _ hthen
    have hjoin := fallThrough_run hjoin
    have helse := horelse _ _ helse
    have hjoin' := fallThrough_run hjoin'
    -- The frame, stage by stage, all seen from behind the test.
    let s₀ := s₁.withArms.closed (.condBr cond s₁.nextBlock s₁.secondBlock)
    have hlength : s₀.builder.blocks.length = s₁.builder.blocks.length + 2 :=
      s₁.length_withArms _
    have h₀ : s₁.builder.Framed s₀.builder :=
      ((Framed.addBlock _ _).trans (.addBlock _ _)).trans (.close hopen _)
    have h₁ : s₁.builder.Framed (s₀.movedTo s₁.nextBlock).builder :=
      h₀.movedTo _ (Nat.le_refl _) (by rw [hlength]; exact Nat.lt_add_of_pos_right (by decide))
    have h₃ : s₁.builder.Framed s₃.builder := (h₁.trans hthen.toFramed).trans hjoin.framed
    have hlength₃ : s₁.builder.blocks.length + 2 ≤ s₃.builder.blocks.length :=
      hlength ▸ Nat.le_trans hthen.length hjoin.framed.length
    have h₄ : s₁.builder.Framed (s₃.movedTo s₁.secondBlock).builder :=
      h₃.movedTo _ (Nat.le_succ _) hlength₃
    have h₅ : s₁.builder.Framed s₅.builder := (h₄.trans helse.toFramed).trans hjoin'.framed
    -- An open block at the end is the joining block, or was open all along.
    have hend : ∀ i, i = s₁.builder.cursor.val ∨ s₁.builder.blocks.length ≤ i →
        s₅.builder.OpenAt i → join' = some ⟨i⟩ := by
      intro i hi hopen₅
      obtain ⟨hne₄, hopen₄ | heq⟩ := hjoin'.openAt i hopen₅
      · have hkept : ¬ (i = s₁.secondBlock.val ∨ s₃.builder.blocks.length ≤ i) :=
          fun hwork => hne₄ (helse.closed i hwork hopen₄)
        rw [not_or, Nat.not_le] at hkept
        have hopen₃ := (helse.openAt_iff hkept.2 hkept.1).mp hopen₄
        obtain ⟨hne₂, hopen₂ | heq⟩ := hjoin.openAt i hopen₃
        · have hkept' : ¬ (i = s₁.nextBlock.val ∨ s₀.builder.blocks.length ≤ i) :=
            fun hwork => hne₂ (hthen.closed i hwork hopen₂)
          rw [not_or, Nat.not_le] at hkept'
          have hopen₀ : s₀.builder.OpenAt i := (hthen.openAt_iff hkept'.2 hkept'.1).mp hopen₂
          obtain ⟨-, hne⟩ := openAt_close.mp hopen₀
          have hold : i < s₁.builder.blocks.length := by
            have h₁ : i ≠ s₁.builder.blocks.length := hkept'.1
            have h₂ : i ≠ s₁.builder.blocks.length + 1 := hkept.1
            omega
          rcases hi with hi | hi
          · exact absurd hi hne
          · exact absurd hold (Nat.not_lt_of_le hi)
        · exact hjoin'.joined _ heq
      · exact heq
    cases join' with
    | none =>
      refine ⟨h₅, fun i hi hopen => ?_⟩
      cases hend i hi hopen
    | some target =>
      have htarget : s₁.builder.blocks.length ≤ target.val ∧
          target.val < s₅.builder.blocks.length := by
        rcases hjoin'.target target rfl with heq | ⟨hge, hlt⟩
        · rcases hjoin.target target heq with hnone | ⟨hge, hlt⟩
          · cases hnone
          · exact ⟨Nat.le_trans (h₁.trans hthen.toFramed).length hge,
              Nat.lt_of_lt_of_le hlt (helse.toFramed.trans hjoin'.framed).length⟩
        · exact ⟨Nat.le_trans (h₄.trans helse.toFramed).length hge, hlt⟩
      refine ⟨h₅.movedTo target htarget.1 htarget.2, fun i hi hopen => ?_⟩
      cases hend i hi hopen
      rfl

theorem LoopRun.settles {test : Lower Value} {body : Lower Unit}
    (htest : ∀ {s v s'}, test s = .ok v s' → s.builder.Emits s'.builder)
    (hbody : StepSettles body) (h : LoopRun test body s s') :
    s.builder.Settles s'.builder := by
  cases h with
  | @mk s₁ s₂ s₃ cond hopen hcond hrun hcursor hback hexit =>
    have htest := htest hcond
    have hbody := hbody _ _ hrun
    let s₀ := s.withLoop.closed (.br s.nextBlock)
    have hlength : s₀.builder.blocks.length = s.builder.blocks.length + 3 :=
      s.length_withLoop _
    have h₀ : s.builder.Framed s₀.builder :=
      (((Framed.addBlock _ _).trans (.addBlock _ _)).trans (.addBlock _ _)).trans (.close hopen _)
    have h₁ : s.builder.Framed s₁.builder := by
      refine (h₀.movedTo s.nextBlock (Nat.le_refl _) ?_).trans htest.settles.toFramed
      rw [hlength]
      exact Nat.lt_add_of_pos_right (by decide)
    have hexit_eq : s₁.builder.cursor = s.nextBlock := htest.cursor_eq
    have hlength₁ : s.builder.blocks.length + 3 ≤ s₁.builder.blocks.length :=
      hlength ▸ htest.settles.length
    have h₂ : s.builder.Framed s₂.builder := by
      refine (h₁.movedTo s.secondBlock (Nat.le_succ _) ?_).trans hbody.toFramed
      exact Nat.lt_of_lt_of_le (Nat.lt_succ_self _) (Nat.le_trans (Nat.le_succ _) hlength₁)
    have hclose : s₂.builder.Framed s₃.builder := by
      rcases hback with ⟨hopen₂, rfl⟩ | ⟨-, rfl⟩
      · exact .close hopen₂ _
      · exact .refl _
    have hclosed : ∀ i, s₃.builder.OpenAt i → s₂.builder.OpenAt i ∧ i ≠ s₂.builder.cursor.val := by
      intro i hi
      rcases hback with ⟨-, rfl⟩ | ⟨hclosed₂, rfl⟩
      · exact openAt_close.mp hi
      · refine ⟨hi, ?_⟩
        rintro rfl
        exact hclosed₂ hi
    have hlength₃ : s.builder.blocks.length + 3 ≤ s₃.builder.blocks.length :=
      Nat.le_trans hlength₁ (Nat.le_trans hbody.length hclose.length)
    have h₃ : s.builder.Framed (s₃.movedTo s₁.builder.cursor).builder := by
      refine (h₂.trans hclose).movedTo _ (hexit_eq ▸ Nat.le_refl _) ?_
      rw [hexit_eq]
      exact Nat.lt_of_lt_of_le (Nat.lt_add_of_pos_right (by decide)) hlength₃
    refine ⟨(h₃.trans (.close hexit _)).movedTo _ (Nat.le_add_right _ 2) ?_, fun i hi hopen₄ => ?_⟩
    · simp only [Builder.close, List.length_modify]
      exact hlength₃
    · obtain ⟨hopen₃, hne₁⟩ := openAt_close.mp hopen₄
      obtain ⟨hopen₂, hne₂⟩ := hclosed i hopen₃
      have hkept : ¬ (i = s.secondBlock.val ∨ s₁.builder.blocks.length ≤ i) :=
        fun hwork => hne₂ (hbody.closed i hwork hopen₂)
      rw [not_or, Nat.not_le] at hkept
      have hopen₁ : s₁.builder.OpenAt i := (hbody.openAt_iff hkept.2 hkept.1).mp hopen₂
      obtain ⟨hopen₀, hne₀⟩ := openAt_close.mp (htest.openAt_iff.mp hopen₁)
      have hne : i ≠ s.nextBlock.val := by
        rw [← hexit_eq]
        exact hne₁
      have hnew : s.builder.OpenAt i ∨ i = s.thirdBlock.val := by
        simp only [Workspace.withLoop, Workspace.withBlock_builder, openAt_addBlock] at hopen₀
        simp only [Workspace.nextBlock, Workspace.secondBlock, Workspace.thirdBlock,
          Builder.addBlock, List.length_append, List.length_singleton] at hopen₀ hne hkept ⊢
        rcases hopen₀ with ((hold | heq) | heq) | heq
        · exact .inl hold
        · exact absurd heq hne
        · exact absurd heq hkept.1
        · exact .inr heq
      rcases hnew with hold | heq
      · exact absurd ((Settles.refl s.builder).closed i hi hold) hne₀
      · exact heq

/-! ## Statements -/

theorem block_settles {ns : List Node} (hns : ∀ n ∈ ns, StepSettles (statement n)) :
    StepSettles (block ns) := by
  induction ns with
  | nil =>
    intro s s' h
    obtain ⟨-, rfl⟩ := Effect.pure_eq_ok.mp h
    exact .refl s.builder
  | cons n rest ih =>
    intro s s' h
    rw [List.forall_mem_cons] at hns
    obtain ⟨s₁, s₂, hreopen, hn, hrest⟩ := block_cons_eq_ok.mp h
    exact ((reopen_settles hreopen).trans (hns.1 _ _ hn)).trans (ih hns.2 _ _ hrest)

theorem elseClause_settles {ns : List Node} (hns : ∀ n ∈ ns, StepSettles (statement n)) :
    StepSettles (elseClause ns) := by
  intro s s' h
  cases ns with
  | nil =>
    obtain ⟨-, rfl⟩ := Effect.pure_eq_ok.mp h
    exact .refl s.builder
  | cons n rest =>
    rw [List.forall_mem_cons] at hns
    rw [elseClause_cons] at h
    have hbuilder := s.shortened_builder (n :: rest).length
    rw [← hbuilder]
    exact hns.1 _ _ h

/-- Lowering a statement leaves nothing open behind it. -/
theorem statement_settles (n : Node) : StepSettles (statement n) := by
  induction n using Node.parts_induction with
  | step n ih =>
    obtain ⟨kind, location, span⟩ := n
    intro s s' h
    cases statement_run h with
    | assign hvalue h =>
      obtain ⟨b, hwrite, rfl⟩ := build_eq_ok.mp h
      exact (expr_emits hvalue).settles.trans (Build.write_settles hwrite)
    | expr h => exact (expr_emits h).settles
    | ret hvalue h =>
      obtain ⟨b, hret, rfl⟩ := build_eq_ok.mp h
      exact (expr_emits hvalue).settles.trans (Build.ret_settles hret)
    | retNone h =>
      obtain ⟨b, hret, rfl⟩ := build_eq_ok.mp h
      exact Build.ret_settles hret
    | ifElse h =>
      exact (branch_run h).settles condition_emits
        (block_settles fun n hn => ih n (by simp [Kind.parts, hn]))
        (elseClause_settles fun n hn => ih n (by simp [Kind.parts, hn]))
    | whileLoop h =>
      exact (loop_run h).settles condition_emits
        (block_settles fun n hn => ih n (by simp [Kind.parts, hn]))
    | functionDef h => exact .refl s.builder
    | value h => exact (exprEmits ⟨kind, location, span⟩ _ _ _ h).settles

end Lower

end Blockform
