-- SUMMARY: The blocks of lowered programs take only values of their own, at the types that these have (`Block.Local`).
import Blockform.Proofs.Compiling
import Blockform.Proofs.Definedness
import Blockform.Proofs.Preservation
import Blockform.Proofs.WellFormed

/-!
# Local values

Lowering never takes the result of an operation in another block, and never takes
one at another type than the operation gives it (`Block.Local`). The checks of
verification see neither, as they ask for no order and look at few types.

An expression leaves the cursor where it is, so the values that its parts have
given are still at hand when they are taken (`Builder.Emits.offers`). Only the
test of a loop is taken later: the branch on it is added behind the body. But the
body works on other blocks, and the block of the test is found as it was left
(`Builder.Framed.others`).
-/

namespace Blockform

/-! ## Types of operations -/

/-- The result that the operation defines, and its type. -/
def Op.result : Op → Option (InstId × Ty)
  | .store .. => none
  | .load dest _ | .neg dest _ | .zext dest _ | .call dest .. => some (dest, .i32)
  | .binary dest _ ty .. => some (dest, ty)
  | .icmp dest .. => some (dest, .i1)

theorem Op.dest_eq_result (op : Op) : op.dest = op.result.map Prod.fst := by
  cases op <;> rfl

theorem Op.dest_of_result {op : Op} {id : InstId} {ty : Ty} (h : op.result = some (id, ty)) :
    op.dest = some id := by
  rw [dest_eq_result, h]
  rfl

/-- The type that an operator takes and gives. -/
def BinaryOp.ty : BinaryOp → Ty
  | .add | .sub | .mul | .urem => .i32
  | .and | .or => .i1

/-- The operation takes values of the types that it computes with. -/
def Op.WellTyped : Op → Prop
  | .load .. => True
  | .store value _ => value.ty = .i32
  | .binary _ op ty lhs rhs => ty = op.ty ∧ lhs.ty = op.ty ∧ rhs.ty = op.ty
  | .neg _ operand => operand.ty = .i32
  | .icmp _ _ lhs rhs => lhs.ty = .i32 ∧ rhs.ty = .i32
  | .zext _ operand => operand.ty = .i1
  | .call _ _ args => ∀ v ∈ args, v.ty = .i32

/-- The terminator takes a value of the type that it needs. -/
def Terminator.WellTyped : Terminator → Prop
  | .ret value => value.ty = .i32
  | .br _ => True
  | .condBr cond .. => cond.ty = .i1

/-! ## Local blocks -/

/-- A value that may be taken behind some operations of a block: an integer, an
    argument, or the result of one of the operations at its type. -/
def Value.AtHand (ops : List Op) : Value → Prop
  | .const ty _ => ty = .i32
  | .param _ => True
  | .inst id ty => ∃ op ∈ ops, op.result = some (id, ty)

theorem Value.AtHand.mono {ops ops' : List Op} {v : Value} (h : v.AtHand ops)
    (hsub : ops ⊆ ops') : v.AtHand ops' := by
  cases v with
  | const ty value => exact h
  | param index => trivial
  | inst id ty =>
    obtain ⟨op, hop, hresult⟩ := h
    exact ⟨op, hsub hop, hresult⟩

/-- A block that is well typed, and takes only what is at hand in it. -/
structure Block.Local (k : Block) : Prop where
  typed : ∀ op ∈ k.ops, op.WellTyped
  ended : ∀ t, k.terminator = some t → t.WellTyped
  atHand : ∀ before v, k.Takes before v → v.AtHand before

namespace Block

variable {k : Block} {op : Op} {t : Terminator}

theorem Local.ordered (h : k.Local) : k.Ordered := by
  intro before id ty htakes
  obtain ⟨op, hop, hresult⟩ := h.atHand before _ htakes
  exact ⟨op, hop, Op.dest_of_result hresult⟩

/-- What an open block takes once an operation is added, it took before, or the
    operation takes it. -/
theorem Takes.of_push {before : List Op} {v : Value}
    (h : { k with ops := k.ops ++ [op] }.Takes before v) (ht : k.terminator = none) :
    k.Takes before v ∨ (before = k.ops ∧ v ∈ op.operands) := by
  cases h with
  | @op _ after op' _ hops hv =>
    rcases List.eq_nil_or_concat after with rfl | ⟨after, last, rfl⟩
    · obtain ⟨rfl, heq⟩ := List.append_inj' hops rfl
      cases heq
      exact .inr ⟨rfl, hv⟩
    · rw [List.concat_eq_append, ← List.cons_append, ← List.append_assoc] at hops
      obtain ⟨hops, -⟩ := List.append_inj' hops rfl
      exact .inl (.op hops hv)
  | terminator ht' _ => cases ht.symm.trans ht'

theorem Local.push (h : k.Local) (ht : k.terminator = none) (hop : op.WellTyped)
    (hvs : ∀ v ∈ op.operands, v.AtHand k.ops) : { k with ops := k.ops ++ [op] }.Local where
  typed := by
    intro op' hop'
    rcases List.mem_append.mp hop' with hop' | hop'
    · exact h.typed op' hop'
    · rwa [List.mem_singleton.mp hop']
  ended := h.ended
  atHand := by
    intro before v htakes
    rcases htakes.of_push ht with htakes | ⟨rfl, hv⟩
    · exact h.atHand before v htakes
    · exact hvs v hv

theorem Local.close (h : k.Local) (ht : t.WellTyped) (hvs : ∀ v ∈ t.operands, v.AtHand k.ops) :
    { k with terminator := some t }.Local where
  typed := h.typed
  ended := by
    rintro _ ⟨⟩
    exact ht
  atHand := by
    intro before v htakes
    cases htakes with
    | op hops hv => exact h.atHand before v (.op hops hv)
    | terminator ht' hv =>
      cases ht'
      exact hvs v hv

theorem local_empty (label : String) : Block.Local { label } where
  typed _ hop := nomatch hop
  ended _ ht := nomatch ht
  atHand := by
    intro before v htakes
    cases htakes with
    | op hops _ => simp at hops
    | terminator ht _ => cases ht

end Block

/-! ## Functions under construction -/

namespace Builder

variable {b b' : Builder} {v w : Value} {op : Op} {ty : Ty}

/-- All blocks take only what is at hand. -/
def Local (b : Builder) : Prop := ∀ k ∈ b.blocks, k.Local

/-- The value may be taken under the cursor. -/
def Offers (b : Builder) (v : Value) : Prop := ∀ k, b.current? = some k → v.AtHand k.ops

/-- The value may be taken under the cursor, and is of a type. -/
def Gives (b : Builder) (v : Value) (ty : Ty) : Prop := b.Offers v ∧ v.ty = ty

theorem offers_int (b : Builder) (n : Int64) : b.Offers (.int n) := fun _ _ => rfl

theorem current?_emitted (b : Builder) (ops : List Op) :
    (b.emitted ops).current? = b.current?.map fun k => { k with ops := k.ops ++ ops } := by
  simp [current?, block?, emitted]

/-- What is at hand stays so while operations are added. -/
theorem Emits.offers (h : b.Emits b') (hv : b.Offers v) : b'.Offers v := by
  obtain ⟨ops, rfl, -⟩ := h
  intro k hk
  rw [current?_emitted, Option.map_eq_some_iff] at hk
  obtain ⟨k₀, hk₀, rfl⟩ := hk
  exact (hv k₀ hk₀).mono (List.subset_append_left ..)

theorem Emits.gives (h : b.Emits b') (hv : b.Gives v ty) : b'.Gives v ty :=
  ⟨h.offers hv.1, hv.2⟩

/-- The cursor stays on its block when others are added. -/
theorem Offers.addBlock (hv : b.Offers v) (hcursor : b.HasCursor) (label : String) :
    (b.addBlock label).Offers v := by
  intro k hk
  have hsame : (b.addBlock label).current? = b.current? := List.getElem?_append_left hcursor
  exact hv k (hsame ▸ hk)

theorem Offers.withSlot (hv : b.Offers v) (name : String) : (b.withSlot name).Offers v := by
  have hsame : (b.withSlot name).current? = b.current? := by
    unfold Builder.withSlot ensureSlot
    cases b.slot? name <;> rfl
  intro k hk
  exact hv k (hsame ▸ hk)

namespace Local

theorem emitted (hb : b.Local) (hopen : b.IsOpen) (hop : op.WellTyped)
    (hvs : ∀ v ∈ op.operands, b.Offers v) : (b.emitted [op]).Local := by
  intro k hk
  rcases eq_of_mem_modify hk with hk | ⟨k₀, hk₀, rfl⟩
  · exact hb k hk
  · obtain ⟨k₁, hk₁, ht⟩ := hopen
    obtain rfl : k₁ = k₀ := Option.some.inj (hk₁.symm.trans hk₀)
    exact (hb k₁ (List.mem_of_getElem? hk₁)).push ht hop fun v hv => hvs v hv k₁ hk₁

theorem close (hb : b.Local) {t : Terminator} (ht : t.WellTyped)
    (hvs : ∀ v ∈ t.operands, b.Offers v) : (b.close t).Local := by
  intro k hk
  rcases eq_of_mem_modify hk with hk | ⟨k₀, hk₀, rfl⟩
  · exact hb k hk
  · exact (hb k₀ (List.mem_of_getElem? hk₀)).close ht fun v hv => hvs v hv k₀ hk₀

theorem ret (hb : b.Local) (hv : b.Gives v .i32) : (b.close (.ret v)).Local := by
  have ht : Terminator.WellTyped (.ret v) := hv.2
  apply hb.close ht
  simpa [Terminator.operands] using hv.1

theorem br (hb : b.Local) (target : BlockId) : (b.close (.br target)).Local := by
  have ht : Terminator.WellTyped (.br target) := trivial
  exact hb.close ht nofun

theorem condBr (hb : b.Local) (hv : b.Gives v .i1) (thenBlock elseBlock : BlockId) :
    (b.close (.condBr v thenBlock elseBlock)).Local := by
  have ht : Terminator.WellTyped (.condBr v thenBlock elseBlock) := hv.2
  apply hb.close ht
  simpa [Terminator.operands] using hv.1

theorem addBlock (hb : b.Local) (label : String) : (b.addBlock label).Local := by
  intro k hk
  rcases List.mem_append.mp hk with hk | hk
  · exact hb k hk
  · rw [List.mem_singleton.mp hk]
    exact Block.local_empty _

theorem withSlot (hb : b.Local) (name : String) : (b.withSlot name).Local := by
  have hsame : (b.withSlot name).blocks = b.blocks := by
    unfold Builder.withSlot ensureSlot
    cases b.slot? name <;> rfl
  intro k hk
  exact hb k (hsame ▸ hk)

/-- An operation with a result, which is at hand from then on. -/
theorem define (hb : b.Local) (hopen : b.IsOpen) (hop : op.WellTyped)
    (hvs : ∀ v ∈ op.operands, b.Offers v) {id : InstId} (hresult : op.result = some (id, ty)) :
    (b.emitted [op]).Local ∧ (b.emitted [op]).Gives (.inst id ty) ty := by
  refine ⟨hb.emitted hopen hop hvs, fun k hk => ?_, rfl⟩
  rw [current?_emitted, Option.map_eq_some_iff] at hk
  obtain ⟨k₀, -, rfl⟩ := hk
  exact ⟨op, List.mem_append_right _ (List.mem_singleton_self op), hresult⟩

end Local

end Builder

/-! ## Steps of building -/

namespace Build

open Builder

variable {b b' : Builder} {v w : Value} {u : Unit}

theorem toInt_local (hb : b.Local) (hv : b.Offers v) (h : toInt v b = .ok w b') :
    b'.Local ∧ b'.Gives w .i32 := by
  rcases toInt_eq_ok.mp h with ⟨hty, rfl, rfl⟩ | ⟨hty, hopen, rfl, rfl⟩
  · exact ⟨hb, hv, hty⟩
  · have hop : Op.WellTyped (.zext ⟨b.nextInst⟩ v) := hty
    exact hb.define hopen hop (by simpa [Op.operands]) rfl

theorem toBool_local (hb : b.Local) (hv : b.Offers v) (h : toBool v b = .ok w b') :
    b'.Local ∧ b'.Gives w .i1 := by
  rcases toBool_eq_ok.mp h with ⟨hty, rfl, rfl⟩ | ⟨hty, hopen, rfl, rfl⟩
  · exact ⟨hb, hv, hty⟩
  · have hop : Op.WellTyped (.icmp ⟨b.nextInst⟩ .ne (.int 0) v) := ⟨rfl, hty⟩
    exact hb.define hopen hop (by simp [Op.operands, hv, offers_int]) rfl

theorem read_local {name : String} (hb : b.Local) (h : read name b = .ok v b') :
    b'.Local ∧ b'.Gives v .i32 := by
  rcases read_eq_ok.mp h with ⟨hparam, rfl⟩ | ⟨-, slot, -, hopen, rfl, rfl⟩
  · obtain ⟨i, -, rfl⟩ := Builder.param?_lt hparam
    exact ⟨hb, fun _ _ => trivial, rfl⟩
  · have hop : Op.WellTyped (.load ⟨b.nextInst⟩ slot) := trivial
    exact hb.define hopen hop (by simp [Op.operands]) rfl

theorem binary_local {op : BinaryOp} {lhs rhs : Value} (hb : b.Local) (hl : b.Gives lhs op.ty)
    (hr : b.Gives rhs op.ty) (h : binary op lhs rhs b = .ok v b') :
    b'.Local ∧ b'.Gives v op.ty := by
  obtain ⟨hopen, rfl, rfl⟩ := binary_eq_ok.mp h
  have hop : Op.WellTyped (.binary ⟨b.nextInst⟩ op op.ty lhs rhs) := ⟨rfl, hl.2, hr.2⟩
  rw [hl.2]
  exact hb.define hopen hop (by simp [Op.operands, hl.1, hr.1]) rfl

theorem neg_local {operand : Value} (hb : b.Local) (hv : b.Gives operand .i32)
    (h : neg operand b = .ok v b') : b'.Local ∧ b'.Gives v .i32 := by
  obtain ⟨hopen, rfl, rfl⟩ := neg_eq_ok.mp h
  have hop : Op.WellTyped (.neg ⟨b.nextInst⟩ operand) := hv.2
  exact hb.define hopen hop (by simp [Op.operands, hv.1]) rfl

theorem icmp_local {pred : Predicate} {lhs rhs : Value} (hb : b.Local) (hl : b.Gives lhs .i32)
    (hr : b.Gives rhs .i32) (h : icmp pred lhs rhs b = .ok v b') :
    b'.Local ∧ b'.Gives v .i1 := by
  obtain ⟨hopen, rfl, rfl⟩ := icmp_eq_ok.mp h
  have hop : Op.WellTyped (.icmp ⟨b.nextInst⟩ pred lhs rhs) := ⟨hl.2, hr.2⟩
  exact hb.define hopen hop (by simp [Op.operands, hl.1, hr.1]) rfl

theorem call_local {callee : FunctionId} {args : List Value} (hb : b.Local)
    (hargs : ∀ a ∈ args, b.Gives a .i32) (h : call callee args b = .ok v b') :
    b'.Local ∧ b'.Gives v .i32 := by
  obtain ⟨hopen, rfl, rfl⟩ := call_eq_ok.mp h
  have hop : Op.WellTyped (.call ⟨b.nextInst⟩ callee args) := fun a ha => (hargs a ha).2
  exact hb.define hopen hop (fun a ha => (hargs a ha).1) rfl

theorem write_local {name : String} (hb : b.Local) (hv : b.Offers v)
    (h : write name v b = .ok u b') : b'.Local := by
  obtain ⟨w, b₁, hint, hopen, rfl⟩ := write_eq_ok.mp h
  obtain ⟨hb₁, hw⟩ := toInt_local hb hv hint
  have hop : Op.WellTyped (.store w (b₁.ensureSlot name).1) := hw.2
  apply (hb₁.withSlot name).emitted (isOpen_withSlot.mpr hopen) hop
  simpa [Op.operands] using hw.1.withSlot name

theorem ret_local (hb : b.Local) (hv : b.Offers v) (h : ret v b = .ok u b') : b'.Local := by
  obtain ⟨w, b₁, hint, -, rfl⟩ := ret_eq_ok.mp h
  obtain ⟨hb₁, hw⟩ := toInt_local hb hv hint
  exact hb₁.ret hw

end Build

/-! ## Expressions -/

theorem BinaryOperator.arithmetic_ty {op : BinaryOperator} {arithmetic : BinaryOp}
    (h : op.arithmetic = some arithmetic) : arithmetic.ty = .i32 := by
  cases op <;> cases h <;> rfl

theorem BoolOperator.logic_ty (op : BoolOperator) : op.logic.ty = .i1 := by
  cases op <;> rfl

namespace Lower

open Builder

variable {s s' : Workspace} {v w : Value} {vs : List Value}

theorem resolve_local {name : String} {arity : Nat} {callee : FunctionId} (hs : s.builder.Local)
    (h : resolve name arity s = .ok callee s') : s'.builder.Local := by
  obtain ⟨ctx, -, rfl⟩ := resolve_eq_ok.mp h
  exact hs

theorem join_local {op : BinaryOp} {acc : Value} (hs : s.builder.Local)
    (hacc : s.builder.Gives acc op.ty) (hvs : ∀ v ∈ vs, s.builder.Gives v op.ty)
    (h : join op acc vs s = .ok w s') : s'.builder.Local ∧ s'.builder.Gives w op.ty := by
  induction vs generalizing acc s with
  | nil =>
    obtain ⟨rfl, rfl⟩ := Effect.pure_eq_ok.mp h
    exact ⟨hs, hacc⟩
  | cons v vs ih =>
    obtain ⟨acc', s₁, hbinary, hrest⟩ := join_cons_eq_ok.mp h
    obtain ⟨b, hb, rfl⟩ := build_eq_ok.mp hbinary
    rw [List.forall_mem_cons] at hvs
    obtain ⟨hlocal, hacc'⟩ := Build.binary_local hs hacc hvs.1 hb
    have hemits : s.builder.Emits b := Build.binary_emits hb
    exact ih hlocal hacc' (fun v hv => hemits.gives (hvs.2 v hv)) hrest

/-- Lowering a node in the place of an expression gives a value that is at
    hand. -/
def ExprLocal (n : Node) : Prop :=
  ∀ s v s', ExprRun n.kind s v s' → s.builder.Local → s'.builder.Local ∧ s'.builder.Offers v

theorem asInt_local {n : Node} (hn : ExprLocal n) (hs : s.builder.Local)
    (h : asInt (expr n) s = .ok v s') : s'.builder.Local ∧ s'.builder.Gives v .i32 := by
  obtain ⟨w, s₁, hw, h⟩ := asInt_eq_ok.mp h
  obtain ⟨hs₁, hoffers⟩ := hn _ _ _ (expr_run hw) hs
  obtain ⟨b, hb, rfl⟩ := build_eq_ok.mp h
  exact Build.toInt_local hs₁ hoffers hb

theorem asCondition_local {n m : Node} (hn : ExprLocal n) (hs : s.builder.Local)
    (h : asCondition m (expr n) s = .ok v s') : s'.builder.Local ∧ s'.builder.Gives v .i1 := by
  obtain ⟨w, s₁, hw, h⟩ := asCondition_eq_ok.mp h
  obtain ⟨hs₁, hoffers⟩ := hn _ _ _ (expr_run hw) hs
  obtain ⟨b, hb, rfl⟩ := build_eq_ok.mp h
  exact Build.toBool_local hs₁ hoffers hb

theorem conditions_local {ns : List Node} (hns : ∀ n ∈ ns, ExprLocal n) (hs : s.builder.Local)
    (h : conditions ns s = .ok vs s') :
    s'.builder.Local ∧ ∀ v ∈ vs, s'.builder.Gives v .i1 := by
  induction ns generalizing s vs with
  | nil =>
    obtain ⟨rfl, rfl⟩ := Effect.pure_eq_ok.mp h
    exact ⟨hs, nofun⟩
  | cons n rest ih =>
    rw [List.forall_mem_cons] at hns
    obtain ⟨v, s₁, ws, hv, hws, rfl⟩ := conditions_cons_eq_ok.mp h
    obtain ⟨hs₁, hv⟩ := asCondition_local hns.1 hs hv
    obtain ⟨hs', hrest⟩ := ih hns.2 hs₁ hws
    have hemits := conditions_emits (fun n _ => exprEmits n) hws
    exact ⟨hs', List.forall_mem_cons.mpr ⟨hemits.gives hv, hrest⟩⟩

theorem arguments_local {ns : List Node} (hns : ∀ n ∈ ns, ExprLocal n) (hs : s.builder.Local)
    (h : arguments ns s = .ok vs s') :
    s'.builder.Local ∧ ∀ v ∈ vs, s'.builder.Gives v .i32 := by
  induction ns generalizing s vs with
  | nil =>
    obtain ⟨rfl, rfl⟩ := Effect.pure_eq_ok.mp h
    exact ⟨hs, nofun⟩
  | cons n rest ih =>
    rw [List.forall_mem_cons] at hns
    obtain ⟨v, s₁, ws, hv, hws, rfl⟩ := arguments_cons_eq_ok.mp h
    obtain ⟨hs₁, hv⟩ := asInt_local hns.1 hs hv
    obtain ⟨hs', hrest⟩ := ih hns.2 hs₁ hws
    have hemits := arguments_emits (fun n _ => exprEmits n) hws
    exact ⟨hs', List.forall_mem_cons.mpr ⟨hemits.gives hv, hrest⟩⟩

theorem exprLocal (n : Node) : ExprLocal n := by
  induction n using Node.parts_induction with
  | step n ih =>
    obtain ⟨kind, location, span⟩ := n
    intro s v s' h hs
    cases h with
    | constant => exact ⟨hs, offers_int _ _⟩
    | name h =>
      obtain ⟨b, hb, rfl⟩ := build_eq_ok.mp h
      obtain ⟨hlocal, hv⟩ := Build.read_local hs hb
      exact ⟨hlocal, hv.1⟩
    | neg hoperand h =>
      obtain ⟨hs₁, ho⟩ := asInt_local (ih _ (by simp [Kind.parts])) hs hoperand
      obtain ⟨b, hb, rfl⟩ := build_eq_ok.mp h
      obtain ⟨hlocal, hv⟩ := Build.neg_local hs₁ ho hb
      exact ⟨hlocal, hv.1⟩
    | binOp hop hleft hright h =>
      have hty := BinaryOperator.arithmetic_ty hop
      obtain ⟨hs₁, hl⟩ := asInt_local (ih _ (by simp [Kind.parts])) hs hleft
      obtain ⟨hs₂, hr⟩ := asInt_local (ih _ (by simp [Kind.parts])) hs₁ hright
      have hl := (asInt_emits (exprEmits _) hright).gives hl
      obtain ⟨b, hb, rfl⟩ := build_eq_ok.mp h
      rw [← hty] at hl hr
      obtain ⟨hlocal, hv⟩ := Build.binary_local hs₂ hl hr hb
      exact ⟨hlocal, hv.1⟩
    | compare hop hleft hright h =>
      obtain ⟨hs₁, hl⟩ := asInt_local (ih _ (by simp [Kind.parts])) hs hleft
      obtain ⟨hs₂, hr⟩ := asInt_local (ih _ (by simp [Kind.parts])) hs₁ hright
      have hl := (asInt_emits (exprEmits _) hright).gives hl
      obtain ⟨b, hb, rfl⟩ := build_eq_ok.mp h
      obtain ⟨hlocal, hv⟩ := Build.icmp_local hs₂ hl hr hb
      exact ⟨hlocal, hv.1⟩
    | @boolOp op _ _ _ _ _ _ _ _ _ hfirst hrest h =>
      obtain ⟨hs₁, hv⟩ := asCondition_local (ih _ (by simp [Kind.parts])) hs hfirst
      obtain ⟨hs₂, hvs⟩ := conditions_local (fun n hn => ih n (by simp [Kind.parts, hn])) hs₁ hrest
      have hv := (conditions_emits (fun n _ => exprEmits n) hrest).gives hv
      rw [← op.logic_ty] at hv hvs
      obtain ⟨hlocal, hw⟩ := join_local hs₂ hv hvs h
      exact ⟨hlocal, hw.1⟩
    | call hcallee hargs h =>
      have hs₁ := resolve_local hs hcallee
      obtain ⟨hs₂, hvs⟩ := arguments_local (fun n hn => ih n (by simp [Kind.parts, hn])) hs₁ hargs
      obtain ⟨b, hb, rfl⟩ := build_eq_ok.mp h
      obtain ⟨hlocal, hv⟩ := Build.call_local hs₂ hvs hb
      exact ⟨hlocal, hv.1⟩

theorem expr_local {n : Node} (hs : s.builder.Local) (h : expr n s = .ok v s') :
    s'.builder.Local ∧ s'.builder.Offers v :=
  exprLocal n _ _ _ (expr_run h) hs

theorem condition_local {n : Node} (hs : s.builder.Local) (h : condition n s = .ok v s') :
    s'.builder.Local ∧ s'.builder.Gives v .i1 :=
  asCondition_local (exprLocal n) hs h

/-! ## Constructs -/

/-- A step keeps blocks local. -/
def StepLocal (x : Lower Unit) : Prop :=
  ∀ s s', x s = .ok () s' → s.builder.HasCursor → s.builder.Local → s'.builder.Local

theorem reopen_local (h : reopen s = .ok () s') (hs : s.builder.Local) : s'.builder.Local := by
  obtain ⟨-, ⟨-, rfl⟩ | ⟨-, rfl⟩⟩ := reopen_eq_ok.mp h
  · exact hs
  · exact hs.addBlock _

theorem fallThrough_local {join join' : Option BlockId} (h : fallThrough join s = .ok join' s')
    (hs : s.builder.Local) : s'.builder.Local := by
  obtain ⟨-, ⟨-, -, rfl⟩ | ⟨-, target, s₁, -, rfl, ⟨-, rfl⟩ | ⟨-, -, rfl⟩⟩⟩ :=
    fallThrough_eq_ok.mp h
  · exact hs
  · exact hs.br target
  · exact (hs.addBlock _).br target

theorem branch_local {test : Lower Value} {body orelse : Lower Unit}
    (htest : ∀ {s v s'}, s.builder.Local → test s = .ok v s' →
      s'.builder.Local ∧ s'.builder.Gives v .i1)
    (hemits : ∀ {s v s'}, test s = .ok v s' → s.builder.Emits s'.builder)
    (hbody : StepLocal body) (horelse : StepLocal orelse) (hsettles : StepSettles body) :
    StepLocal (branch test body orelse) := by
  intro s s' h hcursor hs
  cases branch_run h with
  | @mk s₁ s₂ s₃ s₄ s₅ cond join join' hcond hopen hthen hjoin helse hjoin' =>
    obtain ⟨hs₁, hgives⟩ := htest hs hcond
    have hcursor₁ : s₁.builder.HasCursor :=
      (hemits hcond).settles.toFramed.hasCursor hcursor
    have harms : s₁.withArms.builder.Offers cond := by
      apply (hgives.1.addBlock hcursor₁ "if.then").addBlock
      exact (Framed.addBlock s₁.builder "if.then").hasCursor hcursor₁
    have hlocal : s₁.withArms.builder.Local := (hs₁.addBlock _).addBlock _
    let s₀ := s₁.withArms.closed (.condBr cond s₁.nextBlock s₁.secondBlock)
    have hclosed : s₀.builder.Local := hlocal.condBr ⟨harms, hgives.2⟩ _ _
    have hs₂ : s₂.builder.Local := hbody _ _ hthen (firstArm_hasCursor _ _) hclosed
    have hs₃ : s₃.builder.Local := fallThrough_local hjoin hs₂
    have hopen₃ := secondArm_isOpen hcursor₁ (hsettles _ _ hthen) (fallThrough_run hjoin)
    have hs₄ : s₄.builder.Local := horelse _ _ helse hopen₃.hasCursor hs₃
    have hs₅ := fallThrough_local hjoin' hs₄
    cases join' with
    | none => exact hs₅
    | some target => exact hs₅

theorem loop_local {test : Lower Value} {body : Lower Unit}
    (htest : ∀ {s v s'}, s.builder.Local → test s = .ok v s' →
      s'.builder.Local ∧ s'.builder.Gives v .i1)
    (hemits : ∀ {s v s'}, test s = .ok v s' → s.builder.Emits s'.builder)
    (hbody : StepLocal body) (hsettles : StepSettles body) : StepLocal (loop test body) := by
  intro s s' h hcursor hs
  cases loop_run h with
  | @mk s₁ s₂ s₃ cond hopen hcond hrun hcursor₂ hback hexit =>
    have hloop : s.withLoop.builder.Local := ((hs.addBlock _).addBlock _).addBlock _
    obtain ⟨hs₁, hgives⟩ := htest (hloop.br s.nextBlock) hcond
    have hlength : s.builder.blocks.length + 3 ≤ s₁.builder.blocks.length :=
      Nat.le_trans (Nat.le_of_eq (s.length_withLoop _).symm) (hemits hcond).settles.length
    have hs₂ : s₂.builder.Local := by
      apply hbody _ _ hrun _ hs₁
      exact Nat.lt_of_lt_of_le (Nat.lt_succ_self _) (Nat.le_trans (Nat.le_succ _) hlength)
    have hs₃ : s₃.builder.Local := by
      rcases hback with ⟨-, rfl⟩ | ⟨-, rfl⟩
      · exact hs₂.br s.nextBlock
      · exact hs₂
    -- The body has not touched the block of the test.
    have hframed := (hsettles _ _ hrun).toFramed
    have htestBlock : s₁.builder.cursor = s.nextBlock := (hemits hcond).cursor_eq
    have hlt : s₁.builder.cursor.val < s₁.builder.blocks.length := by
      rw [htestBlock]
      exact Nat.lt_of_lt_of_le (Nat.lt_add_of_pos_right (by decide)) hlength
    have hne : s₁.builder.cursor.val ≠ s.secondBlock.val := by
      rw [htestBlock]
      exact Nat.ne_of_lt (Nat.lt_succ_self _)
    have hsame₂ : s₂.builder.blocks[s₁.builder.cursor.val]? = s₁.builder.current? :=
      hframed.others _ hlt hne
    have hsame₃ : s₃.builder.blocks[s₁.builder.cursor.val]? = s₁.builder.current? := by
      rcases hback with ⟨hopen₂, rfl⟩ | ⟨-, rfl⟩
      · have hlt₂ := Nat.lt_of_lt_of_le hlt hframed.length
        have hne₂ := hframed.ne_cursor hlt hne
        exact ((Framed.close hopen₂ _).others _ hlt₂ hne₂).trans hsame₂
      · exact hsame₂
    have hs₄ : (s₃.movedTo s₁.builder.cursor).builder.Local := hs₃
    exact hs₄.condBr ⟨fun k hk => hgives.1 k (hsame₃.symm.trans hk), hgives.2⟩ _ _

/-! ## Statements -/

theorem block_local {ns : List Node} (hns : ∀ n ∈ ns, StepLocal (statement n)) :
    StepLocal (block ns) := by
  induction ns with
  | nil =>
    intro s s' h _ hs
    obtain ⟨-, rfl⟩ := Effect.pure_eq_ok.mp h
    exact hs
  | cons n rest ih =>
    intro s s' h hcursor hs
    rw [List.forall_mem_cons] at hns
    obtain ⟨s₁, s₂, hreopen, hn, hrest⟩ := block_cons_eq_ok.mp h
    have hcursor₁ := (reopen_settles hreopen).toFramed.hasCursor hcursor
    have hcursor₂ := (statement_settles n _ _ hn).toFramed.hasCursor hcursor₁
    exact ih hns.2 _ _ hrest hcursor₂ (hns.1 _ _ hn hcursor₁ (reopen_local hreopen hs))

theorem elseClause_local {ns : List Node} (hns : ∀ n ∈ ns, StepLocal (statement n)) :
    StepLocal (elseClause ns) := by
  intro s s' h hcursor hs
  cases ns with
  | nil =>
    obtain ⟨-, rfl⟩ := Effect.pure_eq_ok.mp h
    exact hs
  | cons n rest =>
    rw [List.forall_mem_cons] at hns
    rw [elseClause_cons] at h
    have hbuilder := s.shortened_builder (n :: rest).length
    exact hns.1 _ _ h (hbuilder ▸ hcursor) (hbuilder ▸ hs)

theorem statement_local (n : Node) : StepLocal (statement n) := by
  induction n using Node.parts_induction with
  | step n ih =>
    obtain ⟨kind, location, span⟩ := n
    intro s s' hrun hcursor hs
    cases statement_run hrun with
    | assign hvalue h =>
      obtain ⟨hs₁, hv⟩ := expr_local hs hvalue
      obtain ⟨b, hwrite, rfl⟩ := build_eq_ok.mp h
      exact Build.write_local hs₁ hv hwrite
    | expr h => exact (expr_local hs h).1
    | ret hvalue h =>
      obtain ⟨hs₁, hv⟩ := expr_local hs hvalue
      obtain ⟨b, hret, rfl⟩ := build_eq_ok.mp h
      exact Build.ret_local hs₁ hv hret
    | retNone h =>
      obtain ⟨b, hret, rfl⟩ := build_eq_ok.mp h
      exact Build.ret_local hs (offers_int _ _) hret
    | ifElse h =>
      exact branch_local (fun hs h => condition_local hs h) condition_emits
        (block_local fun n hn => ih n (by simp [Kind.parts, hn]))
        (elseClause_local fun n hn => ih n (by simp [Kind.parts, hn]))
        (block_settles fun n _ => statement_settles n) _ _ h hcursor hs
    | whileLoop h =>
      exact loop_local (fun hs h => condition_local hs h) condition_emits
        (block_local fun n hn => ih n (by simp [Kind.parts, hn]))
        (block_settles fun n _ => statement_settles n) _ _ h hcursor hs
    | functionDef h => exact hs
    | value h => exact (exprLocal ⟨kind, location, span⟩ _ _ _ h hs).1

end Lower

/-! ## Programs of trees -/

theorem Builder.start_local (name : String) (params : List String) :
    (Builder.start name params).Local := by
  have hempty : Builder.Local { name, params } := fun _ hk => nomatch hk
  exact hempty.addBlock "entry"

/-- What lowering builds for a definition is local. -/
theorem Function.Built.blocks_local {f : Function} (h : f.Built) : ∀ k ∈ f.blocks, k.Local := by
  cases h with
  | @mk d ctx s s' hbody hcursor hend hfunction =>
    have hs : s.builder.Local := by
      apply Lower.block_local (fun n _ => Lower.statement_local n) _ _ hbody
      · exact Nat.zero_lt_one
      · exact Builder.start_local d.name d.params
    have hs' : s'.builder.Local := by
      rcases hend with ⟨-, rfl⟩ | ⟨-, rfl⟩
      · exact hs.ret ⟨Builder.offers_int _ _, rfl⟩
      · exact hs
    subst hfunction
    exact hs'

variable {tree : Node} {options : LowerOptions} {p : Program}

theorem lower_local (h : lower tree options = .ok p) :
    ∀ f ∈ p.functions, ∀ k ∈ f.blocks, k.Local :=
  fun _ hf k hk => (lower_built h hf (List.ne_nil_of_mem hk)).blocks_local k hk

theorem lower_ordered (h : lower tree options = .ok p) :
    ∀ f ∈ p.functions, ∀ b ∈ f.blocks, b.Ordered :=
  fun f hf b hb => (lower_local h f hf b hb).ordered

/-- A lowered program finds no value undefined. -/
theorem lower_defined (h : lower tree options = .ok p) {name : String} {args : List Int32}
    {limits : ExecOptions} {e : ExecError} (he : p.run name args limits = .error (.error e)) :
    e.kind ≠ .undefinedValue := by
  intro hkind
  have hexcused : ¬ e.Foretold := Program.run_sound (lower_verify h) he
  rcases Program.run_undefined he hkind with ⟨_, _, rfl⟩ | ⟨f, hf, id, -, huses⟩
  · exact hexcused trivial
  · exact f.not_usesEarly_of_ordered (lower_ordered h f hf) id huses

/-- In a lowered program every result that is taken was computed before in the
    same block, so a run ends with an outcome or for a reason that lies in the call
    and its limits, or in a remainder by zero. Only if the limit on steps is the largest
    number of the word, the count of the steps may come to its end before the limit
    does. -/
theorem lowered_takes_computed (h : lower tree options = .ok p) :
    (∀ f ∈ p.functions, ∀ b ∈ f.blocks, b.Ordered) ∧
    ∀ name args limits, (∃ o, p.run name args limits = .ok o) ∨
      (∃ e, p.run name args limits = .error (.error e) ∧
        e.kind ∈ [.unknownFunction, .arityMismatch, .stepLimit, .depthLimit,
          .remainderByZero]) ∨
      (p.run name args limits = .error .overflow ∧
        limits.maxSteps.toNat + 1 = UInt64.size) := by
  refine ⟨lower_ordered h, fun name args limits => ?_⟩
  cases hrun : p.run name args limits with
  | ok o => exact .inl ⟨o, rfl⟩
  | error e =>
    have hexcused := Program.run_sound (lower_verify h) hrun
    cases e with
    | outOfRange =>
      rename_i fault
      cases fault with
      | noEntry => exact hexcused.elim
      | overflow => exact .inr (.inr ⟨rfl, Program.overflow_of_run hrun⟩)
    | error e =>
      refine .inr (.inl ⟨e, rfl, ?_⟩)
      have hdefined := lower_defined h hrun
      cases e with
      | noArgument function index => exact absurd trivial hexcused
      | missingTerminator function label => exact absurd trivial hexcused
      | notComputed function id => exact absurd rfl hdefined
      | _ => simp [ExecError.kind]

/-- The value of a test is taken behind the body of the loop, which has blocks of
    its own. -/
theorem countingTree_takes_computed :
    ∃ p, lower countingTree {} = .ok p ∧
      (∀ f ∈ p.functions, ∀ b ∈ f.blocks, b.Ordered) ∧
      ∀ limits, (∃ o, p.run "main" [] limits = .ok o) ∨
        (∃ e, p.run "main" [] limits = .error (.error e) ∧
          e.kind ∈ [.unknownFunction, .arityMismatch, .stepLimit, .depthLimit,
            .remainderByZero]) ∨
        (p.run "main" [] limits = .error .overflow ∧
          limits.maxSteps.toNat + 1 = UInt64.size) := by
  have hlowered : (lower countingTree {}).isOk = true := by decide +kernel
  cases h : lower countingTree {} with
  | ok p =>
    obtain ⟨hordered, hruns⟩ := lowered_takes_computed h
    exact ⟨p, rfl, hordered, hruns "main" []⟩
  | error e =>
    rw [h] at hlowered
    cases hlowered

/-- A loop that nothing ends. -/
def spinningTree : Node := .module [.whileLoop (.int 1) []]

theorem repeatWhile_spins (σ : Store) (fuel : Nat) :
    repeatWhile (pure 1) (pure .next) fuel σ = none := by
  induction fuel with
  | zero => rfl
  | succ fuel ih => exact ih

open Meaning in
/-- Whatever the fuel, the loop uses it up. -/
theorem spinningTree_endless (maxDepth : Nat) (result : Except ExecErrorKind (Int32 × Printed)) :
    ¬ spinningTree.Yields {} (maxDepth + 1) "main" [] result := by
  rintro ⟨fuel, hmeaning⟩
  let d : Definition := ⟨"main", [], [.whileLoop (.int 1) []]⟩
  have hmem : "main" ∈ moduleNames d.body {} := by decide
  have hcall : spinningTree.meaning {} (maxDepth + 1) fuel "main" [] =
      callFunction (moduleDefinitions d.body {}) (maxDepth + 1) fuel 0 "main" [] #[] := by
    rw [Node.meaning]
    exact if_pos hmem
  rw [hcall] at hmeaning
  cases fuel with
  | zero => cases hmeaning
  | succ fuel =>
    have hfind : (moduleDefinitions d.body {}).find? (·.name = "main") = some d := rfl
    have hbody (env : Env) (σ : Store) : blockExec env d.body σ = none :=
      bind_of_none (repeatWhile_spins σ env.fuel) _
    have harity : ([] : List Int32).length = d.params.length := rfl
    rw [callFunction_of_some hfind, if_neg (Decidable.not_not.mpr harity),
      if_neg (Nat.not_succ_le_zero _), Definition.run, hbody] at hmeaning
    cases hmeaning

/-- The test is passed more often than a word can count. So if the limit is the largest
    number of the word, the run ends neither with an outcome nor with an error. -/
theorem spinningTree_overflows :
    ∃ p, lower spinningTree {} = .ok p ∧
      p.run "main" [] { maxSteps := 18446744073709551615 } = .error .overflow := by
  have hlowered : (lower spinningTree {}).isOk = true := by decide +kernel
  cases h : lower spinningTree {} with
  | ok p =>
    have hlasts : p.Lasts "main" [] {} := endless_lasts h (spinningTree_endless _)
    exact ⟨p, rfl, hlasts.run 18446744073709551615⟩
  | error e =>
    rw [h] at hlowered
    cases hlowered

end Blockform
