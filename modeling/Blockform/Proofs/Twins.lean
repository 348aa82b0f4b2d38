-- SUMMARY: A tree is lowered to the same function in every context, up to the numbers of the functions it calls (`Lower.Twins`).
import Blockform.Proofs.Registry
import Blockform.Proofs.Similarity

/-!
# Lowering in two contexts

The functions of a program are numbered in the order in which they are mentioned,
so the number of a callee depends on what was lowered before. Nothing else of the
context shows in a function. Two runs of one step, in two contexts, that start
from builders which are twins (`Builder.Twin`) end with twins. Only successful
runs are compared: where one context declares a callee, another may know it
already.
-/

namespace Blockform

/-! ## Functions of one name -/

variable {p p' q q' : Program}

/-- A value is like itself, if results are to keep their numbers. -/
theorem Value.Like.rfl_eq (v : Value) : v.Like Eq v := by
  cases v with
  | const ty n => exact .const ty ty n
  | param index => exact .param index
  | inst id ty => exact .inst ty ty rfl

theorem Program.SameName.mono {id id' : FunctionId} (h : p.SameName p' id id') (hp : p.Grows q)
    (hp' : p'.Grows q') : q.SameName q' id id' := by
  obtain ⟨name, hid, hid'⟩ := h
  exact ⟨name, hp.lookup hid, hp'.lookup hid'⟩

theorem Op.Like.mono {ρ : InstId → InstId → Prop} {op op' : Op} (h : op.Like p p' ρ op')
    (hp : p.Grows q) (hp' : p'.Grows q') : op.Like q q' ρ op' := by
  cases h with
  | load slot hdest => exact .load slot hdest
  | store slot hvalue => exact .store slot hvalue
  | binary op ty ty' hdest hlhs hrhs => exact .binary op ty ty' hdest hlhs hrhs
  | neg hdest hoperand => exact .neg hdest hoperand
  | negSub ty zeroTy hdest hoperand => exact .negSub ty zeroTy hdest hoperand
  | subNeg ty zeroTy hdest hoperand => exact .subNeg ty zeroTy hdest hoperand
  | icmp pred hdest hlhs hrhs => exact .icmp pred hdest hlhs hrhs
  | zext hdest hoperand => exact .zext hdest hoperand
  | call hdest hcallee hargs => exact .call hdest (hcallee.mono hp hp') hargs

theorem Op.Like.dest_eq {op op' : Op} (h : op.Like p p' Eq op') : op'.dest = op.dest := by
  cases h <;> subst_vars <;> rfl

/-! ## Builders -/

/-- The blocks are the same, up to the numbers of callees. -/
structure Block.Twin (p p' : Program) (k k' : Block) : Prop where
  label : k'.label = k.label
  ops : List.Forall₂ (Op.Like p p' Eq) k.ops k'.ops
  terminator : k'.terminator = k.terminator

/-- The functions under construction are the same, up to the numbers of callees. -/
structure Builder.Twin (p p' : Program) (b b' : Builder) : Prop where
  name : b'.name = b.name
  params : b'.params = b.params
  slots : b'.slots = b.slots
  labels : b'.labels = b.labels
  cursor : b'.cursor = b.cursor
  nextInst : b'.nextInst = b.nextInst
  blocks : List.Forall₂ (Block.Twin p p') b.blocks b'.blocks

theorem forall₂_modify {α β : Type} {R : α → β → Prop} {l : List α} {l' : List β}
    (h : List.Forall₂ R l l') {f : α → α} {g : β → β} (hfg : ∀ a b, R a b → R (f a) (g b))
    (i : Nat) : List.Forall₂ R (l.modify i f) (l'.modify i g) := by
  induction h generalizing i with
  | nil => simp
  | cons hab hrest ih =>
    cases i with
    | zero => exact .cons (hfg _ _ hab) hrest
    | succ i => exact .cons hab (ih i)

theorem forall₂_getElem? {α β : Type} {R : α → β → Prop} {l : List α} {l' : List β}
    (h : List.Forall₂ R l l') {i : Nat} {a : α} {b : β} (ha : l[i]? = some a)
    (hb : l'[i]? = some b) : R a b := by
  induction h generalizing i with
  | nil => cases ha
  | cons hab _ ih =>
    cases i with
    | zero =>
      cases ha
      cases hb
      exact hab
    | succ i => exact ih ha hb

namespace Builder.Twin

variable {b b' : Builder}

theorem start (name : String) (params : List String) :
    (Builder.start name params).Twin p p' (.start name params) :=
  ⟨rfl, rfl, rfl, rfl, rfl, rfl, .cons ⟨rfl, .nil, rfl⟩ .nil⟩

theorem mono (h : b.Twin p p' b') (hp : p.Grows q) (hp' : p'.Grows q') : b.Twin q q' b' := by
  refine { h with blocks := h.blocks.imp fun k k' hk => ?_ }
  exact { hk with ops := hk.ops.imp fun _ _ hop => hop.mono hp hp' }

theorem openAt_iff (h : b.Twin p p' b') (i : Nat) : b'.OpenAt i ↔ b.OpenAt i := by
  have hblocks := h.blocks
  have hends : b'.blocks.map Block.terminator = b.blocks.map Block.terminator := by
    generalize b.blocks = l, b'.blocks = l' at hblocks
    induction hblocks with
    | nil => rfl
    | cons hk _ ih => simp [hk.terminator, ih]
  have hopen (b : Builder) : b.OpenAt i ↔ (b.blocks.map Block.terminator)[i]? = some none := by
    simp [OpenAt]
  rw [hopen, hopen, hends]

theorem isOpen_iff (h : b.Twin p p' b') : b'.IsOpen ↔ b.IsOpen := by
  rw [IsOpen, IsOpen, h.cursor, h.openAt_iff]

theorem emitted (h : b.Twin p p' b') {op op' : Op} (hop : op.Like p p' Eq op') :
    (b.emitted [op]).Twin p p' (b'.emitted [op']) where
  name := h.name
  params := h.params
  slots := h.slots
  labels := h.labels
  cursor := h.cursor
  nextInst := by simp only [Builder.emitted, List.filterMap_cons, hop.dest_eq, h.nextInst]
  blocks := by
    simp only [Builder.emitted, h.cursor]
    apply forall₂_modify h.blocks
    intro k k' hk
    exact { hk with ops := List.rel_append hk.ops (.cons hop .nil) }

theorem close (h : b.Twin p p' b') (t : Terminator) : (b.close t).Twin p p' (b'.close t) := by
  refine { h with blocks := ?_ }
  simp only [Builder.close, h.cursor]
  apply forall₂_modify h.blocks
  intro k k' hk
  exact { hk with terminator := rfl }

theorem addBlock (h : b.Twin p p' b') (label : String) :
    (b.addBlock label).Twin p p' (b'.addBlock label) where
  name := h.name
  params := h.params
  slots := h.slots
  labels := congrArg (label :: ·) h.labels
  cursor := h.cursor
  nextInst := h.nextInst
  blocks := by
    have hlabel : b'.freshLabel label = b.freshLabel label := by
      simp only [freshLabel, h.labels]
    exact List.rel_append h.blocks (.cons ⟨hlabel, .nil, rfl⟩ .nil)

theorem movedTo (h : b.Twin p p' b') (target : BlockId) :
    Builder.Twin p p' { b with cursor := target } { b' with cursor := target } :=
  { h with cursor := rfl }

theorem param? (h : b.Twin p p' b') (name : String) : b'.param? name = b.param? name := by
  simp only [Builder.param?_eq, h.params]

theorem slot? (h : b.Twin p p' b') (name : String) : b'.slot? name = b.slot? name := by
  simp only [Builder.slot?_eq, h.slots]

theorem ensureSlot (h : b.Twin p p' b') (name : String) :
    (b'.ensureSlot name).1 = (b.ensureSlot name).1 ∧
      (b.withSlot name).Twin p p' (b'.withSlot name) := by
  unfold withSlot Builder.ensureSlot
  rw [h.slot?]
  cases b.slot? name with
  | some slot => exact ⟨rfl, h⟩
  | none =>
    refine ⟨by rw [h.slots], { h with slots := ?_ }⟩
    rw [addSlot_slots, addSlot_slots, h.slots]

end Builder.Twin

/-! ## Steps of building -/

namespace Build

open Effect

variable {α β : Type} {b b' b₁ b₁' : Builder} {v w w' : Value} {u : Unit}

/-- Where both steps succeed, they give the same and leave twins. -/
def Twins (p p' : Program) (x y : Build α) : Prop :=
  ∀ b b' a a' b₁ b₁', b.Twin p p' b' → x b = .ok a b₁ → y b' = .ok a' b₁' →
    a' = a ∧ b₁.Twin p p' b₁'

theorem Twins.pure (a : α) : Twins p p' (Pure.pure a) (Pure.pure a) := by
  intro b b' a₁ a₁' b₁ b₁' hb h h'
  obtain ⟨rfl, rfl⟩ := pure_eq_ok.mp h
  obtain ⟨rfl, rfl⟩ := pure_eq_ok.mp h'
  exact ⟨rfl, hb⟩

theorem Twins.bind {x y : Build α} {f g : α → Build β} (hx : Twins p p' x y)
    (hf : ∀ a, Twins p p' (f a) (g a)) : Twins p p' (x >>= f) (y >>= g) := by
  intro b b' c c' b₂ b₂' hb h h'
  obtain ⟨a, b₁, ha, hc⟩ := bind_eq_ok.mp h
  obtain ⟨a', b₁', ha', hc'⟩ := bind_eq_ok.mp h'
  obtain ⟨rfl, hb₁⟩ := hx _ _ _ _ _ _ hb ha ha'
  exact hf a' _ _ _ _ _ _ hb₁ hc hc'

/-- The results of two operations have one number. -/
theorem define_twins (ty : Ty) {op op' : InstId → Op} (hdest : ∀ d, (op d).dest = some d)
    (hdest' : ∀ d, (op' d).dest = some d) (hop : ∀ d, (op d).Like p p' Eq (op' d)) :
    Twins p p' (define ty op) (define ty op') := by
  intro b b' a a' b₁ b₁' hb h h'
  obtain ⟨-, rfl, rfl⟩ := (define_eq_ok hdest).mp h
  obtain ⟨-, rfl, rfl⟩ := (define_eq_ok hdest').mp h'
  rw [hb.nextInst]
  exact ⟨rfl, hb.emitted (hop _)⟩

theorem load_twins (slot : SlotId) : Twins p p' (load slot) (load slot) :=
  define_twins .i32 (fun _ => rfl) (fun _ => rfl) fun _ => .load slot rfl

theorem binary_twins (op : BinaryOp) (lhs rhs : Value) :
    Twins p p' (binary op lhs rhs) (binary op lhs rhs) :=
  define_twins lhs.ty (fun _ => rfl) (fun _ => rfl) fun _ =>
    .binary op lhs.ty lhs.ty rfl (.rfl_eq lhs) (.rfl_eq rhs)

theorem neg_twins (v : Value) : Twins p p' (neg v) (neg v) :=
  define_twins .i32 (fun _ => rfl) (fun _ => rfl) fun _ => .neg rfl (.rfl_eq v)

theorem icmp_twins (pred : Predicate) (lhs rhs : Value) :
    Twins p p' (icmp pred lhs rhs) (icmp pred lhs rhs) :=
  define_twins .i1 (fun _ => rfl) (fun _ => rfl) fun _ =>
    .icmp pred rfl (.rfl_eq lhs) (.rfl_eq rhs)

theorem call_twins {callee callee' : FunctionId} (hcallee : p.SameName p' callee callee')
    (vs : List Value) : Twins p p' (call callee vs) (call callee' vs) := by
  refine define_twins .i32 (fun _ => rfl) (fun _ => rfl) fun _ => .call rfl hcallee ?_
  exact List.forall₂_same.mpr fun v _ => .rfl_eq v

theorem toInt_twins (v : Value) : Twins p p' (toInt v) (toInt v) := by
  unfold toInt
  cases v.ty with
  | i32 => exact .pure v
  | i1 => exact define_twins .i32 (fun _ => rfl) (fun _ => rfl) fun _ => .zext rfl (.rfl_eq v)

theorem toBool_twins (v : Value) : Twins p p' (toBool v) (toBool v) := by
  unfold toBool
  cases v.ty with
  | i1 => exact .pure v
  | i32 => exact icmp_twins .ne (.int 0) v

theorem read_twins (name : String) : Twins p p' (read name) (read name) := by
  intro b b' a a' b₁ b₁' hb h h'
  have hget (b : Builder) : (get : Build Builder) b = .ok b b := rfl
  unfold read at h h'
  rw [bind_of_ok (hget _)] at h h'
  rw [hb.param?, hb.slot?] at h'
  cases hparam : b.param? name with
  | some v =>
    rw [hparam] at h h'
    exact Twins.pure v _ _ _ _ _ _ hb h h'
  | none =>
    rw [hparam] at h h'
    cases hslot : b.slot? name with
    | some slot =>
      rw [hslot] at h h'
      exact load_twins slot _ _ _ _ _ _ hb h h'
    | none =>
      rw [hslot] at h
      cases h

theorem emit_twins {op op' : Op} (hop : op.Like p p' Eq op') (hdest : op.dest = none) :
    Twins p p' (emit op) (emit op') := by
  intro b b' a a' b₁ b₁' hb h h'
  obtain ⟨-, rfl⟩ := emit_eq_ok.mp h
  obtain ⟨-, rfl⟩ := emit_eq_ok.mp h'
  rw [Builder.push_eq_emitted hdest, Builder.push_eq_emitted (hop.dest_eq.trans hdest)]
  exact ⟨rfl, hb.emitted hop⟩

theorem terminate_twins (t : Terminator) : Twins p p' (terminate t) (terminate t) := by
  intro b b' a a' b₁ b₁' hb h h'
  obtain ⟨-, rfl⟩ := terminate_eq_ok.mp h
  obtain ⟨-, rfl⟩ := terminate_eq_ok.mp h'
  exact ⟨rfl, hb.close t⟩

theorem write_twins (name : String) (v : Value) : Twins p p' (write name v) (write name v) := by
  refine (toInt_twins v).bind fun w => Twins.bind ?_ fun slot => ?_
  · intro b b' a a' b₁ b₁' hb h h'
    cases h
    cases h'
    exact hb.ensureSlot name
  · exact emit_twins (.store slot (.rfl_eq w)) rfl

theorem ret_twins (v : Value) : Twins p p' (ret v) (ret v) :=
  (toInt_twins v).bind fun w => terminate_twins (.ret w)

end Build

/-! ## Steps of lowering -/

/-- The functions under construction are twins, each in its own program. -/
def Workspace.Twin (s s' : Workspace) : Prop :=
  s.builder.Twin s.context.program s'.context.program s'.builder

namespace Workspace.Twin

variable {s s' : Workspace}

/-- The registries may grow while the functions stay as they are. -/
theorem grown (h : s.Twin s') {ctx ctx' : Context} (hctx : s.context.Grows ctx)
    (hctx' : s'.context.Grows ctx') :
    Workspace.Twin { s with context := ctx } { s' with context := ctx' } :=
  Builder.Twin.mono h hctx.program hctx'.program

theorem withBlock (h : s.Twin s') (label : String) :
    (s.withBlock label).Twin (s'.withBlock label) :=
  Builder.Twin.addBlock h label

theorem movedTo (h : s.Twin s') (target : BlockId) : (s.movedTo target).Twin (s'.movedTo target) :=
  Builder.Twin.movedTo h target

theorem nextBlock (h : s.Twin s') : s'.nextBlock = s.nextBlock :=
  congrArg BlockId.mk h.blocks.length_eq.symm

theorem shortened (h : s.Twin s') (statements : Nat) :
    (s.shortened statements).Twin (s'.shortened statements) := by
  unfold Workspace.shortened
  split
  · exact h
  · exact h

end Workspace.Twin

namespace Lower

open Effect

variable {α β : Type} {s s' s₁ s₁' : Workspace} {v v' : Value} {vs vs' : List Value} {u u' : Unit}

/-- Where the step succeeds from twins, it gives the same and leaves twins. -/
def Twins (x : Lower α) : Prop :=
  ∀ s s' a a' s₁ s₁', s.Twin s' → x s = .ok a s₁ → x s' = .ok a' s₁' → a' = a ∧ s₁.Twin s₁'

theorem Twins.pure (a : α) : Twins (Pure.pure a) := by
  intro s s' a₁ a₁' s₁ s₁' hs h h'
  obtain ⟨rfl, rfl⟩ := pure_eq_ok.mp h
  obtain ⟨rfl, rfl⟩ := pure_eq_ok.mp h'
  exact ⟨rfl, hs⟩

theorem Twins.bind {x : Lower α} {f : α → Lower β} (hx : Twins x) (hf : ∀ a, Twins (f a)) :
    Twins (x >>= f) := by
  intro s s' c c' s₂ s₂' hs h h'
  obtain ⟨a, s₁, ha, hc⟩ := bind_eq_ok.mp h
  obtain ⟨a', s₁', ha', hc'⟩ := bind_eq_ok.mp h'
  obtain ⟨rfl, hs₁⟩ := hx _ _ _ _ _ _ hs ha ha'
  exact hf a' _ _ _ _ _ _ hs₁ hc hc'

theorem Twins.locating {x : Lower α} (h : Twins x) (n : Node) : Twins (locating n x) := by
  intro s s' a a' s₁ s₁' hs hx hy
  exact h _ _ _ _ _ _ hs (locating_eq_ok.mp hx) (locating_eq_ok.mp hy)

theorem build_twins {x : Build α} (h : ∀ p p', Build.Twins p p' x x) : Twins (build x) := by
  intro s s' a a' s₁ s₁' hs hx hy
  obtain ⟨b, hb, rfl⟩ := build_eq_ok.mp hx
  obtain ⟨b', hb', rfl⟩ := build_eq_ok.mp hy
  exact h _ _ _ _ _ _ _ _ hs hb hb'

theorem newBlock_twins (label : String) : Twins (newBlock label) := by
  intro s s' a a' s₁ s₁' hs h h'
  rw [newBlock_run] at h h'
  cases h
  cases h'
  exact ⟨hs.nextBlock, hs.withBlock label⟩

theorem moveTo_twins (target : BlockId) : Twins (moveTo target) := by
  intro s s' a a' s₁ s₁' hs h h'
  cases h
  cases h'
  exact ⟨rfl, hs.movedTo target⟩

theorem isTerminated_twins : Twins isTerminated := by
  intro s s' closed closed' s₁ s₁' hs h h'
  obtain ⟨rfl, -, hopen⟩ := isTerminated_eq_ok.mp h
  obtain ⟨rfl, -, hopen'⟩ := isTerminated_eq_ok.mp h'
  rw [Builder.Twin.isOpen_iff hs, ← hopen] at hopen'
  refine ⟨?_, hs⟩
  cases closed with
  | false => exact hopen'.mpr rfl
  | true =>
    cases closed' with
    | true => rfl
    | false => exact absurd (hopen'.mp rfl) (by decide)

/-! ## Expressions -/

theorem asInt_twins {n : Node} (hn : Twins (expr n)) : Twins (asInt (expr n)) :=
  hn.bind fun v => build_twins fun _ _ => Build.toInt_twins v

theorem asCondition_twins {n : Node} (hn : Twins (expr n)) (m : Node) :
    Twins (asCondition m (expr n)) :=
  hn.bind fun v => (build_twins fun _ _ => Build.toBool_twins v).locating m

theorem conditions_twins {ns : List Node} (hns : ∀ n ∈ ns, Twins (expr n)) :
    Twins (conditions ns) := by
  induction ns with
  | nil => exact .pure []
  | cons n rest ih =>
    rw [List.forall_mem_cons] at hns
    exact (asCondition_twins hns.1 n).bind fun v => (ih hns.2).bind fun vs => .pure (v :: vs)

theorem arguments_twins {ns : List Node} (hns : ∀ n ∈ ns, Twins (expr n)) :
    Twins (arguments ns) := by
  induction ns with
  | nil => exact .pure []
  | cons n rest ih =>
    rw [List.forall_mem_cons] at hns
    exact (asInt_twins hns.1).bind fun v => (ih hns.2).bind fun vs => .pure (v :: vs)

theorem join_twins (op : BinaryOp) (first : Value) (rest : List Value) :
    Twins (join op first rest) := by
  induction rest generalizing first with
  | nil => exact .pure first
  | cons v rest ih =>
    unfold join
    rw [List.foldlM_cons]
    exact (build_twins fun _ _ => Build.binary_twins op first v).bind ih

/-- Callees of one name stay that while the arguments are lowered. -/
theorem call_twins {args : List Node} (hargs : ∀ n ∈ args, Twins (expr n)) (name : String) :
    Twins (do
      let callee ← resolve name args.length
      let values ← arguments args
      build (Build.call callee values)) := by
  intro s s' v v' s₃ s₃' hs h h'
  obtain ⟨callee, s₁, hcallee, h⟩ := bind_eq_ok.mp h
  obtain ⟨callee', s₁', hcallee', h'⟩ := bind_eq_ok.mp h'
  obtain ⟨ctx, hresolve, rfl⟩ := resolve_eq_ok.mp hcallee
  obtain ⟨ctx', hresolve', rfl⟩ := resolve_eq_ok.mp hcallee'
  have hs₁ := hs.grown (Context.resolve_grows hresolve) (Context.resolve_grows hresolve')
  have hname : ctx.program.SameName ctx'.program callee callee' :=
    ⟨name, (Context.resolve_eq_ok hresolve).1, (Context.resolve_eq_ok hresolve').1⟩
  obtain ⟨vs, s₂, hvs, h⟩ := bind_eq_ok.mp h
  obtain ⟨vs', s₂', hvs', h'⟩ := bind_eq_ok.mp h'
  obtain ⟨rfl, hs₂⟩ := arguments_twins hargs _ _ _ _ _ _ hs₁ hvs hvs'
  have hgrows := arguments_grows _ _ _ _ hvs
  have hgrows' := arguments_grows _ _ _ _ hvs'
  obtain ⟨b, hb, rfl⟩ := build_eq_ok.mp h
  obtain ⟨b', hb', rfl⟩ := build_eq_ok.mp h'
  exact Build.call_twins (hname.mono hgrows.program hgrows'.program) vs' _ _ _ _ _ _ hs₂ hb hb'

theorem exprKind_twins {k : Kind} (hparts : ∀ n ∈ k.parts, Twins (expr n)) :
    Twins (exprKind k) := by
  intro s s' v v' s₁ s₁' hs h h'
  cases exprKind_run h with
  | constant => exact Twins.pure _ _ _ _ _ _ _ hs h h'
  | name => exact (build_twins fun _ _ => Build.read_twins _) _ _ _ _ _ _ hs h h'
  | @neg operand =>
    have hoperand := asInt_twins (hparts operand (by simp [Kind.parts]))
    exact (hoperand.bind fun v => build_twins fun _ _ => Build.neg_twins v) _ _ _ _ _ _ hs h h'
  | @binOp left right op arithmetic _ _ _ _ _ _ _ hop =>
    have hleft := asInt_twins (hparts left (by simp [Kind.parts]))
    have hright := asInt_twins (hparts right (by simp [Kind.parts]))
    simp only [exprKind, hop] at h h'
    exact (hleft.bind fun lhs => hright.bind fun rhs =>
      build_twins fun _ _ => Build.binary_twins arithmetic lhs rhs) _ _ _ _ _ _ hs h h'
  | @compare left right op predicate _ _ _ _ _ _ _ hop =>
    have hleft := asInt_twins (hparts left (by simp [Kind.parts]))
    have hright := asInt_twins (hparts right (by simp [Kind.parts]))
    simp only [exprKind, hop] at h h'
    exact (hleft.bind fun lhs => hright.bind fun rhs =>
      build_twins fun _ _ => Build.icmp_twins predicate lhs rhs) _ _ _ _ _ _ hs h h'
  | @boolOp op first rest =>
    have hfirst := asCondition_twins (hparts first (by simp [Kind.parts])) first
    have hrest := conditions_twins fun n (hn : n ∈ rest) => hparts n (by simp [Kind.parts, hn])
    exact (hfirst.bind fun v => hrest.bind fun vs => join_twins op.logic v vs) _ _ _ _ _ _ hs h h'
  | @call id _ _ args =>
    have hargs n (hn : n ∈ args) := hparts n (by simp [Kind.parts, hn])
    exact call_twins hargs id _ _ _ _ _ _ hs h h'

theorem expr_twins (n : Node) : Twins (expr n) := by
  induction n using Node.parts_induction with
  | step n ih =>
    obtain ⟨kind, location, span⟩ := n
    exact (exprKind_twins ih).locating ⟨kind, location, span⟩

theorem condition_twins (n : Node) : Twins (condition n) :=
  asCondition_twins (expr_twins n) n

/-! ## Constructs -/

theorem br_twins (target : BlockId) : Twins (build (Build.br target)) :=
  build_twins fun _ _ => Build.terminate_twins (.br target)

theorem condBr_twins (cond : Value) (thenBlock elseBlock : BlockId) :
    Twins (build (Build.condBr cond thenBlock elseBlock)) :=
  build_twins fun _ _ => Build.terminate_twins (.condBr cond thenBlock elseBlock)

theorem reopen_twins : Twins reopen := by
  refine isTerminated_twins.bind fun closed => ?_
  cases closed with
  | true => exact (newBlock_twins _).bind moveTo_twins
  | false => exact .pure ()

theorem fallThrough_twins (join : Option BlockId) : Twins (fallThrough join) := by
  refine isTerminated_twins.bind fun closed => ?_
  have hbranch (target : BlockId) :
      Twins (do build (Build.br target); return some target : Lower (Option BlockId)) :=
    (br_twins target).bind fun _ => .pure _
  cases closed with
  | true => exact .pure join
  | false =>
    cases join with
    | some target => exact hbranch target
    | none => exact (newBlock_twins _).bind hbranch

theorem branch_twins {test : Lower Value} {body orelse : Lower Unit} (htest : Twins test)
    (hbody : Twins body) (horelse : Twins orelse) :
    Twins (branch test body orelse) := by
  refine htest.bind fun cond => ?_
  refine (newBlock_twins _).bind fun thenBlock => (newBlock_twins _).bind fun elseBlock => ?_
  refine (condBr_twins cond thenBlock elseBlock).bind fun _ => (moveTo_twins _).bind fun _ => ?_
  refine hbody.bind fun _ => (fallThrough_twins _).bind fun join => ?_
  refine (moveTo_twins _).bind fun _ => ?_
  refine horelse.bind fun _ => (fallThrough_twins _).bind fun join' => ?_
  cases join' with
  | some target => exact moveTo_twins target
  | none => exact .pure ()

theorem loop_twins {test : Lower Value} {body : Lower Unit} (htest : Twins test)
    (hbody : Twins body) : Twins (loop test body) := by
  have hclose (cond : Value) (testExit bodyBlock endBlock : BlockId) :
      Twins (do
        moveTo testExit
        build (Build.condBr cond bodyBlock endBlock)
        moveTo endBlock : Lower Unit) :=
    (moveTo_twins _).bind fun _ => (condBr_twins _ _ _).bind fun _ => moveTo_twins _
  refine (newBlock_twins _).bind fun testBlock => (newBlock_twins _).bind fun bodyBlock => ?_
  refine (newBlock_twins _).bind fun endBlock => (br_twins testBlock).bind fun _ => ?_
  refine (moveTo_twins _).bind fun _ => htest.bind fun cond => ?_
  intro s s' a a' s₁ s₁' hs h h'
  have hget (s : Workspace) : (get : Lower Workspace) s = .ok s s := rfl
  rw [bind_of_ok (hget _)] at h h'
  rw [show s'.builder.cursor = s.builder.cursor from hs.cursor] at h'
  refine (moveTo_twins bodyBlock).bind (fun _ => hbody.bind fun _ => ?_) _ _ _ _ _ _ hs h h'
  refine isTerminated_twins.bind fun closed => ?_
  cases closed with
  | true => exact hclose _ _ _ _
  | false => exact (br_twins testBlock).bind fun _ => hclose _ _ _ _

/-! ## Statements -/

theorem block_twins {ns : List Node} (hns : ∀ n ∈ ns, Twins (statement n)) :
    Twins (block ns) := by
  induction ns with
  | nil => exact .pure ()
  | cons n rest ih =>
    rw [List.forall_mem_cons] at hns
    exact reopen_twins.bind fun _ => hns.1.bind fun _ => ih hns.2

theorem elseClause_twins {ns : List Node} (hns : ∀ n ∈ ns, Twins (statement n)) :
    Twins (elseClause ns) := by
  cases ns with
  | nil => exact .pure ()
  | cons n rest =>
    intro s s' a a' s₁ s₁' hs h h'
    rw [elseClause_cons] at h h'
    exact hns n (List.mem_cons_self ..) _ _ _ _ _ _ (hs.shortened _) h h'

/-- A function inside another one leaves the outer one as it is. -/
theorem functionDef_twins (name : String) (params : List String) (body : List Node) :
    Twins (statementKind (.functionDef name params body)) := by
  intro s s' a a' s₁ s₁' hs h h'
  have hgrows {ctx ctx' : Context} {id : FunctionId}
      (h : Context.buildFunction name params (block body) ctx = .ok id ctx') : ctx.Grows ctx' :=
    buildFunction_grows (grows_stepRules.body _) h
  cases statementKind_run h with
  | functionDef hbuild =>
    cases statementKind_run h' with
    | functionDef hbuild' => exact ⟨rfl, hs.grown (hgrows hbuild) (hgrows hbuild')⟩
    | value h => cases h
  | value h => cases h

theorem statementKind_twins {k : Kind}
    (hparts : ∀ n ∈ k.parts, Twins (statement n)) :
    Twins (statementKind k) := by
  intro s s' a a' s₁ s₁' hs h h'
  cases statementKind_run h with
  | @assign id _ _ value =>
    exact ((expr_twins value).bind fun v => build_twins fun _ _ => Build.write_twins id v)
      _ _ _ _ _ _ hs h h'
  | @expr value => exact ((expr_twins value).bind fun _ => .pure ()) _ _ _ _ _ _ hs h h'
  | @ret value =>
    exact ((expr_twins value).bind fun v => build_twins fun _ _ => Build.ret_twins v)
      _ _ _ _ _ _ hs h h'
  | retNone => exact (build_twins fun _ _ => Build.ret_twins (.int 0)) _ _ _ _ _ _ hs h h'
  | @ifElse test body orelse =>
    have hbody := block_twins fun n (hn : n ∈ body) => hparts n (by simp [Kind.parts, hn])
    have horelse := elseClause_twins fun n (hn : n ∈ orelse) => hparts n (by simp [Kind.parts, hn])
    exact branch_twins (condition_twins test) hbody horelse _ _ _ _ _ _ hs h h'
  | @whileLoop test body =>
    have hbody := block_twins fun n (hn : n ∈ body) => hparts n (by simp [Kind.parts, hn])
    exact loop_twins (condition_twins test) hbody _ _ _ _ _ _ hs h h'
  | functionDef => exact functionDef_twins _ _ _ _ _ _ _ _ _ hs h h'
  | value hrun =>
    rw [statementKind_of_isExpression hrun.isExpression] at h h'
    exact ((exprKind_twins fun n _ => expr_twins n).bind fun _ => .pure ()) _ _ _ _ _ _ hs h h'

theorem statement_twins (n : Node) : Twins (statement n) := by
  induction n using Node.parts_induction with
  | step n ih =>
    obtain ⟨kind, location, span⟩ := n
    exact (statementKind_twins ih).locating ⟨kind, location, span⟩

end Lower

end Blockform
