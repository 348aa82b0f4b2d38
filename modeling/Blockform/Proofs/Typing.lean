-- SUMMARY: Functions under construction are sound (`Builder.Sound`): what the steps of building take and give.
import Blockform.Proofs.Framing
import Blockform.Proofs.Verification

/-!
# Sound construction

What verification asks of a finished function is asked of one under construction
as far as it goes: results are numbered apart, and every number that an
operation or a terminator refers to has an entry already (`Builder.Sound`). As
nothing is ever taken back, what has been admitted once stays admitted
(`Builder.Grows.sub`). Each step of building keeps a function sound that takes
admitted values, and the value that it gives is admitted.
-/

namespace Blockform

/-! ## Tables -/

namespace Function.Scope

/-- What the tables of the one scope have an entry for, those of the other have
    one for as well. -/
structure Sub (s s' : Scope) : Prop where
  params : s.function.params.length ≤ s'.function.params.length
  slots : s.function.slots.length ≤ s'.function.slots.length
  blocks : s.function.blocks.length ≤ s'.function.blocks.length
  size : s.program.size ≤ s'.program.size
  dests : s.dests ⊆ s'.dests

/-- An operation passes its checks. -/
def Accepts (s : Scope) (op : Op) : Prop := (∀ v ∈ op.operands, s.Admits v) ∧ s.Fits op

/-- An operand is admitted, and is of a type. -/
def Has (s : Scope) (v : Value) (ty : Ty) : Prop := s.Admits v ∧ v.ty = ty

variable {s s' : Scope} {v : Value}

theorem Sub.admits (h : s.Sub s') (hv : s.Admits v) : s'.Admits v := by
  cases v with
  | const ty value => trivial
  | param index => exact Nat.lt_of_lt_of_le hv h.params
  | inst id ty => exact h.dests hv

theorem Sub.has (h : s.Sub s') {ty : Ty} (hv : s.Has v ty) : s'.Has v ty :=
  ⟨h.admits hv.1, hv.2⟩

theorem Sub.fits (h : s.Sub s') {op : Op} (hop : s.Fits op) : s'.Fits op := by
  cases op with
  | load dest slot => exact Nat.lt_of_lt_of_le hop h.slots
  | store value slot => exact ⟨Nat.lt_of_lt_of_le hop.1 h.slots, hop.2⟩
  | call dest callee args => exact Nat.lt_of_lt_of_le hop h.size
  | binary dest op ty lhs rhs => exact hop
  | neg dest operand => trivial
  | icmp dest pred lhs rhs => trivial
  | zext dest operand => trivial

theorem Sub.accepts (h : s.Sub s') {op : Op} (hop : s.Accepts op) : s'.Accepts op :=
  ⟨fun v hv => h.admits (hop.1 v hv), h.fits hop.2⟩

theorem Sub.leaves (h : s.Sub s') {t : Terminator} (ht : s.Leaves t) : s'.Leaves t := by
  cases t with
  | ret value => exact h.admits ht
  | br target => exact Nat.lt_of_lt_of_le ht h.blocks
  | condBr cond thenBlock elseBlock =>
    obtain ⟨hcond, hty, hthen, helse⟩ := ht
    exact ⟨h.admits hcond, hty, Nat.lt_of_lt_of_le hthen h.blocks,
      Nat.lt_of_lt_of_le helse h.blocks⟩

end Function.Scope

/-- A verified function is verified in a program with more functions, and under
    any name. -/
theorem Function.Verified.mono {p p' : Program} {f f' : Function} (hf : f.Verified p)
    (hsize : p.size ≤ p'.size) (hparams : f'.params = f.params) (hslots : f'.slots = f.slots)
    (hblocks : f'.blocks = f.blocks) : f'.Verified p' := by
  have hdests : f'.dests = f.dests := by rw [dests, dests, ops, ops, hblocks]
  have hsub : (f.scope p).Sub (f'.scope p') := {
    params := by simp [scope, hparams]
    slots := by simp [scope, hslots]
    blocks := by simp [scope, hblocks]
    size := hsize
    dests := by simp [scope, hdests] }
  constructor
  · exact hdests ▸ hf.distinct
  · rw [hblocks]
    exact fun b hb op hop v hv => hsub.admits (hf.operands b hb op hop v hv)
  · rw [hblocks]
    exact fun b hb op hop => hsub.fits (hf.fits b hb op hop)
  · rw [hblocks]
    intro b hb
    obtain ⟨t, ht, hleaves⟩ := hf.ends b hb
    exact ⟨t, ht, hsub.leaves hleaves⟩

/-! ## Functions under construction -/

namespace Builder

/-- What the parts of a function under construction are checked against. -/
def scope (p : Program) (b : Builder) : Function.Scope := b.finish.scope p

/-- A function under construction in which nothing is missing so far. -/
structure Sound (p : Program) (b : Builder) : Prop where
  distinct : b.finish.dests.Nodup
  fresh : ∀ id ∈ b.finish.dests, id.val < b.nextInst
  ops : ∀ k ∈ b.blocks, ∀ op ∈ k.ops, (b.scope p).Accepts op
  ends : ∀ k ∈ b.blocks, ∀ t, k.terminator = some t → (b.scope p).Leaves t

variable {p p' : Program} {b b' : Builder} {v w : Value}

theorem mem_dests {id : InstId} :
    id ∈ b.finish.dests ↔ ∃ k ∈ b.blocks, ∃ op ∈ k.ops, op.dest = some id := by
  simp only [Function.dests, Function.ops, finish, List.mem_filterMap, List.mem_flatMap]
  constructor
  · rintro ⟨op, ⟨k, hk, hop⟩, hdest⟩
    exact ⟨k, hk, op, hop, hdest⟩
  · rintro ⟨k, hk, op, hop, hdest⟩
    exact ⟨op, ⟨k, hk, hop⟩, hdest⟩

/-- What has an entry in the tables keeps it. -/
theorem Grows.sub (h : b.Grows b') (hsize : p.size ≤ p'.size) :
    (b.scope p).Sub (b'.scope p') where
  params := Nat.le_of_eq (congrArg List.length h.params).symm
  slots := h.slots.length_le
  blocks := h.length
  size := hsize
  dests := by
    intro id hid
    obtain ⟨k, hk, op, hop, hdest⟩ := mem_dests.mp hid
    obtain ⟨i, hi⟩ := List.mem_iff_getElem?.mp hk
    obtain ⟨k', hk', hgrows⟩ := h.blocks i k hi
    exact mem_dests.mpr ⟨k', List.mem_of_getElem? hk', op, hgrows.ops.subset hop, hdest⟩

/-- The results of operations that are added under the cursor come on top, in
    some place of the order. -/
theorem dests_emitted (h : b.HasCursor) (ops : List Op) :
    (b.emitted ops).finish.dests.Perm (b.finish.dests ++ ops.filterMap Op.dest) := by
  have hmodify : ∀ (l : List Block) (i : Nat), i < l.length →
      ((l.modify i fun k => { k with ops := k.ops ++ ops }).flatMap Block.ops).Perm
        (l.flatMap Block.ops ++ ops) := by
    intro l
    induction l with
    | nil => exact fun i hi => absurd hi (Nat.not_lt_zero i)
    | cons k l ih =>
      intro i hi
      cases i with
      | zero =>
        simp only [List.modify_zero_cons, List.flatMap_cons, List.append_assoc]
        exact List.perm_append_comm.append_left k.ops
      | succ i =>
        simp only [List.modify_succ_cons, List.flatMap_cons, List.append_assoc]
        exact (ih i (Nat.lt_of_succ_lt_succ hi)).append_left k.ops
  have hops := (hmodify b.blocks b.cursor.val h).filterMap Op.dest
  rwa [List.filterMap_append] at hops

theorem dests_close (b : Builder) (t : Terminator) :
    (b.close t).finish.dests = b.finish.dests := by
  have hmodify : ∀ (l : List Block) (i : Nat),
      (l.modify i fun k => { k with terminator := some t }).flatMap Block.ops =
        l.flatMap Block.ops := by
    intro l
    induction l with
    | nil => simp
    | cons k l ih =>
      intro i
      cases i with
      | zero => simp [List.flatMap_cons]
      | succ i => simp [List.flatMap_cons, ih i]
  exact congrArg (List.filterMap Op.dest) (hmodify b.blocks b.cursor.val)

theorem dests_addBlock (b : Builder) (label : String) :
    (b.addBlock label).finish.dests = b.finish.dests := by
  simp [Function.dests, Function.ops, finish, Builder.addBlock]

/-- A slot is no matter of the blocks. -/
theorem withSlot_blocks (b : Builder) (name : String) : (b.withSlot name).blocks = b.blocks := by
  unfold Builder.withSlot ensureSlot
  cases b.slot? name <;> rfl

theorem withSlot_nextInst (b : Builder) (name : String) :
    (b.withSlot name).nextInst = b.nextInst := by
  unfold Builder.withSlot ensureSlot
  cases b.slot? name <;> rfl

theorem dests_withSlot (b : Builder) (name : String) :
    (b.withSlot name).finish.dests = b.finish.dests :=
  congrArg (fun blocks : List Block => (blocks.flatMap Block.ops).filterMap Op.dest)
    (b.withSlot_blocks name)

/-- A change of one block concerns this block alone. -/
theorem eq_of_mem_modify {change : Block → Block} {k : Block} {l : List Block} {i : Nat}
    (hk : k ∈ l.modify i change) : k ∈ l ∨ ∃ k₀, l[i]? = some k₀ ∧ k = change k₀ := by
  obtain ⟨j, hj⟩ := List.mem_iff_getElem?.mp hk
  rw [List.getElem?_modify] at hj
  cases hk₀ : l[j]? with
  | none => simp [hk₀] at hj
  | some k₀ =>
    by_cases hij : i = j
    · simp only [hk₀, hij, if_true, Option.map_eq_map, Option.map_some, Option.some.injEq] at hj
      exact .inr ⟨k₀, hij ▸ hk₀, hj.symm⟩
    · simp only [hk₀, hij, if_false, Option.map_eq_map, Option.map_some, Option.some.injEq] at hj
      exact .inl (hj ▸ List.mem_of_getElem? hk₀)

theorem mem_modify {change : Block → Block} {k : Block} {l : List Block} {i : Nat}
    (hk : k ∈ l.modify i change) : k ∈ l ∨ ∃ k₀ ∈ l, k = change k₀ := by
  rcases eq_of_mem_modify hk with hk | ⟨k₀, hk₀, heq⟩
  · exact .inl hk
  · exact .inr ⟨k₀, List.mem_of_getElem? hk₀, heq⟩

/-- The slot of a variable that is written exists from then on. -/
theorem ensureSlot_lt (b : Builder) (name : String) :
    (b.ensureSlot name).1.val < (b.withSlot name).slots.length := by
  unfold withSlot ensureSlot
  cases h : b.slot? name with
  | none => simp
  | some slot => exact Builder.slot?_lt h

namespace Sound

theorem mono (hb : b.Sound p) (hsize : p.size ≤ p'.size) : b.Sound p' := by
  have hsub : (b.scope p).Sub (b.scope p') := (Grows.refl b).sub hsize
  exact ⟨hb.distinct, hb.fresh, fun k hk op hop => hsub.accepts (hb.ops k hk op hop),
    fun k hk t ht => hsub.leaves (hb.ends k hk t ht)⟩

/-- Adding an operation that passes its checks, and has a fresh result if it has
    one. -/
theorem emitted (hb : b.Sound p) (hopen : b.IsOpen) {op : Op}
    (hdest : ∀ id, op.dest = some id → id = ⟨b.nextInst⟩) (hop : (b.scope p).Accepts op) :
    (b.emitted [op]).Sound p := by
  have hsub : (b.scope p).Sub ((b.emitted [op]).scope p) :=
    (Framed.emitted hopen [op]).sub (Nat.le_refl _)
  have hperm := dests_emitted hopen.hasCursor [op]
  have hnew : ∀ id ∈ [op].filterMap Op.dest, id = ⟨b.nextInst⟩ := by
    intro id hid
    obtain ⟨op', hop', hid⟩ := List.mem_filterMap.mp hid
    rw [List.mem_singleton.mp hop'] at hid
    exact hdest id hid
  constructor
  · refine hperm.nodup_iff.mpr (List.nodup_append.mpr ⟨hb.distinct, ?_, fun id hid id' hid' => ?_⟩)
    · cases h : op.dest <;> simp [h]
    · rintro rfl
      have hlt := hb.fresh id hid
      rw [hnew id hid'] at hlt
      exact Nat.lt_irrefl _ hlt
  · intro id hid
    rcases List.mem_append.mp (hperm.mem_iff.mp hid) with hid | hid
    · exact Nat.lt_of_lt_of_le (hb.fresh id hid) (Nat.le_add_right _ _)
    · cases h : op.dest with
      | none => simp [h] at hid
      | some id' =>
        rw [hnew id hid]
        simp [Builder.emitted, h]
  · intro k hk op' hop'
    rcases mem_modify hk with hk | ⟨k₀, hk₀, rfl⟩
    · exact hsub.accepts (hb.ops k hk op' hop')
    · rcases List.mem_append.mp hop' with hop' | hop'
      · exact hsub.accepts (hb.ops k₀ hk₀ op' hop')
      · rw [List.mem_singleton.mp hop']
        exact hsub.accepts hop
  · intro k hk t ht
    rcases mem_modify hk with hk | ⟨k₀, hk₀, rfl⟩
    · exact hsub.leaves (hb.ends k hk t ht)
    · exact hsub.leaves (hb.ends k₀ hk₀ t ht)

/-- Ending the block under the cursor with a terminator that passes its checks. -/
theorem close (hb : b.Sound p) (hopen : b.IsOpen) {t : Terminator}
    (ht : (b.scope p).Leaves t) : (b.close t).Sound p := by
  have hsub : (b.scope p).Sub ((b.close t).scope p) :=
    (Framed.close hopen t).sub (Nat.le_refl _)
  have hdests := dests_close b t
  constructor
  · rw [hdests]
    exact hb.distinct
  · rw [hdests]
    exact hb.fresh
  · intro k hk op hop
    rcases mem_modify hk with hk | ⟨k₀, hk₀, rfl⟩
    · exact hsub.accepts (hb.ops k hk op hop)
    · exact hsub.accepts (hb.ops k₀ hk₀ op hop)
  · intro k hk t' ht'
    rcases mem_modify hk with hk | ⟨k₀, hk₀, rfl⟩
    · exact hsub.leaves (hb.ends k hk t' ht')
    · cases ht'
      exact hsub.leaves ht

theorem addBlock (hb : b.Sound p) (label : String) : (b.addBlock label).Sound p := by
  have hsub : (b.scope p).Sub ((b.addBlock label).scope p) :=
    (Framed.addBlock b label).sub (Nat.le_refl _)
  constructor
  · rw [dests_addBlock]
    exact hb.distinct
  · rw [dests_addBlock]
    exact hb.fresh
  · intro k hk op hop
    rcases List.mem_append.mp hk with hk | hk
    · exact hsub.accepts (hb.ops k hk op hop)
    · rw [List.mem_singleton.mp hk] at hop
      cases hop
  · intro k hk t ht
    rcases List.mem_append.mp hk with hk | hk
    · exact hsub.leaves (hb.ends k hk t ht)
    · rw [List.mem_singleton.mp hk] at ht
      cases ht

theorem withSlot (hb : b.Sound p) (name : String) : (b.withSlot name).Sound p := by
  have hsub : (b.scope p).Sub ((b.withSlot name).scope p) :=
    (Framed.withSlot b name).sub (Nat.le_refl _)
  constructor
  · rw [dests_withSlot]
    exact hb.distinct
  · rw [dests_withSlot, withSlot_nextInst]
    exact hb.fresh
  · rw [withSlot_blocks]
    exact fun k hk op hop => hsub.accepts (hb.ops k hk op hop)
  · rw [withSlot_blocks]
    exact fun k hk t ht => hsub.leaves (hb.ends k hk t ht)

theorem movedTo (hb : b.Sound p) (target : BlockId) : { b with cursor := target }.Sound p :=
  ⟨hb.distinct, hb.fresh, hb.ops, hb.ends⟩

/-- A sound function in which no block is open is verified. -/
theorem verified (hb : b.Sound p) (hclosed : ∀ i, ¬ b.OpenAt i) : b.finish.Verified p := by
  refine ⟨hb.distinct, fun k hk op hop => (hb.ops k hk op hop).1,
    fun k hk op hop => (hb.ops k hk op hop).2, fun k hk => ?_⟩
  cases ht : k.terminator with
  | some t => exact ⟨t, rfl, hb.ends k hk t ht⟩
  | none =>
    obtain ⟨i, hi⟩ := List.mem_iff_getElem?.mp hk
    exact absurd ⟨k, hi, ht⟩ (hclosed i)

/-- An operation with a fresh result, which is admitted from then on. -/
theorem define (hb : b.Sound p) (hopen : b.IsOpen) {op : Op} (hdest : op.dest = some ⟨b.nextInst⟩)
    (hop : (b.scope p).Accepts op) (ty : Ty) :
    (b.emitted [op]).Sound p ∧ ((b.emitted [op]).scope p).Has (.inst ⟨b.nextInst⟩ ty) ty := by
  refine ⟨hb.emitted hopen (fun id hid => ?_) hop, ?_, rfl⟩
  · rw [hdest] at hid
    cases hid
    rfl
  · refine (dests_emitted hopen.hasCursor [op]).mem_iff.mpr (List.mem_append_right _ ?_)
    simp [hdest]

end Sound

end Builder

/-! ## Steps of building -/

namespace Build

open Builder

variable {p : Program} {b b' : Builder} {v w : Value} {u : Unit}

theorem toInt_sound (hb : b.Sound p) (hv : (b.scope p).Admits v) (h : toInt v b = .ok w b') :
    b'.Sound p ∧ (b'.scope p).Has w .i32 := by
  rcases toInt_eq_ok.mp h with ⟨hty, rfl, rfl⟩ | ⟨-, hopen, rfl, rfl⟩
  · exact ⟨hb, hv, hty⟩
  · have hop : (b.scope p).Accepts (.zext ⟨b.nextInst⟩ v) := ⟨by simpa [Op.operands], trivial⟩
    exact hb.define hopen rfl hop _

theorem toBool_sound (hb : b.Sound p) (hv : (b.scope p).Admits v) (h : toBool v b = .ok w b') :
    b'.Sound p ∧ (b'.scope p).Has w .i1 := by
  rcases toBool_eq_ok.mp h with ⟨hty, rfl, rfl⟩ | ⟨-, hopen, rfl, rfl⟩
  · exact ⟨hb, hv, hty⟩
  · have hop : (b.scope p).Accepts (.icmp ⟨b.nextInst⟩ .ne (.int 0) v) :=
      ⟨by simpa [Op.operands, Value.int, Function.Scope.Admits], trivial⟩
    exact hb.define hopen rfl hop _

theorem read_sound {name : String} (hb : b.Sound p) (h : read name b = .ok v b') :
    b'.Sound p ∧ (b'.scope p).Has v .i32 := by
  rcases read_eq_ok.mp h with ⟨hparam, rfl⟩ | ⟨-, slot, hslot, hopen, rfl, rfl⟩
  · obtain ⟨i, hi, rfl⟩ := Builder.param?_lt hparam
    exact ⟨hb, hi, rfl⟩
  · have hop : (b.scope p).Accepts (.load ⟨b.nextInst⟩ slot) :=
      ⟨by simp [Op.operands], Builder.slot?_lt hslot⟩
    exact hb.define hopen rfl hop _

theorem binary_sound {op : BinaryOp} {lhs rhs : Value} {ty : Ty} (hb : b.Sound p)
    (hl : (b.scope p).Has lhs ty) (hr : (b.scope p).Has rhs ty)
    (h : binary op lhs rhs b = .ok v b') : b'.Sound p ∧ (b'.scope p).Has v ty := by
  obtain ⟨hopen, rfl, rfl⟩ := binary_eq_ok.mp h
  have hop : (b.scope p).Accepts (.binary ⟨b.nextInst⟩ op ty lhs rhs) :=
    ⟨by simpa [Op.operands] using ⟨hl.1, hr.1⟩, hl.2, hr.2⟩
  rw [hl.2]
  exact hb.define hopen rfl hop _

theorem neg_sound {operand : Value} (hb : b.Sound p) (hv : (b.scope p).Admits operand)
    (h : neg operand b = .ok v b') : b'.Sound p ∧ (b'.scope p).Has v .i32 := by
  obtain ⟨hopen, rfl, rfl⟩ := neg_eq_ok.mp h
  have hop : (b.scope p).Accepts (.neg ⟨b.nextInst⟩ operand) := ⟨by simpa [Op.operands], trivial⟩
  exact hb.define hopen rfl hop _

theorem icmp_sound {pred : Predicate} {lhs rhs : Value} (hb : b.Sound p)
    (hl : (b.scope p).Admits lhs) (hr : (b.scope p).Admits rhs)
    (h : icmp pred lhs rhs b = .ok v b') : b'.Sound p ∧ (b'.scope p).Has v .i1 := by
  obtain ⟨hopen, rfl, rfl⟩ := icmp_eq_ok.mp h
  have hop : (b.scope p).Accepts (.icmp ⟨b.nextInst⟩ pred lhs rhs) :=
    ⟨by simpa [Op.operands] using ⟨hl, hr⟩, trivial⟩
  exact hb.define hopen rfl hop _

theorem call_sound {callee : FunctionId} {args : List Value} (hb : b.Sound p)
    (hcallee : callee.val < p.size) (hargs : ∀ a ∈ args, (b.scope p).Admits a)
    (h : call callee args b = .ok v b') : b'.Sound p ∧ (b'.scope p).Has v .i32 := by
  obtain ⟨hopen, rfl, rfl⟩ := call_eq_ok.mp h
  have hop : (b.scope p).Accepts (.call ⟨b.nextInst⟩ callee args) := ⟨hargs, hcallee⟩
  exact hb.define hopen rfl hop _

theorem write_sound {name : String} (hb : b.Sound p) (hv : (b.scope p).Admits v)
    (h : write name v b = .ok u b') : b'.Sound p := by
  obtain ⟨w, b₁, hint, hopen, rfl⟩ := write_eq_ok.mp h
  obtain ⟨hb₁, hw⟩ := toInt_sound hb hv hint
  have hsub : (b₁.scope p).Sub ((b₁.withSlot name).scope p) :=
    (Framed.withSlot b₁ name).sub (Nat.le_refl _)
  have hop : ((b₁.withSlot name).scope p).Accepts (.store w (b₁.ensureSlot name).1) :=
    ⟨by simpa [Op.operands] using hsub.admits hw.1, ensureSlot_lt b₁ name, hw.2⟩
  exact (hb₁.withSlot name).emitted (isOpen_withSlot.mpr hopen) (fun _ h => nomatch h) hop

theorem ret_sound (hb : b.Sound p) (hv : (b.scope p).Admits v) (h : ret v b = .ok u b') :
    b'.Sound p := by
  obtain ⟨w, b₁, hint, hopen, rfl⟩ := ret_eq_ok.mp h
  obtain ⟨hb₁, hw⟩ := toInt_sound hb hv hint
  exact hb₁.close hopen hw.1

end Build

end Blockform
