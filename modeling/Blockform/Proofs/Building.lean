-- SUMMARY: The steps that build a function (`Build`): when each succeeds, and what it adds.
import Blockform.Proofs.Effects

/-!
# Steps of building

An instruction is added to an open block, or the step fails. With that settled
by one lemma for each step (`Build.load_eq_ok` and so on), what a step has added
to the block under the cursor is a list of operations (`Builder.emitted`), and
no proof about lowering opens the steps again.
-/

namespace Blockform

/-! ## Open blocks -/

namespace Builder

/-- There is a block of the number, and it has no terminator yet. -/
def OpenAt (b : Builder) (i : Nat) : Prop := ∃ k, b.blocks[i]? = some k ∧ k.terminator = none

/-- The block under the cursor takes instructions. -/
def IsOpen (b : Builder) : Prop := b.OpenAt b.cursor.val

/-- There is a block under the cursor. -/
def HasCursor (b : Builder) : Prop := b.cursor.val < b.blocks.length

/-- Add operations to the block under the cursor, and use up the numbers of
    their results. -/
def emitted (b : Builder) (ops : List Op) : Builder :=
  { b with
    blocks := b.blocks.modify b.cursor.val fun k => { k with ops := k.ops ++ ops }
    nextInst := b.nextInst + (ops.filterMap Op.dest).length }

/-- Create the slot of a variable if there is none. -/
def withSlot (b : Builder) (name : String) : Builder := (b.ensureSlot name).2

variable {b : Builder} {i : Nat}

theorem OpenAt.lt (h : b.OpenAt i) : i < b.blocks.length := by
  obtain ⟨k, hk, -⟩ := h
  exact (List.getElem?_eq_some_iff.mp hk).1

theorem IsOpen.hasCursor (h : b.IsOpen) : b.HasCursor := h.lt

@[simp] theorem emitted_nil : b.emitted [] = b := by
  have h : (fun k : Block => { k with ops := k.ops ++ [] }) = id := by
    funext k
    simp
  simp only [emitted, h, List.modify_id]
  rfl

@[simp] theorem emitted_emitted (xs ys : List Op) :
    (b.emitted xs).emitted ys = b.emitted (xs ++ ys) := by
  simp [emitted, List.modify_modify_eq, Function.comp_def, Nat.add_assoc]

theorem push_eq_emitted {op : Op} (h : op.dest = none) : b.push op = b.emitted [op] := by
  simp [push, emitted, h]

theorem push_fresh_eq_emitted {op : Op} {id : InstId} (h : op.dest = some id) :
    { b with nextInst := b.nextInst + 1 }.push op = b.emitted [op] := by
  simp [push, emitted, h]

theorem current?_of_open (h : b.IsOpen) :
    ∃ k, b.current? = some k ∧ k.isTerminated = false := by
  obtain ⟨k, hk, ht⟩ := h
  exact ⟨k, hk, by simp [Block.isTerminated, ht]⟩

theorem current?_of_closed (hc : b.HasCursor) (h : ¬ b.IsOpen) :
    ∃ k, b.current? = some k ∧ k.isTerminated = true := by
  have hk : b.current? = some b.blocks[b.cursor.val] := List.getElem?_eq_getElem hc
  refine ⟨_, hk, ?_⟩
  cases ht : b.blocks[b.cursor.val].terminator with
  | some t => simp [Block.isTerminated, ht]
  | none => exact absurd ⟨_, hk, ht⟩ h

-- What each change does to the blocks that are open.

theorem openAt_emitted {ops : List Op} : (b.emitted ops).OpenAt i ↔ b.OpenAt i := by
  unfold OpenAt emitted
  rw [List.getElem?_modify]
  cases b.blocks[i]? with
  | none => simp
  | some k => by_cases h : b.cursor.val = i <;> simp [h]

theorem openAt_close {t : Terminator} :
    (b.close t).OpenAt i ↔ b.OpenAt i ∧ i ≠ b.cursor.val := by
  unfold OpenAt close
  rw [List.getElem?_modify]
  cases b.blocks[i]? with
  | none => simp
  | some k =>
    by_cases h : b.cursor.val = i
    · simp [h]
    · simp [h, Ne.symm h]

theorem openAt_addBlock {label : String} :
    (b.addBlock label).OpenAt i ↔ b.OpenAt i ∨ i = b.blocks.length := by
  unfold OpenAt addBlock
  rcases Nat.lt_trichotomy i b.blocks.length with h | h | h
  · simp [List.getElem?_append_left h, Nat.ne_of_lt h]
  · subst h
    simp
  · have hold : b.blocks[i]? = none := List.getElem?_eq_none (Nat.le_of_lt h)
    have hnew : (b.blocks ++ [{ label := b.freshLabel label }])[i]? = none :=
      List.getElem?_eq_none (by simp; omega)
    simp [hold, hnew, Nat.ne_of_gt h]

@[simp] theorem openAt_withSlot {name : String} : (b.withSlot name).OpenAt i ↔ b.OpenAt i := by
  unfold withSlot ensureSlot OpenAt
  cases b.slot? name <;> rfl

@[simp] theorem isOpen_withSlot {name : String} : (b.withSlot name).IsOpen ↔ b.IsOpen := by
  have hcursor : (b.withSlot name).cursor = b.cursor := by
    unfold withSlot ensureSlot
    cases b.slot? name <;> rfl
  rw [IsOpen, hcursor, openAt_withSlot]
  exact Iff.rfl

@[simp] theorem isOpen_emitted {ops : List Op} : (b.emitted ops).IsOpen ↔ b.IsOpen :=
  openAt_emitted

theorem IsOpen.addBlock (h : b.IsOpen) (label : String) : (b.addBlock label).IsOpen :=
  openAt_addBlock.mpr (.inl h)

end Builder

/-! ## Steps -/

namespace Build

open Effect

variable {b b' : Builder} {u : Unit} {v w : Value}

theorem current_of_some {k : Block} (hk : b.current? = some k) : current b = .ok k b := by
  have hget : (get : Build Builder) b = .ok b b := rfl
  unfold current
  rw [bind_of_ok hget, hk]
  rfl

theorem current_of_none (hk : b.current? = none) : current b = .error .noEntry b := by
  have hget : (get : Build Builder) b = .ok b b := rfl
  unfold current
  rw [bind_of_ok hget, hk]
  rfl

theorem whenOpen_of_open (h : b.IsOpen) (change : Builder → Builder) :
    whenOpen change b = .ok () (change b) := by
  obtain ⟨k, hk, ht⟩ := Builder.current?_of_open h
  unfold whenOpen
  rw [bind_of_ok (current_of_some hk)]
  simp only [ht, Bool.false_eq_true, if_false]
  rfl

theorem whenOpen_eq_ok {change : Builder → Builder} :
    whenOpen change b = .ok u b' ↔ b.IsOpen ∧ b' = change b := by
  constructor
  · intro h
    have hopen : b.IsOpen := by
      unfold whenOpen at h
      cases hk : b.current? with
      | none =>
        rw [bind_of_error (current_of_none hk)] at h
        cases h
      | some k =>
        rw [bind_of_ok (current_of_some hk)] at h
        cases ht : k.terminator with
        | none => exact ⟨k, hk, ht⟩
        | some t =>
          simp only [Block.isTerminated, ht, Option.isSome_some, if_true] at h
          cases h
    rw [whenOpen_of_open hopen] at h
    cases h
    exact ⟨hopen, rfl⟩
  · rintro ⟨hopen, rfl⟩
    exact whenOpen_of_open hopen change

theorem emit_of_open (h : b.IsOpen) (op : Op) : emit op b = .ok () (b.push op) :=
  whenOpen_of_open h _

theorem emit_eq_ok {op : Op} : emit op b = .ok u b' ↔ b.IsOpen ∧ b' = b.push op :=
  whenOpen_eq_ok

theorem terminate_of_open (h : b.IsOpen) (t : Terminator) : terminate t b = .ok () (b.close t) :=
  whenOpen_of_open h _

theorem terminate_eq_ok {t : Terminator} :
    terminate t b = .ok u b' ↔ b.IsOpen ∧ b' = b.close t :=
  whenOpen_eq_ok

theorem isTerminated_of_open (h : b.IsOpen) : isTerminated b = .ok false b := by
  obtain ⟨k, hk, ht⟩ := Builder.current?_of_open h
  unfold isTerminated
  rw [bind_of_ok (current_of_some hk), ht]
  rfl

theorem isTerminated_of_closed (hc : b.HasCursor) (h : ¬ b.IsOpen) :
    isTerminated b = .ok true b := by
  obtain ⟨k, hk, ht⟩ := Builder.current?_of_closed hc h
  unfold isTerminated
  rw [bind_of_ok (current_of_some hk), ht]
  rfl

theorem isTerminated_eq_ok {closed : Bool} :
    isTerminated b = .ok closed b' ↔
      b' = b ∧ b.HasCursor ∧ (closed = false ↔ b.IsOpen) := by
  by_cases hc : b.HasCursor
  · by_cases h : b.IsOpen
    · rw [isTerminated_of_open h]
      simp [hc, h, eq_comm, and_comm]
    · rw [isTerminated_of_closed hc h]
      simp [hc, h, eq_comm, and_comm]
  · have hk : b.current? = none := List.getElem?_eq_none (Nat.le_of_not_lt hc)
    have herror : isTerminated b = .error .noEntry b := by
      unfold isTerminated
      rw [bind_of_error (current_of_none hk)]
    rw [herror]
    simp [hc]

/-- An operation with a fresh result. -/
theorem define_of_open (h : b.IsOpen) {ty : Ty} {op : InstId → Op}
    (hop : ∀ dest, (op dest).dest = some dest) :
    define ty op b = .ok (.inst ⟨b.nextInst⟩ ty) (b.emitted [op ⟨b.nextInst⟩]) := by
  have hfresh : fresh b = .ok ⟨b.nextInst⟩ { b with nextInst := b.nextInst + 1 } := rfl
  have hopen : { b with nextInst := b.nextInst + 1 }.IsOpen := h
  unfold define
  rw [bind_of_ok hfresh, bind_of_ok (emit_of_open hopen _),
    Builder.push_fresh_eq_emitted (hop ⟨b.nextInst⟩)]
  rfl

theorem define_eq_ok {ty : Ty} {op : InstId → Op} (hop : ∀ dest, (op dest).dest = some dest) :
    define ty op b = .ok v b' ↔
      b.IsOpen ∧ v = .inst ⟨b.nextInst⟩ ty ∧ b' = b.emitted [op ⟨b.nextInst⟩] := by
  constructor
  · intro h
    have hopen : b.IsOpen := by
      unfold define at h
      obtain ⟨dest, b₁, hfresh, h⟩ := bind_eq_ok.mp h
      cases hfresh
      obtain ⟨u, b₂, hemit, -⟩ := bind_eq_ok.mp h
      exact (emit_eq_ok.mp hemit).1
    rw [define_of_open hopen hop] at h
    cases h
    exact ⟨hopen, rfl, rfl⟩
  · rintro ⟨hopen, rfl, rfl⟩
    exact define_of_open hopen hop

theorem load_eq_ok {slot : SlotId} :
    load slot b = .ok v b' ↔
      b.IsOpen ∧ v = .inst ⟨b.nextInst⟩ .i32 ∧ b' = b.emitted [.load ⟨b.nextInst⟩ slot] :=
  define_eq_ok fun _ => rfl

theorem binary_eq_ok {op : BinaryOp} {lhs rhs : Value} :
    binary op lhs rhs b = .ok v b' ↔
      b.IsOpen ∧ v = .inst ⟨b.nextInst⟩ lhs.ty ∧
        b' = b.emitted [.binary ⟨b.nextInst⟩ op lhs.ty lhs rhs] :=
  define_eq_ok fun _ => rfl

theorem neg_eq_ok {operand : Value} :
    neg operand b = .ok v b' ↔
      b.IsOpen ∧ v = .inst ⟨b.nextInst⟩ .i32 ∧ b' = b.emitted [.neg ⟨b.nextInst⟩ operand] :=
  define_eq_ok fun _ => rfl

theorem icmp_eq_ok {pred : Predicate} {lhs rhs : Value} :
    icmp pred lhs rhs b = .ok v b' ↔
      b.IsOpen ∧ v = .inst ⟨b.nextInst⟩ .i1 ∧
        b' = b.emitted [.icmp ⟨b.nextInst⟩ pred lhs rhs] :=
  define_eq_ok fun _ => rfl

theorem zext_eq_ok {operand : Value} :
    define .i32 (fun dest => .zext dest operand) b = .ok v b' ↔
      b.IsOpen ∧ v = .inst ⟨b.nextInst⟩ .i32 ∧ b' = b.emitted [.zext ⟨b.nextInst⟩ operand] :=
  define_eq_ok fun _ => rfl

theorem call_eq_ok {callee : FunctionId} {args : List Value} :
    call callee args b = .ok v b' ↔
      b.IsOpen ∧ v = .inst ⟨b.nextInst⟩ .i32 ∧
        b' = b.emitted [.call ⟨b.nextInst⟩ callee args] :=
  define_eq_ok fun _ => rfl

/-- An integer is kept, and a truth value is widened. -/
theorem toInt_eq_ok :
    toInt v b = .ok w b' ↔
      (v.ty = .i32 ∧ w = v ∧ b' = b) ∨
      (v.ty = .i1 ∧ b.IsOpen ∧ w = .inst ⟨b.nextInst⟩ .i32 ∧
        b' = b.emitted [.zext ⟨b.nextInst⟩ v]) := by
  unfold toInt
  cases hty : v.ty with
  | i32 => simp [pure_eq_ok, eq_comm]
  | i1 => simp [zext_eq_ok]

theorem toBool_eq_ok :
    toBool v b = .ok w b' ↔
      (v.ty = .i1 ∧ w = v ∧ b' = b) ∨
      (v.ty = .i32 ∧ b.IsOpen ∧ w = .inst ⟨b.nextInst⟩ .i1 ∧
        b' = b.emitted [.icmp ⟨b.nextInst⟩ .ne (.int 0) v]) := by
  unfold toBool
  cases hty : v.ty with
  | i1 => simp [pure_eq_ok, eq_comm]
  | i32 => simp [icmp_eq_ok]

/-- A name is read as an argument, or loaded from its slot. -/
theorem read_eq_ok {name : String} :
    read name b = .ok v b' ↔
      (b.param? name = some v ∧ b' = b) ∨
      (b.param? name = none ∧ ∃ slot, b.slot? name = some slot ∧ b.IsOpen ∧
        v = .inst ⟨b.nextInst⟩ .i32 ∧ b' = b.emitted [.load ⟨b.nextInst⟩ slot]) := by
  have hget : (get : Build Builder) b = .ok b b := rfl
  unfold read
  rw [bind_of_ok hget]
  cases hparam : b.param? name with
  | some arg => simp [pure_eq_ok, eq_comm]
  | none =>
    cases hslot : b.slot? name with
    | some slot => simp [load_eq_ok]
    | none =>
      simp only [reduceCtorEq, false_and, exists_false, and_false, or_self, iff_false]
      exact fun h => nomatch h

theorem read_of_unbound {name : String} (hparam : b.param? name = none)
    (hslot : b.slot? name = none) : read name b = .error (.error (.unbound name b.name)) b := by
  have hget : (get : Build Builder) b = .ok b b := rfl
  unfold read
  rw [bind_of_ok hget, hparam, hslot]
  rfl

theorem write_eq_ok {name : String} :
    write name v b = .ok u b' ↔
      ∃ w b₁, toInt v b = .ok w b₁ ∧ b₁.IsOpen ∧
        b' = (b₁.withSlot name).emitted [.store w (b₁.ensureSlot name).1] := by
  have hslot (w : Value) (b₁ : Builder) :
      ((modifyGet fun b => b.ensureSlot name) >>= fun slot =>
          emit (.store w slot) : Build Unit) b₁ =
        emit (.store w (b₁.ensureSlot name).1) (b₁.withSlot name) := rfl
  unfold write
  rw [bind_eq_ok]
  refine exists₂_congr fun w b₁ => and_congr_right fun _ => ?_
  rw [hslot, emit_eq_ok, Builder.push_eq_emitted rfl]
  exact and_congr_left fun _ => Builder.isOpen_withSlot

theorem ret_eq_ok :
    ret v b = .ok u b' ↔
      ∃ w b₁, toInt v b = .ok w b₁ ∧ b₁.IsOpen ∧ b' = b₁.close (.ret w) := by
  unfold ret
  rw [bind_eq_ok]
  exact exists₂_congr fun w b₁ => and_congr_right fun _ => terminate_eq_ok

end Build

end Blockform
