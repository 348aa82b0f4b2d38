-- SUMMARY: What every sequence of calls on a function under construction keeps, whichever of them succeed (`Builder.Continues`).
import Blockform.Proofs.Framing
import Mathlib.Data.List.Nodup

/-!
# Permanence

Lowering makes the calls of building in an order of its own. Here they come in
any order (`Builder.Call`): the cursor jumps among open and closed blocks, raw
operations are added beside built ones, and a call that has failed half way is
followed by others. One call leaves a function that continues the one before it
(`Builder.Continues`), so all of them do, and what was built stays: closed
blocks, the numbers of blocks, the slots of variables, the meaning of parameters,
and the numbers of results, none of which is handed out twice.
-/

namespace Blockform

open Effect

/-! ## Continuation -/

namespace Builder

/-- A function under construction after some calls, whichever of them have
    succeeded. -/
structure Continues (b b' : Builder) : Prop extends Grows b b' where
  distinct : (b.slots.map Slot.name).Nodup → (b'.slots.map Slot.name).Nodup

variable {b b' b'' : Builder}

instance : Std.Refl Continues where
  refl b := ⟨.refl b, id⟩

instance : Trans Continues Continues Continues where
  trans h h' := ⟨h.toGrows.trans h'.toGrows, h'.distinct ∘ h.distinct⟩

theorem Grows.continues (h : b.Grows b') (hslots : b'.slots = b.slots) : b.Continues b' :=
  ⟨h, fun hdistinct => hslots ▸ hdistinct⟩

theorem slot?_eq_none {name : String} : b.slot? name = none ↔ name ∉ b.slots.map Slot.name := by
  simp [slot?_eq]

theorem Continues.withSlot (b : Builder) (name : String) : b.Continues (b.withSlot name) := by
  refine ⟨(Framed.withSlot b name).toGrows, fun hdistinct => ?_⟩
  unfold Builder.withSlot ensureSlot
  cases hslot : b.slot? name with
  | some slot => exact hdistinct
  | none =>
    have hnew := slot?_eq_none.mp hslot
    rw [addSlot_slots, List.map_append, List.nodup_append]
    refine ⟨hdistinct, by simp, fun x hx y hy heq => hnew ?_⟩
    rw [List.map_singleton, List.mem_singleton] at hy
    rwa [heq, hy] at hx

/-- Where no two slots have a name in common, a variable has the slot that bears
    its name. -/
theorem slot?_eq_some (h : (b.slots.map Slot.name).Nodup) {name : String} {slot : SlotId} :
    b.slot? name = some slot ↔ ∃ s, b.slots[slot.val]? = some s ∧ s.name = name := by
  rw [slot?_eq]
  constructor
  · intro hslot
    obtain ⟨i, hi, rfl⟩ := Option.map_eq_some_iff.mp hslot
    obtain ⟨hlt, hname, -⟩ := List.findIdx?_eq_some_iff_getElem.mp hi
    exact ⟨b.slots[i], List.getElem?_eq_getElem hlt, of_decide_eq_true hname⟩
  · rintro ⟨s, hs, rfl⟩
    obtain ⟨hlt, rfl⟩ := List.getElem?_eq_some_iff.mp hs
    refine Option.map_eq_some_iff.mpr ⟨slot.val, ?_, rfl⟩
    refine List.findIdx?_eq_some_iff_getElem.mpr ⟨hlt, by simp, fun j hj => ?_⟩
    have hlt' : j < b.slots.length := Nat.lt_trans hj hlt
    have hne : b.slots[j].name ≠ b.slots[slot.val].name := by
      intro heq
      have hnames : (b.slots.map Slot.name)[j]? = (b.slots.map Slot.name)[slot.val]? := by
        simp [hlt, hlt', heq]
      have hj' : j < (b.slots.map Slot.name).length := by simpa
      exact Nat.ne_of_lt hj ((List.getElem?_inj hj' h).mp hnames)
    simpa using hne

end Builder

/-! ## Steps -/

namespace Build

open Builder

variable {R : Builder → Builder → Prop} [Std.Refl R] {b b' : Builder} {v w : Value}

/-- An instruction that is refused changes nothing. -/
theorem whenOpen_of_not_open (h : ¬ b.IsOpen) (change : Builder → Builder) :
    after (whenOpen change) b = b := by
  unfold whenOpen
  cases hk : b.current? with
  | none => exact after_of_error (bind_of_error (current_of_none hk))
  | some k =>
    have hclosed : k.isTerminated = true := by
      cases ht : k.terminator with
      | none => exact absurd ⟨k, hk, ht⟩ h
      | some t => simp [Block.isTerminated, ht]
    refine after_of_error (e := .error (.closed k.label b.name)) ?_
    rw [bind_of_ok (current_of_some hk)]
    simp only [hclosed, if_true]
    rfl

theorem whenOpen_obeys {change : Builder → Builder} (h : ∀ b, b.IsOpen → R b (change b)) :
    Obeys R (whenOpen change) := by
  intro b
  by_cases hopen : b.IsOpen
  · rw [after_of_ok (whenOpen_of_open hopen change)]
    exact h b hopen
  · rw [whenOpen_of_not_open hopen]
    exact Std.Refl.refl b

/-- The relation holds across what adding an operation with a result does to a function. -/
structure ValueRules (R : Builder → Builder → Prop) : Prop where
  push : ∀ {b : Builder}, b.IsOpen → ∀ op, R b (b.push op)
  fresh : ∀ b : Builder, R b { b with nextInst := b.nextInst + 1 }

/-- The relation holds across every change that building makes to a function, but
    for the blocks that are added. -/
structure Rules (R : Builder → Builder → Prop) : Prop extends ValueRules R where
  close : ∀ {b : Builder}, b.IsOpen → ∀ t, R b (b.close t)
  withSlot : ∀ (b : Builder) (name : String), R b (b.withSlot name)
  moveTo : ∀ (b : Builder) (target : BlockId), R b { b with cursor := target }

theorem isTerminated_obeys [Trans R R R] : Obeys R isTerminated := by
  have hcurrent : Obeys R current := by
    intro b
    cases hk : b.current? with
    | none =>
      rw [after_of_error (current_of_none hk)]
      exact Std.Refl.refl b
    | some k =>
      rw [after_of_ok (current_of_some hk)]
      exact Std.Refl.refl b
  exact hcurrent.bind fun k => .pure k.isTerminated

namespace ValueRules

variable [Trans R R R] (h : ValueRules R)
include h

omit [Trans R R R] in
theorem emit (op : Op) : Obeys R (Build.emit op) := whenOpen_obeys fun _ hopen => h.push hopen op

theorem define (ty : Ty) (op : InstId → Op) : Obeys R (Build.define ty op) := by
  have hfresh : Obeys R Build.fresh := h.fresh
  exact hfresh.bind fun _ => (h.emit _).bind fun _ => .pure _

theorem toInt (v : Value) : Obeys R (Build.toInt v) := by
  unfold Build.toInt
  cases v.ty with
  | i32 => exact .pure v
  | i1 => exact h.define _ _

theorem toBool (v : Value) : Obeys R (Build.toBool v) := by
  unfold Build.toBool
  cases v.ty with
  | i32 => exact h.define _ _
  | i1 => exact .pure v

theorem read (name : String) : Obeys R (Build.read name) := by
  have hget : Obeys R (get : Build Builder) := fun b => Std.Refl.refl b
  refine hget.bind fun b => ?_
  cases b.param? name with
  | some v => exact .pure v
  | none =>
    cases b.slot? name with
    | some slot => exact h.define _ _
    | none => exact .throw _

end ValueRules

namespace Rules

variable [Trans R R R] (h : Rules R)
include h

omit [Trans R R R] in
theorem terminate (t : Terminator) : Obeys R (Build.terminate t) :=
  whenOpen_obeys fun _ hopen => h.close hopen t

theorem write (name : String) (v : Value) : Obeys R (Build.write name v) := by
  have hslot : Obeys R (modifyGet fun b => b.ensureSlot name : Build SlotId) :=
    fun b => h.withSlot b name
  exact (h.toInt v).bind fun _ => hslot.bind fun slot => h.emit _

theorem ret (v : Value) : Obeys R (Build.ret v) := (h.toInt v).bind fun _ => h.terminate _

end Rules

theorem continues_rules : Rules Continues where
  push hopen op := by
    refine Grows.continues (Framed.modify hopen (fun k ht => ?_) (Nat.le_refl _)).toGrows rfl
    exact ⟨rfl, List.prefix_append _ _, fun hne => absurd ht hne⟩
  close hopen t := (Framed.close hopen t).toGrows.continues rfl
  fresh b := Grows.continues { Grows.refl b with nextInst := Nat.le_succ _ } rfl
  withSlot := .withSlot
  moveTo b target := Grows.continues { Grows.refl b with } rfl

theorem newBlock_continues (label : String) : Obeys Continues (newBlock label) :=
  fun b => (Framed.addBlock b label).toGrows.continues rfl

end Build

/-! ## Calls -/

/-- A call on a function under construction. -/
inductive Builder.Call where
  | newBlock (label : String)
  | moveTo (block : BlockId)
  | read (name : String)
  | write (name : String) (value : Value)
  | load (slot : SlotId)
  | binary (op : BinaryOp) (lhs rhs : Value)
  | neg (operand : Value)
  | icmp (pred : Predicate) (lhs rhs : Value)
  | call (callee : FunctionId) (args : List Value)
  | toInt (value : Value)
  | toBool (value : Value)
  | ret (value : Value)
  | br (target : BlockId)
  | condBr (cond : Value) (thenBlock elseBlock : BlockId)
  | emit (op : Op)
  | terminate (t : Terminator)

namespace Builder

/-- The step of building that makes the call, with the value that it answers. -/
def Call.step : Call → Build (Option Value)
  | .newBlock label => do let _ ← Build.newBlock label; return none
  | .moveTo block => do Build.moveTo block; return none
  | .read name => some <$> Build.read name
  | .write name value => do Build.write name value; return none
  | .load slot => some <$> Build.load slot
  | .binary op lhs rhs => some <$> Build.binary op lhs rhs
  | .neg operand => some <$> Build.neg operand
  | .icmp pred lhs rhs => some <$> Build.icmp pred lhs rhs
  | .call callee args => some <$> Build.call callee args
  | .toInt value => some <$> Build.toInt value
  | .toBool value => some <$> Build.toBool value
  | .ret value => do Build.ret value; return none
  | .br target => do Build.br target; return none
  | .condBr cond thenBlock elseBlock => do Build.condBr cond thenBlock elseBlock; return none
  | .emit op => do Build.emit op; return none
  | .terminate t => do Build.terminate t; return none

/-- The value that the call converts. One that needs no conversion is given back
    as it is. -/
def Call.converted : Call → Option Value
  | .toInt value | .toBool value => some value
  | _ => none

/-- The result that a call which succeeds hands out: the one that it answers,
    unless it gives back the value it was to convert. -/
def handedOut (b : Builder) (c : Call) : Option InstId :=
  match c.step b with
  | .ok (some (.inst id ty)) _ => if c.converted = some (.inst id ty) then none else some id
  | _ => none

/-- The function after calls, of which each may succeed or fail. -/
def afterAll (b : Builder) (calls : List Call) : Builder :=
  calls.foldl (fun b c => after c.step b) b

/-- The results that calls hand out, in order. -/
def allHandedOut (b : Builder) : List Call → List InstId
  | [] => []
  | c :: calls => (b.handedOut c).toList ++ (after c.step b).allHandedOut calls

/-- A relation holds across a call if it holds across the changes that building makes. -/
theorem Call.obeys {R : Builder → Builder → Prop} [Std.Refl R] [Trans R R R] (h : Build.Rules R)
    (c : Call) (hnew : ∀ label, c = .newBlock label → Obeys R (Build.newBlock label)) :
    Obeys R c.step := by
  have hmap {x : Build Value} (hx : Obeys R x) : Obeys R (some <$> x) := hx.bind fun _ => .pure _
  cases c with
  | newBlock label => exact (hnew label rfl).bind fun _ => .pure _
  | moveTo block =>
    have hmove : Obeys R (Build.moveTo block) := fun b => h.moveTo b block
    exact hmove.bind fun _ => .pure _
  | read name => exact hmap (h.read name)
  | write name value => exact (h.write name value).bind fun _ => .pure _
  | load slot => exact hmap (h.define _ _)
  | binary op lhs rhs => exact hmap (h.define _ _)
  | neg operand => exact hmap (h.define _ _)
  | icmp pred lhs rhs => exact hmap (h.define _ _)
  | call callee args => exact hmap (h.define _ _)
  | toInt value => exact hmap (h.toInt value)
  | toBool value => exact hmap (h.toBool value)
  | ret value => exact (h.ret value).bind fun _ => .pure _
  | br target => exact (h.terminate _).bind fun _ => .pure _
  | condBr cond thenBlock elseBlock => exact (h.terminate _).bind fun _ => .pure _
  | emit op => exact (h.emit op).bind fun _ => .pure _
  | terminate t => exact (h.terminate t).bind fun _ => .pure _

theorem Call.continues (c : Call) : Obeys Continues c.step :=
  c.obeys Build.continues_rules fun label _ => Build.newBlock_continues label

theorem afterAll_continues (b : Builder) (calls : List Call) : b.Continues (b.afterAll calls) := by
  induction calls generalizing b with
  | nil => exact Std.Refl.refl b
  | cons c calls ih => exact Trans.trans (c.continues b) (ih (after c.step b))

/-! ## Results -/

variable {b b' : Builder} {c : Call} {id : InstId} {v w : Value}

/-- The value is a result with the next number, which is used up. -/
def Numbers (b b' : Builder) (v : Value) : Prop :=
  ∃ ty, v = .inst ⟨b.nextInst⟩ ty ∧ b'.nextInst = b.nextInst + 1

theorem numbers_of_define {ty : Ty} {op : InstId → Op}
    (hop : ∀ dest, (op dest).dest = some dest) (h : Build.define ty op b = .ok v b') :
    Numbers b b' v := by
  obtain ⟨-, rfl, rfl⟩ := (Build.define_eq_ok hop).mp h
  exact ⟨ty, rfl, by simp [emitted, hop]⟩

theorem toInt_numbers (h : Build.toInt v b = .ok w b') : w = v ∨ Numbers b b' w := by
  obtain ⟨-, heq, -⟩ | ⟨-, -, rfl, rfl⟩ := Build.toInt_eq_ok.mp h
  · exact .inl heq
  · exact .inr ⟨_, rfl, by simp [emitted, Op.dest]⟩

theorem toBool_numbers (h : Build.toBool v b = .ok w b') : w = v ∨ Numbers b b' w := by
  obtain ⟨-, heq, -⟩ | ⟨-, -, rfl, rfl⟩ := Build.toBool_eq_ok.mp h
  · exact .inl heq
  · exact .inr ⟨_, rfl, by simp [emitted, Op.dest]⟩

theorem read_numbers {name : String} (h : Build.read name b = .ok v b') :
    (∃ i, v = .param i) ∨ Numbers b b' v := by
  obtain ⟨hparam, -⟩ | ⟨-, slot, -, -, rfl, rfl⟩ := Build.read_eq_ok.mp h
  · obtain ⟨i, -, heq⟩ := Builder.param?_lt hparam
    exact .inl ⟨i, heq⟩
  · exact .inr ⟨_, rfl, by simp [emitted, Op.dest]⟩

theorem handedOut_eq_some :
    b.handedOut c = some id ↔
      ∃ ty b', c.step b = .ok (some (.inst id ty)) b' ∧ c.converted ≠ some (.inst id ty) := by
  unfold handedOut
  cases h : c.step b with
  | error e b' => simp
  | ok answer b' =>
    cases answer with
    | none => simp
    | some v =>
      cases v with
      | inst id' ty =>
        by_cases hconverted : c.converted = some (.inst id' ty)
        · simp only [hconverted, if_true]
          refine iff_of_false (fun hout => nomatch hout) ?_
          rintro ⟨ty', b₁, heq, hnew⟩
          cases heq
          exact hnew rfl
        · simp only [hconverted, if_false]
          constructor
          · rintro ⟨⟩
            exact ⟨ty, b', rfl, hconverted⟩
          · rintro ⟨ty', b₁, heq, -⟩
            cases heq
            rfl
      | _ => simp

/-- A call hands out the next number, and the one after that is next. -/
theorem handedOut_numbers (h : b.handedOut c = some id) :
    id = ⟨b.nextInst⟩ ∧ (after c.step b).nextInst = b.nextInst + 1 := by
  obtain ⟨ty, b', hstep, hnew⟩ := handedOut_eq_some.mp h
  rw [after_of_ok hstep]
  have hsome {x : Build Value} (h : (some <$> x) b = .ok (some (.inst id ty)) b') :
      x b = .ok (.inst id ty) b' := by
    obtain ⟨v, b₁, hx, hv⟩ := bind_eq_ok.mp h
    cases hv
    exact hx
  have hnone {x : Build Unit}
      (h : (do x; return none : Build (Option Value)) b = .ok (some (.inst id ty)) b') :
      Numbers b b' (.inst id ty) := by
    obtain ⟨u, b₁, -, hv⟩ := bind_eq_ok.mp h
    cases hv
  have hnumbers : Numbers b b' (.inst id ty) := by
    cases c with
    | newBlock label =>
      obtain ⟨u, b₁, -, hv⟩ := bind_eq_ok.mp hstep
      cases hv
    | read name =>
      exact (read_numbers (hsome hstep)).resolve_left fun ⟨i, heq⟩ => nomatch heq
    | load slot => exact numbers_of_define (fun _ => rfl) (hsome hstep)
    | binary op lhs rhs => exact numbers_of_define (fun _ => rfl) (hsome hstep)
    | neg operand => exact numbers_of_define (fun _ => rfl) (hsome hstep)
    | icmp pred lhs rhs => exact numbers_of_define (fun _ => rfl) (hsome hstep)
    | call callee args => exact numbers_of_define (fun _ => rfl) (hsome hstep)
    | toInt value =>
      exact (toInt_numbers (hsome hstep)).resolve_left fun heq => hnew (congrArg some heq.symm)
    | toBool value =>
      exact (toBool_numbers (hsome hstep)).resolve_left fun heq => hnew (congrArg some heq.symm)
    | moveTo _ | write _ _ | ret _ | br _ | condBr _ _ _ | emit _ | terminate _ =>
      exact hnone hstep
  obtain ⟨ty', heq, hnext⟩ := hnumbers
  cases heq
  exact ⟨rfl, hnext⟩

/-- Calls hand out no number that is below the next one. -/
theorem nextInst_le_of_mem_allHandedOut {calls : List Call} (h : id ∈ b.allHandedOut calls) :
    b.nextInst ≤ id.val := by
  induction calls generalizing b with
  | nil => cases h
  | cons c calls ih =>
    rcases List.mem_append.mp h with h | h
    · obtain ⟨rfl, -⟩ := handedOut_numbers (Option.mem_toList.mp h)
      exact Nat.le_refl _
    · exact Nat.le_trans (c.continues b).nextInst (ih h)

theorem allHandedOut_nodup (b : Builder) (calls : List Call) : (b.allHandedOut calls).Nodup := by
  induction calls generalizing b with
  | nil => exact List.nodup_nil
  | cons c calls ih =>
    unfold allHandedOut
    cases hout : b.handedOut c with
    | none => exact ih _
    | some id =>
      obtain ⟨rfl, hnext⟩ := handedOut_numbers hout
      refine List.nodup_cons.mpr ⟨fun hmem => ?_, ih _⟩
      have hle := nextInst_le_of_mem_allHandedOut hmem
      rw [hnext] at hle
      exact absurd hle (Nat.not_succ_le_self _)

/-! ## All calls -/

/-- A parameter is read as the first of its name. -/
theorem read_param {name : String} (h : name ∈ b.params) :
    Build.read name b = .ok (.param (b.params.idxOf name)) b := by
  have hfirst : b.params.findIdx? (· = name) = some (b.params.idxOf name) := by
    rw [List.findIdx?_eq_some_of_exists ⟨name, h, by simp⟩]
    rfl
  exact Build.read_eq_ok.mpr (.inl ⟨by rw [param?_eq, hfirst]; rfl, rfl⟩)

/-- Calls in any order, of which each may fail, leave what earlier ones have
    built: a block stays where it is, with its label and its operations, and
    altogether as it is once it has been closed. No two slots have one name, no
    result is handed out twice, and a parameter reads as its first argument. -/
theorem built_for_good (name : String) (params : List String) (before later : List Call) :
    let b := (start name params).afterAll before
    (∀ (i : Nat) (k : Block), b.blocks[i]? = some k →
      ∃ k', (b.afterAll later).blocks[i]? = some k' ∧ k'.label = k.label ∧ k.ops <+: k'.ops ∧
        (k.terminator ≠ none → k' = k)) ∧
    (b.slots.map Slot.name).Nodup ∧
    (∀ v slot, b.slot? v = some slot ↔ ∃ s, b.slots[slot.val]? = some s ∧ s.name = v) ∧
    ((start name params).allHandedOut before).Nodup ∧
    (∀ p ∈ params, Build.read p b = .ok (.param (params.idxOf p)) b) := by
  intro b
  have hstart := afterAll_continues (start name params) before
  have hslots : (b.slots.map Slot.name).Nodup := hstart.distinct List.nodup_nil
  refine ⟨fun i k hk => ?_, hslots, fun v slot => slot?_eq_some hslots,
    allHandedOut_nodup _ before, fun p hp => ?_⟩
  · obtain ⟨k', hk', hgrows⟩ := (afterAll_continues b later).blocks i k hk
    exact ⟨k', hk', hgrows.label, hgrows.ops, hgrows.ended⟩
  · have hparams : b.params = params := hstart.params
    have hread := read_param (b := b) (hparams ▸ hp)
    rwa [hparams] at hread

end Builder

end Blockform
