-- SUMMARY: Where a machine stands in a function while its body runs (`Machine.Stands`), and what its steps compute there.
import Blockform.Proofs.Framing
import Blockform.Proofs.Reaching
import Std.Data.TreeMap.Lemmas

/-!
# Standing in a function

A machine stands where a builder has its cursor: it is in the finished block of
the same number, and has executed just the operations that the builder has added
to it (`Machine.Stands`). Everything that the builder adds next is therefore
what the machine executes next. Slots hold the variables of the same names, as
far as the finished function has slots for them.

A result of an operation is kept until it is used, since the numbers of results
only grow (`Frame.Keeps`).
-/

namespace Blockform

/-! ## Values -/

/-- Results with smaller numbers are what they were. -/
structure Frame.Keeps (fr fr' : Frame) (next : Nat) : Prop where
  args : fr'.args = fr.args
  results : ∀ i, i < next → fr'.results[i]? = fr.results[i]?

/-- A value that stands for an integer, and was computed before the next result
    is. A truth value is zero or one. -/
structure Frame.Holds (fr : Frame) (next : Nat) (v : Value) (n : Int32) : Prop where
  eval : fr.eval v = .ok n
  below : ∀ id ty, v = .inst id ty → id.val < next
  truth : v.ty = .i1 → ∃ q, n = truth q

namespace Frame

variable {fr fr' fr'' : Frame} {next next' : Nat} {v : Value} {n : Int32}

theorem Keeps.refl (fr : Frame) (next : Nat) : fr.Keeps fr next := ⟨rfl, fun _ _ => rfl⟩

theorem Keeps.trans (h : fr.Keeps fr' next) (h' : fr'.Keeps fr'' next') (hle : next ≤ next') :
    fr.Keeps fr'' next where
  args := h'.args.trans h.args
  results i hi := (h'.results i (Nat.lt_of_lt_of_le hi hle)).trans (h.results i hi)

theorem Keeps.define (fr : Frame) (id : InstId) (n : Int32) : fr.Keeps (fr.define id n) id.val where
  args := rfl
  results i hi := by
    have hne : id.val ≠ i := Nat.ne_of_gt hi
    simp [Frame.define, Std.TreeMap.getElem?_insert, hne]

theorem eval_param {i : Nat} : fr.eval (.param i) = .ok n ↔ fr.args[i]? = some n := by
  simp only [Frame.eval]
  cases fr.args[i]? <;> simp

theorem eval_inst {id : InstId} {ty : Ty} :
    fr.eval (.inst id ty) = .ok n ↔ fr.results[id.val]? = some n := by
  simp only [Frame.eval]
  cases fr.results[id.val]? <;> simp

theorem Holds.keep (h : fr.Holds next v n) (hkeeps : fr.Keeps fr' next) (hle : next ≤ next') :
    fr'.Holds next' v n where
  eval := by
    cases v with
    | const ty c => exact h.eval
    | param i =>
      rw [eval_param, hkeeps.args]
      exact eval_param.mp h.eval
    | inst id ty =>
      rw [eval_inst, hkeeps.results id.val (h.below id ty rfl)]
      exact eval_inst.mp h.eval
  below id ty hv := Nat.lt_of_lt_of_le (h.below id ty hv) hle
  truth := h.truth

theorem holds_int (fr : Frame) (next : Nat) (n : Int64) : fr.Holds next (.int n) n.toInt32 where
  eval := rfl
  below := nofun
  truth := nofun

/-- The values of operands that all stand for integers. -/
def HoldsAll (fr : Frame) (next : Nat) : List Value → List Int32 → Prop
  | [], [] => True
  | v :: vs, n :: ns => fr.Holds next v n ∧ fr.HoldsAll next vs ns
  | _, _ => False

theorem HoldsAll.keep {vs : List Value} {ns : List Int32} (h : fr.HoldsAll next vs ns)
    (hkeeps : fr.Keeps fr' next) (hle : next ≤ next') : fr'.HoldsAll next' vs ns := by
  induction vs generalizing ns with
  | nil =>
    cases ns with
    | nil => trivial
    | cons n ns => exact h
  | cons v vs ih =>
    cases ns with
    | nil => exact h
    | cons n ns => exact ⟨h.1.keep hkeeps hle, ih h.2⟩

theorem HoldsAll.evalAll {vs : List Value} {ns : List Int32} (h : fr.HoldsAll next vs ns) :
    fr.evalAll vs = .ok ns := by
  unfold Frame.evalAll
  induction vs generalizing ns with
  | nil =>
    cases ns with
    | nil => rfl
    | cons n ns => exact h.elim
  | cons v vs ih =>
    cases ns with
    | nil => exact h.elim
    | cons n ns =>
      rw [List.mapM_cons, h.1.eval, ih h.2]
      rfl

end Frame

/-! ## Activations -/

/-- What stays the same while a body runs: the builder that it was finished
    with, the name that it is registered under, its arguments, and the frames
    that wait for it. -/
structure Activation where
  body : Builder
  name : String
  args : List Int32
  callers : List (InstId × Frame)
  active : Nat

/-- The function that runs. -/
def Activation.function (a : Activation) : Function := { a.body.finish with name := a.name }

/-- A block that nothing has been added to. -/
def Builder.Fresh (b : Builder) (i : Nat) : Prop :=
  ∃ k, b.blocks[i]? = some k ∧ k.ops = [] ∧ k.terminator = none

namespace Machine

/-- The machine stands where the builder has its cursor. -/
structure Stands (a : Activation) (σ : Store) (b : Builder) (m : Machine) : Prop where
  function : m.frame.function = a.function
  args : m.frame.args = a.args
  callers : m.callers = a.callers
  active : m.active = a.active
  printed : m.output = σ.printed
  slots : ∀ name slot, a.body.slot? name = some slot →
    m.frame.slots[slot.val]? = some (σ.vars name)
  block : a.body.blocks[b.cursor.val]? = some m.frame.block
  rest : ∃ k, b.blocks[b.cursor.val]? = some k ∧ m.frame.block.ops = k.ops ++ m.frame.rest

/-- The machine is about to return a value. -/
structure Returns (callers : List (InstId × Frame)) (active : Nat) (printed : Printed) (v : Int32)
    (m : Machine) : Prop where
  rest : m.frame.rest = []
  leaves : ∃ value, m.frame.block.terminator = some (.ret value) ∧ m.frame.eval value = .ok v
  callers : m.callers = callers
  active : m.active = active
  printed : m.output = printed

variable {p : Program} {limits : ExecOptions} {a : Activation} {σ : Store} {b b' : Builder}
  {m : Machine} {n : Int32} {v : Value} {op : Op} {t : Terminator} {bound : Nat}

namespace Stands

theorem define (h : Stands a σ b m) (id : InstId) (n : Int32) :
    Stands a σ b { m with frame := m.frame.define id n } :=
  ⟨h.function, h.args, h.callers, h.active, h.printed, h.slots, h.block, h.rest⟩

/-- Only the block under the cursor matters. -/
theorem of_eq (h : Stands a σ b m) (hcursor : b'.cursor = b.cursor)
    (hblocks : b'.blocks[b.cursor.val]? = b.blocks[b.cursor.val]?) : Stands a σ b' m where
  function := h.function
  args := h.args
  callers := h.callers
  active := h.active
  printed := h.printed
  slots := h.slots
  block := hcursor ▸ h.block
  rest := by
    rw [hcursor, hblocks]
    exact h.rest

theorem hasCursor (h : Stands a σ b m) : b.HasCursor := by
  obtain ⟨k, hk, -⟩ := h.rest
  exact (List.getElem?_eq_some_iff.mp hk).1

theorem addBlock (h : Stands a σ b m) (label : String) : Stands a σ (b.addBlock label) m :=
  h.of_eq rfl (List.getElem?_append_left h.hasCursor)

/-- What the builder adds is what the machine executes. -/
theorem fetch (h : Stands a σ b m) (limits : ExecOptions)
    (hgrows : (b.emitted [op]).Grows a.body) :
    ∃ rest, m.frame.rest = op :: rest ∧
      Stands a σ (b.emitted [op]) (m.fetched limits op rest) := by
  obtain ⟨k, hk, hops⟩ := h.rest
  have hk' : (b.emitted [op]).blocks[b.cursor.val]? = some { k with ops := k.ops ++ [op] } := by
    simp [Builder.emitted, hk]
  obtain ⟨final, hfinal, hadded⟩ := hgrows.blocks _ _ hk'
  cases h.block.symm.trans hfinal
  obtain ⟨rest, hrest⟩ := hadded.ops
  have heq : m.frame.rest = op :: rest := by
    rw [hops, List.append_assoc] at hrest
    exact (List.append_cancel_left hrest).symm
  refine ⟨rest, heq, h.function, h.args, h.callers, h.active, h.printed, h.slots, h.block, ?_⟩
  exact ⟨_, hk', hrest.symm⟩

/-- What the builder ends the block with is where the machine leaves it. -/
theorem leave (h : Stands a σ b m) (hgrows : (b.close t).Grows a.body) :
    m.frame.rest = [] ∧ m.frame.block.terminator = some t := by
  obtain ⟨k, hk, hops⟩ := h.rest
  have hk' : (b.close t).blocks[b.cursor.val]? = some { k with terminator := some t } := by
    simp [Builder.close, hk]
  obtain ⟨final, hfinal, hadded⟩ := hgrows.blocks _ _ hk'
  cases h.block.symm.trans hfinal
  have heq := hadded.ended (by simp)
  refine ⟨?_, by rw [heq]⟩
  rw [heq] at hops
  exact List.self_eq_append_right.mp hops

end Stands

/-! ## Operations -/

/-- The machine has computed a value, while the builder added what computes it. -/
structure Computed (a : Activation) (b b' : Builder) (m : Machine) (v : Value) (n : Int32)
    (σ : Store) (m' : Machine) : Prop where
  stands : Stands a σ b' m'
  holds : m'.frame.Holds b'.nextInst v n
  keeps : m.frame.Keeps m'.frame b.nextInst

/-- An operation with a result takes one step. -/
theorem Stands.compute (h : Stands a σ b m) (hgrows : (b.emitted [op]).Grows a.body)
    (hdest : op.dest = some ⟨b.nextInst⟩) (ty : Ty) (htruth : ty = .i1 → ∃ q, n = truth q)
    (hexec : ∀ rest, (m.fetched limits op rest).execute p limits op =
      (m.fetched limits op rest).goOn ((m.fetched limits op rest).frame.define ⟨b.nextInst⟩ n)) :
    GetsIn p limits 1 (Computed a b (b.emitted [op]) m (.inst ⟨b.nextInst⟩ ty) n σ) m := by
  obtain ⟨rest, hrest, hstands⟩ := h.fetch limits hgrows
  refine .step ((advance_cons hrest p limits).trans (hexec rest)) ⟨hstands.define _ _, ?_, ?_⟩
  · refine ⟨?_, ?_, htruth⟩
    · simp [Frame.eval_inst, Frame.define]
    · rintro id ty ⟨⟩
      simp [Builder.emitted, hdest]
  · have hkeeps : m.frame.Keeps (m.fetched limits op rest).frame b.nextInst := ⟨rfl, fun _ _ => rfl⟩
    exact hkeeps.trans (.define _ _ _) (Nat.le_refl _)

end Machine

end Blockform
