-- SUMMARY: Uses that come before their definitions on a path through a function (`Function.UsesEarly`); a verified program fails at no other result.
import Blockform.Lowering.Context
import Blockform.Proofs.Safety
import Blockform.Proofs.Stepping
import Std.Data.TreeMap.Lemmas

/-!
# Definedness

Verification asks that a result which is taken is defined in the function, but
not where: the operation may stand behind the one that takes its result, or in a
block that control does not come through. The machine looks again, and fails
with `ExecError.notComputed`. What it finds missing was missing on the path that
it came along (`Frame.Traced`), so it fails only where some path from the entry
comes to a use before the definition (`Function.UsesEarly`). Where no path does,
as in a function whose blocks take only what they have computed themselves
(`Block.Ordered`), every result is there.
-/

namespace Blockform

/-! ## Paths -/

/-- The block takes a value once some of its operations have been executed. -/
inductive Block.Takes (b : Block) : List Op → Value → Prop where
  | op {before after : List Op} {op : Op} {v : Value} (h : b.ops = before ++ op :: after)
    (hv : v ∈ op.operands) : Takes b before v
  | terminator {t : Terminator} {v : Value} (h : b.terminator = some t) (hv : v ∈ t.operands) :
    Takes b b.ops v

/-- Control can come to the block along a path from the entry. The operations on
    the way, those of the block left out, are listed. -/
inductive Function.Comes (f : Function) : List Op → Block → Prop where
  | entry {entry : Block} {rest : List Block} (h : f.blocks = entry :: rest) : Comes f [] entry
  | next {done : List Op} {b b' : Block} {t : Terminator} {target : BlockId} (h : Comes f done b)
    (ht : b.terminator = some t) (htarget : target ∈ t.successors)
    (hb : f.block? target = some b') : Comes f (done ++ b.ops) b'

/-- On some path from the entry, a result is taken and no operation before has
    defined it. -/
def Function.UsesEarly (f : Function) (id : InstId) : Prop :=
  ∃ done b before ty, f.Comes done b ∧ b.Takes before (.inst id ty) ∧
    ∀ op ∈ done ++ before, op.dest ≠ some id

/-! ## Order in a block -/

/-- The value is no result, or that of one of the operations. -/
def Value.isDefinedBy (ops : List Op) : Value → Bool
  | .inst id _ => ops.any (·.dest = some id)
  | .const .. | .param .. => true

namespace Block

variable {b : Block}

/-- Every result that the block takes, an operation before in the block has
    defined. -/
def Ordered (b : Block) : Prop :=
  ∀ before id ty, b.Takes before (.inst id ty) → ∃ op ∈ before, op.dest = some id

/-- The values that are taken behind so many operations. -/
def operandsAt (b : Block) (i : Nat) : List Value :=
  match b.ops[i]? with
  | some op => op.operands
  | none => b.terminator.elim [] Terminator.operands

theorem takes_iff {before : List Op} {v : Value} :
    b.Takes before v ↔ ∃ i ≤ b.ops.length, before = b.ops.take i ∧ v ∈ b.operandsAt i := by
  constructor
  · intro h
    cases h with
    | @op before after op v hops hv =>
      refine ⟨before.length, ?_, ?_, ?_⟩
      · simp [hops]
      · simp [hops]
      · simpa [operandsAt, hops] using hv
    | terminator ht hv =>
      refine ⟨b.ops.length, Nat.le_refl _, (List.take_length ..).symm, ?_⟩
      simpa [operandsAt, ht] using hv
  · rintro ⟨i, hi, rfl, hv⟩
    unfold operandsAt at hv
    split at hv
    · rename_i op hop
      obtain ⟨hlt, rfl⟩ := List.getElem?_eq_some_iff.mp hop
      have hsplit : b.ops = b.ops.take i ++ b.ops[i] :: b.ops.drop (i + 1) := by simp
      exact .op hsplit hv
    · rename_i hnone
      have hlength : i = b.ops.length := Nat.le_antisymm hi (List.getElem?_eq_none_iff.mp hnone)
      rw [hlength, List.take_length]
      cases ht : b.terminator with
      | none => simp [ht] at hv
      | some t => exact .terminator ht (by simpa [ht] using hv)

theorem ordered_iff : b.Ordered ↔
    ∀ i ≤ b.ops.length, ∀ v ∈ b.operandsAt i, v.isDefinedBy (b.ops.take i) := by
  constructor
  · intro h i hi v hv
    cases v with
    | const ty value => rfl
    | param index => rfl
    | inst id ty => simpa [Value.isDefinedBy] using h _ id ty (takes_iff.mpr ⟨i, hi, rfl, hv⟩)
  · intro h before id ty htakes
    obtain ⟨i, hi, rfl, hv⟩ := takes_iff.mp htakes
    simpa [Value.isDefinedBy] using h i hi _ hv

instance : Decidable b.Ordered := decidable_of_iff' _ ordered_iff

end Block

/-! ## Early uses -/

namespace Function

variable {f : Function} {done : List Op} {b : Block}

theorem Comes.mem (h : f.Comes done b) : b ∈ f.blocks := by
  cases h with
  | entry h => simp [h]
  | next _ _ _ hb => exact List.mem_of_getElem? hb

/-- What a block takes, verification has looked at. -/
theorem Verified.admits {p : Program} {before : List Op} {v : Value} (hf : f.Verified p)
    (hb : b ∈ f.blocks) (h : b.Takes before v) : (f.scope p).Admits v := by
  cases h with
  | op hops hv => exact hf.operands b hb _ (by simp [hops]) v hv
  | @terminator t v ht hv =>
    obtain ⟨t', ht', hleaves⟩ := hf.ends b hb
    cases ht.symm.trans ht'
    cases t with
    | ret value =>
      cases List.mem_singleton.mp hv
      exact hleaves
    | br target => cases hv
    | condBr cond thenBlock elseBlock =>
      cases List.mem_singleton.mp hv
      exact hleaves.1

theorem UsesEarly.hasBody {id : InstId} (h : f.UsesEarly id) : f.isDeclaration = false := by
  obtain ⟨done, b, before, ty, hcomes, -, -⟩ := h
  have hne : f.blocks ≠ [] := List.ne_nil_of_mem hcomes.mem
  simpa [isDeclaration] using hne

/-- A result that is used early is defined nevertheless, if the function is
    verified. -/
theorem Verified.defines {p : Program} {id : InstId} (hf : f.Verified p) (h : f.UsesEarly id) :
    id ∈ f.dests := by
  obtain ⟨done, b, before, ty, hcomes, htakes, -⟩ := h
  exact hf.admits hcomes.mem htakes

theorem not_usesEarly_of_ordered (h : ∀ b ∈ f.blocks, b.Ordered) (id : InstId) :
    ¬ f.UsesEarly id := by
  rintro ⟨done, b, before, ty, hcomes, htakes, hnone⟩
  obtain ⟨op, hop, hdest⟩ := h b hcomes.mem before id ty htakes
  exact hnone op (List.mem_append_right done hop) hdest

end Function

/-! ## Frames -/

namespace Frame

variable {p : Program} {fr fr' : Frame}

/-- The frame has come along a path, and has the results of the operations on
    it. -/
structure Traced (p : Program) (fr : Frame) : Prop where
  function : fr.function ∈ p.functions
  path : ∃ done before, fr.function.Comes done fr.block ∧ fr.block.ops = before ++ fr.rest ∧
    ∀ op ∈ done ++ before, ∀ id, op.dest = some id → (fr.results[id.val]?).isSome

/-- An operand without a value is an argument or a result that is not there. -/
theorem eval_eq_error {v : Value} {e : ExecError} (h : fr.eval v = .error e) :
    (∃ index, e = .noArgument fr.function.name index) ∨
    ∃ id ty, v = .inst id ty ∧ fr.results[id.val]? = none ∧
      e = .notComputed fr.function.name id := by
  cases v with
  | const ty value => cases h
  | param index =>
    simp only [eval] at h
    split at h
    · cases h
    · cases h
      exact .inl ⟨index, rfl⟩
  | inst id ty =>
    simp only [eval] at h
    split at h
    · cases h
    · cases h
      exact .inr ⟨id, ty, rfl, ‹_›, rfl⟩

theorem Traced.start {f : Function} {args : List Int32} {entry : Block} {rest : List Block}
    (hf : f ∈ p.functions) (hblocks : f.blocks = entry :: rest) :
    (Frame.start f args entry).Traced p :=
  ⟨hf, [], [], .entry hblocks, rfl, fun _ hop => nomatch hop⟩

/-- An operation is passed once its result is there. -/
theorem Traced.pass {op : Op} (h : fr.Traced p) (hfunction : fr'.function = fr.function)
    (hblock : fr'.block = fr.block) (hrest : fr.rest = op :: fr'.rest)
    (hresults : ∀ id : InstId, (fr.results[id.val]?).isSome ∨ op.dest = some id →
      (fr'.results[id.val]?).isSome) : fr'.Traced p := by
  obtain ⟨done, before, hcomes, hops, hhas⟩ := h.path
  constructor
  · exact hfunction ▸ h.function
  · refine ⟨done, before ++ [op], ?_, ?_, ?_⟩
    · rwa [hfunction, hblock]
    · rw [hblock, hops, hrest, List.append_assoc, List.singleton_append]
    · intro o ho id hdest
      rw [← List.append_assoc, List.mem_append, List.mem_singleton] at ho
      apply hresults
      rcases ho with ho | rfl
      · exact .inl (hhas o ho id hdest)
      · exact .inr hdest

theorem Traced.define {op : Op} {rest : List Op} {dest : InstId} (h : fr.Traced p)
    (hrest : fr.rest = op :: rest) (hdest : op.dest = some dest) (v : Int32) :
    ({ fr with rest }.define dest v).Traced p := by
  refine h.pass rfl rfl hrest fun id hid => ?_
  simp only [Frame.define, Std.TreeMap.getElem?_insert]
  rcases hid with hid | hid
  · split
    · rfl
    · exact hid
  · cases hdest.symm.trans hid
    simp

theorem Traced.jump {t : Terminator} {target : BlockId} {b : Block} (h : fr.Traced p)
    (hrest : fr.rest = []) (ht : fr.block.terminator = some t) (htarget : target ∈ t.successors)
    (hb : fr.function.block? target = some b) : (fr.jump b).Traced p := by
  obtain ⟨done, before, hcomes, hops, hhas⟩ := h.path
  rw [hrest, List.append_nil] at hops
  refine ⟨h.function, done ++ fr.block.ops, [], .next hcomes ht htarget hb, rfl, ?_⟩
  rwa [List.append_nil, hops]

/-- A result that is taken here and is not there is taken early. -/
theorem Traced.usesEarly {id : InstId} {ty : Ty} (h : fr.Traced p)
    (htakes : ∀ before, fr.block.ops = before ++ fr.rest → fr.block.Takes before (.inst id ty))
    (hnone : fr.results[id.val]? = none) : fr.function.UsesEarly id := by
  obtain ⟨done, before, hcomes, hops, hhas⟩ := h.path
  refine ⟨done, fr.block, before, ty, hcomes, htakes before hops, fun op hop hdest => ?_⟩
  simpa [hnone] using hhas op hop id hdest

/-- Why an operand that is taken here has no value. -/
theorem Traced.eval_error {v : Value} {e : ExecError} (h : fr.Traced p)
    (htakes : ∀ before, fr.block.ops = before ++ fr.rest → fr.block.Takes before v)
    (he : fr.eval v = .error e) :
    (∃ name index, e = .noArgument name index) ∨
    ∃ f ∈ p.functions, ∃ id, e = .notComputed f.name id ∧ f.UsesEarly id := by
  rcases eval_eq_error he with ⟨index, rfl⟩ | ⟨id, ty, rfl, hnone, rfl⟩
  · exact .inl ⟨_, index, rfl⟩
  · exact .inr ⟨fr.function, h.function, id, rfl, h.usesEarly htakes hnone⟩

end Frame

/-! ## Runs -/

/-- A call that fails does not miss a value. -/
theorem Program.enter_defined {p : Program} {maxDepth active : Nat} {id : FunctionId}
    {args : List Int32} {e : ExecError}
    (h : p.enter maxDepth active id args = .error (.error e)) : e.kind ≠ .undefinedValue := by
  intro hkind
  rcases enter_error_kind h with hother | hother | hother <;> cases hkind.symm.trans hother

namespace Machine

variable {p : Program} {limits : ExecOptions} {m m' : Machine}

/-- All frames of the machine have come along paths; those that wait will have
    done so when they get what they wait for. -/
structure Traced (p : Program) (m : Machine) : Prop where
  frame : m.frame.Traced p
  callers : ∀ c ∈ m.callers, ∀ v, (c.2.define c.1 v).Traced p

theorem Traced.advance (h : m.Traced p) (hadvance : m.advance p limits = .running m') :
    m'.Traced p := by
  cases does_running hadvance with
  | compute hrest hdest _ => exact ⟨h.frame.define hrest hdest _, h.callers⟩
  | store hrest _ =>
    refine ⟨h.frame.pass rfl rfl hrest fun id hid => ?_, h.callers⟩
    rcases hid with hid | hid
    · exact hid
    · cases hid
  | print hrest _ _ => exact ⟨h.frame.define hrest rfl _, h.callers⟩
  | enter hrest _ henter =>
    obtain ⟨f, entry, rest, hf, hblocks, -, -, rfl⟩ := Program.enter_eq_entered.mp henter
    refine ⟨.start (List.mem_of_getElem? hf) hblocks, ?_⟩
    rw [List.forall_mem_cons]
    exact ⟨h.frame.define hrest rfl, h.callers⟩
  | jump hrest ht htarget hb => exact ⟨h.frame.jump hrest ht htarget hb, h.callers⟩
  | ret _ _ _ hcallers =>
    have hwaiting := h.callers
    rw [hcallers, List.forall_mem_cons] at hwaiting
    exact ⟨hwaiting.1 _, hwaiting.2⟩

/-- A value is found missing at a use that some path comes to too early, or is an
    argument. -/
theorem Traced.stops {e : ExecError} (h : m.Traced p) (hstops : m.Stops p limits (.error e))
    (hkind : e.kind = .undefinedValue) :
    (∃ name index, e = .noArgument name index) ∨
    ∃ f ∈ p.functions, ∃ id, e = .notComputed f.name id ∧ f.UsesEarly id := by
  cases hstops with
  | operand hrest hv he =>
    apply h.frame.eval_error _ he
    intro before hops
    rw [hrest] at hops
    exact .op hops hv
  | lastOperand hrest ht hv he =>
    apply h.frame.eval_error _ he
    intro before hops
    rw [hrest, List.append_nil] at hops
    exact hops ▸ .terminator ht hv
  | remainder => cases hkind
  | call _ _ henter => exact absurd hkind (Program.enter_defined henter)
  | unended _ _ => cases hkind

end Machine

namespace Program

variable {p : Program}

theorem Visits.traced {name : String} {args : List Int32} {limits : ExecOptions} {m : Machine}
    (h : p.Visits name args limits m) : m.Traced p :=
  h.invariant
    (fun _ _ _ hf hblocks _ => ⟨.start hf hblocks, nofun⟩)
    (fun _ _ htraced hadvance => htraced.advance hadvance)

/-- A run fails at an undefined value only where a result is used early, or an
    argument is missing. -/
theorem run_undefined {name : String} {args : List Int32} {limits : ExecOptions} {e : ExecError}
    (he : p.run name args limits = .error (.error e)) (hkind : e.kind = .undefinedValue) :
    (∃ name index, e = .noArgument name index) ∨
    ∃ f ∈ p.functions, ∃ id, e = .notComputed f.name id ∧ f.UsesEarly id := by
  have hends := run_ends p name args limits
  rw [he] at hends
  cases hends with
  | unknown _ => cases hkind
  | refused _ henter => exact absurd hkind (enter_defined henter)
  | failed hid henter _ hreaches hadvance =>
    have hvisits : p.Visits name args limits _ := .mk hid henter hreaches
    exact hvisits.traced.stops (Machine.stops_of_halted hadvance) hkind
  | givenUp _ _ _ _ => cases hkind

/-- A verified program fails at an undefined value only where a function takes a
    result that it defines, but not before on some path from its entry. If no
    function does so, no run fails at an undefined value. -/
theorem verified_undefined (hp : p.verify = .ok ()) :
    (∀ name args limits e, p.run name args limits = .error (.error e) →
      e.kind = .undefinedValue →
      ∃ f ∈ p.functions, ∃ id ∈ f.dests, e = .notComputed f.name id ∧ f.UsesEarly id) ∧
    ((∀ f ∈ p.functions, ∀ id, ¬ f.UsesEarly id) →
      ∀ name args limits e, p.run name args limits = .error (.error e) →
        e.kind ≠ .undefinedValue) := by
  have hearly : ∀ name args limits e, p.run name args limits = .error (.error e) →
      e.kind = .undefinedValue →
      ∃ f ∈ p.functions, ∃ id ∈ f.dests, e = .notComputed f.name id ∧ f.UsesEarly id := by
    intro name args limits e he hkind
    have hexcused : ¬ e.Foretold := run_sound hp he
    rcases run_undefined he hkind with ⟨_, _, rfl⟩ | ⟨f, hf, id, rfl, huses⟩
    · exact absurd trivial hexcused
    · have hbody : f.isDeclaration = false := huses.hasBody
      exact ⟨f, hf, id, (verify_eq_ok.mp hp f hf hbody).defines huses, rfl, huses⟩
  refine ⟨hearly, fun hnone name args limits e he hkind => ?_⟩
  obtain ⟨f, hf, id, -, -, huses⟩ := hearly name args limits e he hkind
  exact hnone f hf id huses

end Program

/-! ## Runs with an early use, and without -/

/-- Take a result, and define it behind. -/
def takeFirst : Build Unit := do
  Build.emit (.neg ⟨0⟩ (.inst ⟨1⟩ .i32))
  Build.emit (.neg ⟨1⟩ (.int 1))
  Build.ret (.inst ⟨0⟩ .i32)

/-- The program that such a body is built in. -/
def takingFirst : Program where
  functions := [
    .declaration "print" ⟨1⟩,
    { name := "f", signature := ⟨0⟩,
      blocks := [
        { label := "entry"
          ops := [.neg ⟨0⟩ (.inst ⟨1⟩ .i32), .neg ⟨1⟩ (.int 1)]
          terminator := some (.ret (.inst ⟨0⟩ .i32)) }] }]

theorem takingFirst_fails :
    takingFirst.run "f" [] {} = .error (.error (.notComputed "f" ⟨1⟩)) :=
  @Program.run_of_runWithin _ 1 _ _ _ _ rfl

/-- The steps of building refuse no early use, nor does verification. -/
theorem takingFirst_undefined :
    (∃ id ctx b, (Context.start {}).claim "f" 0 = .ok (id, ctx) ∧
      takeFirst (.start "f" []) = .ok () b ∧ (ctx.complete id b).program = takingFirst) ∧
    takingFirst.verify = .ok () ∧
    ∃ e, takingFirst.run "f" [] {} = .error (.error e) ∧ e.kind = .undefinedValue :=
  ⟨⟨_, _, _, rfl, rfl, rfl⟩, rfl, .notComputed "f" ⟨1⟩, takingFirst_fails,
    rfl⟩

theorem countdown_ordered : ∀ f ∈ countdown.functions, ∀ b ∈ f.blocks, b.Ordered := by decide

/-- The early use is what the run fails at, and counting down has none. -/
theorem takingFirst_usesEarly :
    (∃ f ∈ takingFirst.functions, ∃ id ∈ f.dests,
      ExecError.notComputed "f" ⟨1⟩ = .notComputed f.name id ∧ f.UsesEarly id) ∧
    ∀ name args limits e, countdown.run name args limits = .error (.error e) →
      e.kind ≠ .undefinedValue :=
  ⟨(Program.verified_undefined (p := takingFirst) rfl).1 "f" [] {} _ takingFirst_fails rfl,
    (Program.verified_undefined (p := countdown) rfl).2 fun f hf =>
      f.not_usesEarly_of_ordered (countdown_ordered f hf)⟩

end Blockform
