-- SUMMARY: Lowered functions are well typed (`Function.WellTyped`), and their truth values are zero or one whenever they run (`Frame.Truthful`).
import Blockform.Proofs.Locality

/-!
# Truth values

The machine does not know types: a truth value is an integer that only
comparisons and the joining of truth values have made. In a well typed function
these are all the operations that give one, so a result of type `i1` is zero or
one in every frame of every run (`Frame.Truthful`), and widening it changes
nothing.
-/

namespace Blockform

/-! ## Well typed functions -/

/-- All operations and terminators take values of the types that they need, and
    the type that comes with a result is the one that its operation gives it. -/
structure Function.WellTyped (f : Function) : Prop where
  ops : ∀ op ∈ f.ops, op.WellTyped
  ends : ∀ b ∈ f.blocks, ∀ t, b.terminator = some t → t.WellTyped
  recorded : ∀ b ∈ f.blocks, ∀ before id ty, b.Takes before (.inst id ty) →
    (∃ op ∈ f.ops, op.dest = some id) ∧
      ∀ op ∈ f.ops, op.dest = some id → op.result = some (id, ty)

theorem Block.Takes.subset {b : Block} {before : List Op} {v : Value} (h : b.Takes before v) :
    before ⊆ b.ops := by
  cases h with
  | op hops _ => simp [hops]
  | terminator _ _ => exact List.Subset.refl _

namespace Function

variable {f : Function} {op op' : Op} {id : InstId}

theorem mem_ops {b : Block} (hb : b ∈ f.blocks) (hop : op ∈ b.ops) : op ∈ f.ops :=
  List.mem_flatMap.mpr ⟨b, hb, hop⟩

/-- A result has one operation, if none is defined twice. -/
theorem op_unique (hf : f.dests.Nodup) (hop : op ∈ f.ops) (hop' : op' ∈ f.ops)
    (hdest : op.dest = some id) (hdest' : op'.dest = some id) : op = op' := by
  have hpairs := List.pairwise_filterMap.mp hf
  have hsame : f.ops.Pairwise fun o o' => o.dest = some id → o'.dest = some id → o = o' :=
    hpairs.imp fun h hd hd' => absurd rfl (h id hd id hd')
  have hflip : f.ops.Pairwise fun o o' => o'.dest = some id → o.dest = some id → o' = o :=
    hpairs.imp fun h hd' hd => absurd rfl (h id hd id hd')
  exact hsame.forall_of_forall_of_flip (fun _ _ _ _ => rfl) hflip hop hop' hdest hdest'

/-- A function of local blocks is well typed, if no result is defined twice. -/
theorem wellTyped_of_local (hf : f.dests.Nodup) (hlocal : ∀ b ∈ f.blocks, b.Local) :
    f.WellTyped where
  ops := by
    intro op hop
    obtain ⟨b, hb, hop⟩ := List.mem_flatMap.mp hop
    exact (hlocal b hb).typed op hop
  ends b hb := (hlocal b hb).ended
  recorded := by
    intro b hb before id ty htakes
    obtain ⟨op, hop, hresult⟩ := (hlocal b hb).atHand before _ htakes
    have hmem : op ∈ f.ops := mem_ops hb (htakes.subset hop)
    have hdest := Op.dest_of_result hresult
    refine ⟨⟨op, hmem, hdest⟩, fun op' hop' hdest' => ?_⟩
    rw [op_unique hf hop' hmem hdest' hdest, hresult]

end Function

/-! ## Computing with truth values -/

/-- An operator on truth values gives one. -/
theorem BinaryOp.eval_truth {op : BinaryOp} (hop : op.ty = .i1) {a b v : Int32}
    (ha : a = 0 ∨ a = 1) (hb : b = 0 ∨ b = 1) (h : op.eval a b = some v) : v = 0 ∨ v = 1 := by
  cases op with
  | and =>
    cases h
    rcases ha with rfl | rfl <;> rcases hb with rfl | rfl <;> decide
  | or =>
    cases h
    rcases ha with rfl | rfl <;> rcases hb with rfl | rfl <;> decide
  | _ => cases hop

theorem Predicate.eval_truth (pred : Predicate) (a b : Int32) :
    pred.eval a b = 0 ∨ pred.eval a b = 1 := by
  unfold eval
  split
  · exact .inr rfl
  · exact .inl rfl

/-- Widening keeps a truth value. -/
theorem widened_truth {v : Int32} (h : v = 0 ∨ v = 1) : v &&& 1 = v := by
  rcases h with rfl | rfl <;> decide

/-! ## Frames -/

namespace Frame

variable {fr : Frame} {op : Op} {rest : List Op} {dest : InstId} {n : Int32}

/-- The results of type `i1` that have been computed are zero or one. -/
def Truthful (fr : Frame) : Prop :=
  ∀ op ∈ fr.function.ops, ∀ id, op.result = some (id, .i1) →
    ∀ v, fr.results[id.val]? = some v → v = 0 ∨ v = 1

theorem truthful_start (f : Function) (args : List Int32) (entry : Block) :
    (Frame.start f args entry).Truthful := by
  intro op _ id _ v hv
  simp [Frame.start] at hv

/-- An operand of type `i1` is the result of an operation. -/
theorem Truthful.eval (h : fr.Truthful) {ops : List Op} (hops : ops ⊆ fr.function.ops)
    {v : Value} (hv : v.AtHand ops) (hty : v.ty = .i1) (heval : fr.eval v = .ok n) :
    n = 0 ∨ n = 1 := by
  cases v with
  | const ty value => cases hv.symm.trans hty
  | param index => cases hty
  | inst id ty =>
    cases hty
    obtain ⟨op, hop, hresult⟩ := hv
    refine h op (hops hop) id hresult n ?_
    simp only [Frame.eval] at heval
    split at heval
    · cases heval
      assumption
    · cases heval

/-- A well typed operation on truth values computes one, if its result is of that
    type. -/
theorem Truthful.computes (h : fr.Truthful) {ops : List Op} (hops : ops ⊆ fr.function.ops)
    (hop : op.WellTyped) (hvs : ∀ v ∈ op.operands, v.AtHand ops)
    (hresult : op.result = some (dest, .i1)) (hn : fr.Computes op n) : n = 0 ∨ n = 1 := by
  cases hn with
  | load _ => cases hresult
  | binary hl hr heval =>
    obtain ⟨hty, htyl, htyr⟩ := hop
    cases hresult
    have ha := h.eval hops (hvs _ (by simp [Op.operands])) (htyl.trans hty.symm) hl
    have hb := h.eval hops (hvs _ (by simp [Op.operands])) (htyr.trans hty.symm) hr
    exact BinaryOp.eval_truth hty.symm ha hb heval
  | neg _ => cases hresult
  | icmp _ _ => exact Predicate.eval_truth _ _ _
  | zext _ => cases hresult

/-- A result of type `i1` has to be zero or one. -/
theorem Truthful.define (h : fr.Truthful) (hdistinct : fr.function.dests.Nodup)
    (hop : op ∈ fr.function.ops) (hdest : op.dest = some dest)
    (hn : op.result = some (dest, .i1) → n = 0 ∨ n = 1) : (fr.define dest n).Truthful := by
  intro op' hop' id hresult v hv
  simp only [Frame.define, Std.TreeMap.getElem?_insert] at hv
  split at hv
  · rename_i heq
    cases hv
    obtain rfl : dest = id := by
      rcases dest with ⟨d⟩
      rcases id with ⟨i⟩
      simpa using heq
    have hsame := Function.op_unique hdistinct hop hop' hdest (Op.dest_of_result hresult)
    exact hn (hsame ▸ hresult)
  · exact h op' hop' id hresult v hv

/-- The operations of the block that a frame is in, up to the next one. -/
theorem Traced.next {p : Program} (h : fr.Traced p) (hrest : fr.rest = op :: rest) :
    fr.block ∈ fr.function.blocks ∧ ∃ before, fr.block.ops = before ++ op :: rest := by
  obtain ⟨done, before, hcomes, hops, -⟩ := h.path
  exact ⟨hcomes.mem, before, hrest ▸ hops⟩

end Frame

/-! ## Runs -/

namespace Machine

variable {p : Program} {limits : ExecOptions} {m m' : Machine}

/-- All frames hold zero or one in their results of type `i1`, those that wait
    also when they get what they wait for. -/
structure Truthful (m : Machine) : Prop where
  frame : m.frame.Truthful
  callers : ∀ c ∈ m.callers, c.2.Truthful ∧ ∀ v, (c.2.define c.1 v).Truthful

/-- A step of a program of local blocks. -/
theorem Truthful.advance (hp : p.verify = .ok ())
    (hlocal : ∀ f ∈ p.functions, ∀ b ∈ f.blocks, b.Local) (htraced : m.Traced p)
    (h : m.Truthful) (hadvance : m.advance p limits = .running m') : m'.Truthful := by
  have hmem := htraced.frame.function
  -- An operation that is executed may define its result, if the value fits its type.
  have hdefine : ∀ {op rest dest n}, m.frame.rest = op :: rest → op.dest = some dest →
      (op.result = some (dest, .i1) → n = 0 ∨ n = 1) →
      ({ m.frame with rest }.define dest n).Truthful := by
    intro op rest dest n hrest hdest hn
    obtain ⟨hb, before, hops⟩ := htraced.frame.next hrest
    have hop : op ∈ m.frame.function.ops := Function.mem_ops hb (by simp [hops])
    have hbody : m.frame.function.isDeclaration = false := by
      simpa [Function.isDeclaration] using List.ne_nil_of_mem hb
    have hdistinct := (Program.verify_eq_ok.mp hp _ hmem hbody).distinct
    have hframe : Frame.Truthful { m.frame with rest } := h.frame
    exact hframe.define hdistinct hop hdest hn
  cases does_running hadvance with
  | compute hrest hdest hn =>
    refine ⟨hdefine hrest hdest fun hresult => ?_, h.callers⟩
    obtain ⟨hb, before, hops⟩ := htraced.frame.next hrest
    have hblock := hlocal _ hmem _ hb
    apply h.frame.computes _ (hblock.typed _ (by simp [hops])) _ hresult hn
    · exact before
    · intro op hop
      exact Function.mem_ops hb (by simp [hops, hop])
    · intro v hv
      exact hblock.atHand before v (.op hops hv)
  | store _ _ => exact ⟨h.frame, h.callers⟩
  | print hrest _ _ => exact ⟨hdefine hrest rfl (fun hresult => by cases hresult), h.callers⟩
  | enter hrest _ henter =>
    obtain ⟨f, entry, blocks, -, -, -, -, rfl⟩ := Program.enter_eq_entered.mp henter
    refine ⟨Frame.truthful_start f _ entry, ?_⟩
    rw [List.forall_mem_cons]
    exact ⟨⟨h.frame, fun v => hdefine hrest rfl (fun hresult => by cases hresult)⟩, h.callers⟩
  | jump _ _ _ _ => exact ⟨h.frame, h.callers⟩
  | ret _ _ _ hcallers =>
    have hwaiting := h.callers
    rw [hcallers, List.forall_mem_cons] at hwaiting
    exact ⟨hwaiting.1.2 _, hwaiting.2⟩

theorem Truthful.of_mem_frames (h : m.Truthful) {fr : Frame} (hfr : fr ∈ m.frames) :
    fr.Truthful := by
  rcases List.mem_cons.mp hfr with rfl | hfr
  · exact h.frame
  · obtain ⟨c, hc, rfl⟩ := List.mem_map.mp hfr
    exact (h.callers c hc).1

/-- A frame that waits belongs to a function of the program as well. -/
theorem Traced.of_mem_frames (h : m.Traced p) {fr : Frame} (hfr : fr ∈ m.frames) :
    fr.function ∈ p.functions := by
  rcases List.mem_cons.mp hfr with rfl | hfr
  · exact h.frame.function
  · obtain ⟨c, hc, rfl⟩ := List.mem_map.mp hfr
    exact (h.callers c hc 0).function

end Machine

/-! ## Programs of trees -/

variable {p : Program} {name : String} {args : List Int32} {limits : ExecOptions} {m : Machine}

theorem Program.Visits.truthful (hp : p.verify = .ok ())
    (hlocal : ∀ f ∈ p.functions, ∀ b ∈ f.blocks, b.Local) (h : p.Visits name args limits m) :
    m.Truthful := by
  let I (m : Machine) : Prop := m.Traced p ∧ m.Truthful
  have hboth : I m := by
    apply h.invariant
    · intro f entry rest hf hblocks _
      have htraced : Machine.Traced p { frame := .start f args entry } := ⟨.start hf hblocks, nofun⟩
      exact ⟨htraced, Frame.truthful_start f args entry, nofun⟩
    · rintro m m' ⟨htraced, htruthful⟩ hadvance
      exact ⟨htraced.advance hadvance, htruthful.advance hp hlocal htraced hadvance⟩
  exact hboth.2

variable {tree : Node} {options : LowerOptions}

theorem lower_wellTyped (h : lower tree options = .ok p) : ∀ f ∈ p.functions, f.WellTyped := by
  intro f hf
  refine Function.wellTyped_of_local ?_ (lower_local h f hf)
  by_cases hblocks : f.blocks = []
  · simp [Function.dests, Function.ops, hblocks]
  · have hbody : f.isDeclaration = false := by simpa [Function.isDeclaration] using hblocks
    exact (Program.verify_eq_ok.mp (lower_verify h) f hf hbody).distinct

/-- Lowered functions are well typed, and in every frame that a run comes to the
    results of type `i1` are zero or one, so that widening changes no value. -/
theorem lowered_well_typed (h : lower tree options = .ok p) :
    (∀ f ∈ p.functions, f.WellTyped) ∧
    ∀ name args limits m, p.Visits name args limits m → ∀ fr ∈ m.frames,
      fr.function ∈ p.functions ∧
      (∀ op ∈ fr.function.ops, ∀ id, op.result = some (id, .i1) →
        ∀ v, fr.results[id.val]? = some v → v = 0 ∨ v = 1) ∧
      ∀ dest operand, .zext dest operand ∈ fr.function.ops →
        ∀ v, fr.eval operand = .ok v → v &&& 1 = v := by
  refine ⟨lower_wellTyped h, fun name args limits m hvisits fr hfr => ?_⟩
  have hmem := hvisits.traced.of_mem_frames hfr
  have htruthful := (hvisits.truthful (lower_verify h) (lower_local h)).of_mem_frames hfr
  refine ⟨hmem, htruthful, fun dest operand hop v hv => widened_truth ?_⟩
  obtain ⟨b, hb, hop⟩ := List.mem_flatMap.mp hop
  obtain ⟨before, after, hops⟩ := List.append_of_mem hop
  have hblock := lower_local h _ hmem b hb
  have hat : operand.AtHand before :=
    hblock.atHand before operand (.op hops (by simp [Op.operands]))
  refine htruthful.eval (fun op hbefore => ?_) hat (hblock.typed _ hop) hv
  exact Function.mem_ops hb (by simp [hops, hbefore])

/-- A tree that returns a truth value, which is widened for it. -/
def comparingTree : Node := .module [.ret (.compare (.int 1) .lt (.int 2))]

/-- The program of this tree. -/
def comparing : Program where
  functions := [
    .declaration "print" ⟨1⟩,
    { name := "main", signature := ⟨0⟩,
      blocks := [
        { label := "entry"
          ops := [.icmp ⟨0⟩ .slt (.int 1) (.int 2), .zext ⟨1⟩ (.inst ⟨0⟩ .i1)]
          terminator := some (.ret (.inst ⟨1⟩ .i32)) }] }]

theorem comparingTree_well_typed :
    lower comparingTree {} = .ok comparing ∧ (∀ f ∈ comparing.functions, f.WellTyped) ∧
      ∃ m, comparing.Visits "main" [] {} m ∧ m.frame.rest = [.zext ⟨1⟩ (.inst ⟨0⟩ .i1)] ∧
        ∃ v, m.frame.eval (.inst ⟨0⟩ .i1) = .ok v ∧ v &&& 1 = v := by
  have hlowered : lower comparingTree {} = .ok comparing := rfl
  obtain ⟨htyped, hruns⟩ := lowered_well_typed hlowered
  refine ⟨hlowered, htyped, ?_⟩
  obtain ⟨m, hvisits, hrest, hv, hop⟩ : ∃ m, comparing.Visits "main" [] {} m ∧
      m.frame.rest = [.zext ⟨1⟩ (.inst ⟨0⟩ .i1)] ∧ m.frame.eval (.inst ⟨0⟩ .i1) = .ok 1 ∧
      .zext ⟨1⟩ (.inst ⟨0⟩ .i1) ∈ m.frame.function.ops :=
    ⟨_, .mk rfl rfl (.step rfl (.refl _)), rfl, rfl, by decide⟩
  obtain ⟨-, -, hwidened⟩ := hruns "main" [] {} m hvisits m.frame (List.mem_cons_self ..)
  exact ⟨m, hvisits, hrest, 1, hv, hwidened ⟨1⟩ (.inst ⟨0⟩ .i1) hop 1 hv⟩

end Blockform
