-- SUMMARY: The results of lowered functions can be counted: no result has a number that is not below their number (`lower_countable`).
import Blockform.Proofs.Compiling
import Blockform.Proofs.Constructs
import Blockform.Proofs.Printing
import Blockform.Proofs.WellFormed

/-!
# Counting results

Lowering uses up a number for every result that it defines, and for nothing else, as it
ends with the first operation that is refused. Whatever it has built so far, all results
have numbers below the next one, and there are as many of them (`Builder.Dense`). So the
number past all results, with which the printer counts (`Function.Countable`), is less
than twice their number.
-/

namespace Blockform

/-! ## Functions under construction -/

/-- The numbers that are used up belong to the results that are defined. -/
structure Builder.Dense (b : Builder) : Prop where
  below : ∀ id ∈ b.finish.dests, id.val < b.nextInst
  defined : b.nextInst ≤ b.finish.dests.length

namespace Builder.Dense

variable {b b' : Builder}

theorem start (name : String) (params : List String) : (Builder.start name params).Dense where
  below := nofun
  defined := Nat.le_refl 0

theorem of_dests (hb : b.Dense) (hdests : b'.finish.dests = b.finish.dests)
    (hnext : b'.nextInst = b.nextInst) : b'.Dense where
  below := by
    rw [hdests, hnext]
    exact hb.below
  defined := by
    rw [hdests, hnext]
    exact hb.defined

/-- An operation is added that has the next number for its result, if it has one. -/
theorem emitted (hb : b.Dense) (hopen : b.IsOpen) {op : Op}
    (hdest : ∀ d, op.dest = some d → d = ⟨b.nextInst⟩) : (b.emitted [op]).Dense := by
  have hperm := dests_emitted hopen.hasCursor [op]
  have hnext : (b.emitted [op]).nextInst = b.nextInst + ([op].filterMap Op.dest).length := rfl
  constructor
  · intro id hid
    rw [hnext]
    rcases List.mem_append.mp (hperm.mem_iff.mp hid) with hid | hid
    · exact Nat.lt_of_lt_of_le (hb.below id hid) (Nat.le_add_right _ _)
    · obtain ⟨op', hop', hdest'⟩ := List.mem_filterMap.mp hid
      obtain rfl := List.mem_singleton.mp hop'
      rw [hdest id hdest']
      exact Nat.lt_add_of_pos_right (List.length_pos_of_mem hid)
  · rw [hperm.length_eq, List.length_append, hnext]
    exact Nat.add_le_add_right hb.defined _

theorem close (hb : b.Dense) (t : Terminator) : (b.close t).Dense :=
  hb.of_dests (b.dests_close t) rfl

theorem addBlock (hb : b.Dense) (label : String) : (b.addBlock label).Dense :=
  hb.of_dests (b.dests_addBlock label) rfl

theorem withSlot (hb : b.Dense) (name : String) : (b.withSlot name).Dense :=
  hb.of_dests (b.dests_withSlot name) (b.withSlot_nextInst name)

end Builder.Dense

/-! ## Lowering -/

namespace Build

variable {b b' : Builder} {v w : Value}

theorem toInt_dense (h : toInt v b = .ok w b') (hb : b.Dense) : b'.Dense := by
  rcases toInt_eq_ok.mp h with ⟨-, -, rfl⟩ | ⟨-, hopen, -, rfl⟩
  · exact hb
  · exact hb.emitted hopen fun d hd => (Option.some.inj hd).symm

/-- The steps of building that lowering takes use up numbers for results only. -/
theorem Taken.dense {α : Type} {x : Build α} {a : α} (hx : Taken x) (h : x b = .ok a b')
    (hb : b.Dense) : b'.Dense := by
  cases hx with
  | define ty hdest =>
    obtain ⟨hopen, -, rfl⟩ := (define_eq_ok hdest).mp h
    exact hb.emitted hopen fun d hd => Option.some.inj (hd.symm.trans (hdest _))
  | toInt v => exact toInt_dense h hb
  | toBool v =>
    rcases toBool_eq_ok.mp h with ⟨-, -, rfl⟩ | ⟨-, hopen, -, rfl⟩
    · exact hb
    · exact hb.emitted hopen fun d hd => (Option.some.inj hd).symm
  | read name =>
    rcases read_eq_ok.mp h with ⟨-, rfl⟩ | ⟨-, slot, -, hopen, -, rfl⟩
    · exact hb
    · exact hb.emitted hopen fun d hd => (Option.some.inj hd).symm
  | write name v =>
    obtain ⟨w, b₁, hint, hopen, rfl⟩ := write_eq_ok.mp h
    have hb₁ := (toInt_dense hint hb).withSlot name
    exact hb₁.emitted (Builder.isOpen_withSlot.mpr hopen) nofun
  | ret v =>
    obtain ⟨w, b₁, hint, -, rfl⟩ := ret_eq_ok.mp h
    exact (toInt_dense hint hb).close _
  | terminate t =>
    obtain ⟨-, rfl⟩ := terminate_eq_ok.mp h
    exact hb.close t
  | newBlock label =>
    cases h
    exact hb.addBlock label
  | moveTo block =>
    cases h
    exact hb.of_dests rfl rfl
  | isTerminated =>
    obtain ⟨rfl, -⟩ := isTerminated_eq_ok.mp h
    exact hb

end Build

namespace Lower

/-- A step that succeeds uses up numbers for results only. -/
def StepDense {α : Type} (x : Lower α) : Prop :=
  ∀ s a s', x s = .ok a s' → s.builder.Dense → s'.builder.Dense

theorem dense_stepRules : StepRules StepDense where
  pure a s a' s' h hs := by
    obtain ⟨-, rfl⟩ := Effect.pure_eq_ok.mp h
    exact hs
  bind hx hf s b s'' h hs := by
    obtain ⟨a, s', ha, hb⟩ := Effect.bind_eq_ok.mp h
    exact hf a s' b s'' hb (hx s a s' ha hs)
  inspect hf s := hf s.builder s
  locating n hx s a s' h := hx s a s' (locating_eq_ok.mp h)
  unsupported _ _ _ _ h := absurd h unsupported_ne_ok
  build hx s a s' h hs := by
    obtain ⟨b, hb, rfl⟩ := build_eq_ok.mp h
    exact hx.dense hb hs
  note e s _ s' h hs := by
    cases h
    exact hs
  resolve name arity s id s' h hs := by
    obtain ⟨ctx, -, rfl⟩ := resolve_eq_ok.mp h
    exact hs
  function name params _ _ s id s' h hs := by
    obtain ⟨ctx, -, rfl⟩ := nested_eq_ok.mp h
    exact hs

end Lower

/-! ## Trees -/

variable {tree : Node} {options : LowerOptions} {p : Program} {f : Function}

/-- The results of a lowered function have numbers below their number. -/
theorem lower_dense (h : lower tree options = .ok p) (hf : f ∈ p.functions) :
    ∀ id ∈ f.dests, id.val < f.dests.length := by
  intro id hid
  by_cases hbody : f.blocks = []
  · rw [Function.dests, Function.ops, hbody] at hid
    cases hid
  · cases lower_built h hf hbody with
    | @mk d ctx s s' hrun hcursor hend hfunction =>
      have hs : s.builder.Dense := Lower.dense_stepRules.block
        (fun n _ => Lower.dense_stepRules.statement n) _ _ _ hrun (.start d.name d.params)
      have hs' : s'.builder.Dense := by
        rcases hend with ⟨-, rfl⟩ | ⟨-, rfl⟩
        · exact hs.close _
        · exact hs
      have hdests : f.dests = s'.builder.finish.dests := by rw [hfunction]; rfl
      rw [hdests] at hid ⊢
      exact Nat.lt_of_lt_of_le (hs'.below id hid) hs'.defined

/-- The results of a lowered function can be counted, unless there are more of them than
    half of a word is enough for. -/
theorem lower_countable (h : lower tree options = .ok p) (hf : f ∈ p.functions)
    (hroom : 2 * f.dests.length ≤ UInt64.size) : f.Countable := by
  intro id hid
  have hlt := lower_dense h hf id hid
  have hdistinct := Function.dests_nodup (Program.verify_eq_ok.mp (lower_verify h) f hf)
  rw [eraseDups_of_nodup hdistinct]
  omega

end Blockform
