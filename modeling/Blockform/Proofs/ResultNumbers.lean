-- SUMMARY: The numbers that results are printed as tell the results apart, as far as they can be counted (`Function.result_numbers`).
import Blockform.Proofs.Numbering

/-!
# Numbers of results

Results that are defined are numbered in the order of printing. One that nothing defines
is told from them by a number past theirs: its own, moved by as many as are defined. The
sum is taken in a word, and for every result, also for one that is defined and has its
number from the order. So a result whose own number is close to the end of the word is
not printed at all. All others are told apart.
-/

namespace Blockform

theorem InstId.val_injective : Function.Injective InstId.val := by
  rintro ⟨m⟩ ⟨n⟩ rfl
  rfl

namespace Function

variable {ds : List InstId} {id id' : InstId} {n : Nat}

/-- The number past all results does not fit into a word. -/
def Overruns (ds : List InstId) (id : InstId) : Prop := UInt64.size ≤ ds.length + id.val

/-! ## Places -/

theorem lastPosition_eq_none (h : id ∉ ds) : lastPosition id ds = none := by
  cases hlast : lastPosition id ds with
  | none => rfl
  | some n => exact absurd (List.mem_of_getElem? (getElem?_of_lastPosition hlast)) h

/-- A result that nothing defines has its place past all that are defined. -/
theorem place_of_not_mem (hdistinct : ds.Nodup) (h : id ∉ ds) :
    place ds id = ds.length + id.val := by
  rw [place, lastPosition_eq_none h, Option.getD_none, eraseDups_of_nodup hdistinct]

theorem place_lt_of_mem (hdistinct : ds.Nodup) (h : id ∈ ds) : place ds id < ds.length := by
  obtain ⟨i, hi⟩ := List.mem_iff_getElem?.mp h
  rw [place_of_getElem? hdistinct hi]
  exact (List.getElem?_eq_some_iff.mp hi).1

/-- No two results have one place. -/
theorem place_injective (hdistinct : ds.Nodup) : Function.Injective (place ds) := by
  intro id id' heq
  by_cases h : id ∈ ds <;> by_cases h' : id' ∈ ds
  · exact place_inj h h' heq
  · have hlt := place_lt_of_mem hdistinct h
    rw [heq, place_of_not_mem hdistinct h'] at hlt
    exact absurd hlt (Nat.not_lt.mpr (Nat.le_add_right _ _))
  · have hlt := place_lt_of_mem hdistinct h'
    rw [← heq, place_of_not_mem hdistinct h] at hlt
    exact absurd hlt (Nat.not_lt.mpr (Nat.le_add_right _ _))
  · rw [place_of_not_mem hdistinct h, place_of_not_mem hdistinct h'] at heq
    exact InstId.val_injective (Nat.add_left_cancel heq)

/-! ## Numbers -/

theorem printedNumber_eq_ok (hdistinct : ds.Nodup) :
    printedNumber ds id = .ok n ↔ ¬ Overruns ds id ∧ place ds id = n := by
  unfold printedNumber Overruns
  rw [eraseDups_of_nodup hdistinct, Nat.not_le]
  split
  · next h => simp [h]
  · next h => simp [h]

theorem printedNumber_eq_error (hdistinct : ds.Nodup) {fault : Fault} :
    printedNumber ds id = .error fault ↔ Overruns ds id ∧ fault = .overflow := by
  unfold printedNumber Overruns
  rw [eraseDups_of_nodup hdistinct]
  split
  · next h => simp [Nat.not_le.mpr h]
  · next h => simp [Nat.not_lt.mp h, eq_comm]

/-- A result has no number if and only if the number past all results does not fit into a
    word for it, whether it is defined or not. Otherwise the results that are defined are
    numbered in the order of printing, every other one gets a number past theirs, and no
    two results get one number. -/
theorem result_numbers {f : Function} (hdistinct : f.dests.Nodup) :
    (∀ id, printedNumber f.dests id = .error .overflow ↔ Overruns f.dests id) ∧
    (∀ (i : Nat) id, f.dests[i]? = some id → ¬ Overruns f.dests id →
      printedNumber f.dests id = .ok i) ∧
    (∀ id, id ∉ f.dests → ¬ Overruns f.dests id →
      ∃ n, f.dests.length ≤ n ∧ printedNumber f.dests id = .ok n) ∧
    (∀ id id' n, printedNumber f.dests id = .ok n → printedNumber f.dests id' = .ok n →
      id = id') := by
  refine ⟨fun id => ?_, fun i id hi hover => ?_, fun id h hover => ?_, fun id id' n hn hn' => ?_⟩
  · simp [printedNumber_eq_error hdistinct]
  · exact (printedNumber_eq_ok hdistinct).mpr ⟨hover, place_of_getElem? hdistinct hi⟩
  · refine ⟨_, ?_, (printedNumber_eq_ok hdistinct).mpr ⟨hover, rfl⟩⟩
    rw [place_of_not_mem hdistinct h]
    exact Nat.le_add_right _ _
  · obtain ⟨-, hplace⟩ := (printedNumber_eq_ok hdistinct).mp hn
    obtain ⟨-, hplace'⟩ := (printedNumber_eq_ok hdistinct).mp hn'
    exact place_injective hdistinct (hplace.trans hplace'.symm)

/-- A function with one operation, which negates the given result. -/
def negatingOnly (id : InstId) : Function where
  name := "f"
  signature := ⟨0⟩
  blocks := [{
    label := "entry"
    ops := [.neg ⟨0⟩ (.inst id .i32)]
    terminator := some (.ret (.inst ⟨0⟩ .i32)) }]

/-- Its result has number 0, and one that nothing defines has a number past it, as long
    as it is not the last one of the word. -/
theorem negatingOnly_numbers :
    (negatingOnly ⟨7⟩).dests.Nodup ∧
      printedNumber (negatingOnly ⟨7⟩).dests ⟨0⟩ = .ok 0 ∧
      ∃ n, 1 ≤ n ∧ printedNumber (negatingOnly ⟨7⟩).dests ⟨7⟩ = .ok n := by
  have hdistinct : (negatingOnly ⟨7⟩).dests.Nodup := List.nodup_singleton _
  obtain ⟨-, hdefined, hpast, -⟩ := result_numbers hdistinct
  exact ⟨hdistinct, hdefined 0 ⟨0⟩ rfl (by unfold Overruns; decide),
    hpast ⟨7⟩ (by decide) (by unfold Overruns; decide)⟩

/-- The last result of the word, which nothing defines, has no number, so that the function
    has no text. -/
theorem last_result_uncounted :
    let f := negatingOnly ⟨UInt64.size - 1⟩
    f.dests.Nodup ∧ (⟨UInt64.size - 1⟩ : InstId) ∉ f.dests ∧
      printedNumber f.dests ⟨UInt64.size - 1⟩ = .error .overflow ∧
      Program.print { functions := [f] } = .error .overflow := by
  decide +kernel

end Function

end Blockform
