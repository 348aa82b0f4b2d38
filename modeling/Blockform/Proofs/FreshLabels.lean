-- SUMMARY: The labels that blocks get for any labels that are asked for, and when two blocks share one (`Builder.labels_distinct_iff`).
import Blockform.Proofs.Legibility
import Blockform.Proofs.Permanence

/-!
# Labels for any requests

A new block gets the label that it is asked for with, and behind it the number of
times that this label was asked for before. The count is one for each label, so a
label that is asked for with a point and a number at its end may be the one that
another block got: after `a` twice, `a.1` is taken, but nobody has asked for it yet.
This is the only way for two blocks to share a label. Lowering has eight labels of its
own, none of which ends like that, and stays clear of it (`Builder.Labelled`).
-/

namespace Blockform

open Effect

/-! ## Lists of requests -/

/-- The labels that blocks get. The requests are given with the last one first, the
    labels in the order of the blocks. -/
def labelsFor : List String → List String
  | [] => []
  | label :: earlier => labelsFor earlier ++ [labelText label (earlier.count label)]

/-- A label with a number that it was given with was asked for itself, too. -/
def Clash (asked : List String) : Prop :=
  ∃ base uses, uses + 1 < asked.count base ∧ labelText base (uses + 1) ∈ asked

variable {label : String} {asked : List String}

theorem mem_labelsFor :
    label ∈ labelsFor asked ↔ ∃ base, ∃ uses < asked.count base, label = labelText base uses := by
  induction asked with
  | nil => simp [labelsFor]
  | cons last earlier ih =>
    rw [labelsFor, List.mem_append, ih, List.mem_singleton]
    constructor
    · rintro (⟨base, uses, huses, rfl⟩ | rfl)
      · exact ⟨base, uses, Nat.lt_of_lt_of_le huses List.count_le_count_cons, rfl⟩
      · exact ⟨last, earlier.count last, by simp, rfl⟩
    · rintro ⟨base, uses, huses, rfl⟩
      by_cases hearlier : uses < earlier.count base
      · exact .inl ⟨base, uses, hearlier, rfl⟩
      · rw [List.count_cons] at huses
        split at huses
        · next hbase =>
          obtain rfl := eq_of_beq hbase
          obtain rfl : uses = earlier.count last := by omega
          exact .inr rfl
        · exact absurd huses hearlier

theorem labelText_succ_ne (base : String) (uses : Nat) : labelText base (uses + 1) ≠ base := by
  intro h
  have hlist : base.toList ++ '.' :: (toString (uses + 1)).toList = base.toList ++ [] := by
    simpa [labelText] using congrArg String.toList h
  exact List.cons_ne_nil _ _ (List.append_cancel_left hlist)

theorem mem_labelsFor_of_mem (h : label ∈ asked) : label ∈ labelsFor asked :=
  mem_labelsFor.mpr ⟨label, 0, List.count_pos_iff.mpr h, rfl⟩

theorem Clash.cons (h : Clash asked) (label : String) : Clash (label :: asked) := by
  obtain ⟨base, uses, huses, hmem⟩ := h
  exact ⟨base, uses, Nat.lt_of_lt_of_le huses List.count_le_count_cons, List.mem_cons_of_mem _ hmem⟩

/-- If a block gets a label that another one has, the request for one of the two
    labels spelled out the number behind the other. -/
theorem clash_of_mem_labelsFor (h : labelText label (asked.count label) ∈ labelsFor asked) :
    Clash (label :: asked) := by
  obtain ⟨base, uses, huses, heq⟩ := mem_labelsFor.mp h
  cases hcount : asked.count label with
  | zero =>
    rw [hcount] at heq
    obtain rfl : label = labelText base uses := heq
    cases uses with
    | zero => exact absurd hcount (Nat.ne_of_gt huses)
    | succ uses =>
      exact ⟨base, uses, Nat.lt_of_lt_of_le huses List.count_le_count_cons, List.mem_cons_self ..⟩
  | succ n =>
    rw [hcount] at heq
    cases uses with
    | zero =>
      obtain rfl : labelText label (n + 1) = base := heq
      have hmem : labelText label (n + 1) ∈ asked := List.count_pos_iff.mp huses
      exact ⟨label, n, by simp [hcount], List.mem_cons_of_mem _ hmem⟩
    | succ uses =>
      obtain ⟨rfl, rfl⟩ := labelText_succ_inj heq
      exact absurd huses (Nat.not_lt.mpr (Nat.le_of_eq hcount))

/-- The later of the two requests that clash gets the label of the earlier one. -/
theorem mem_labelsFor_of_clash (h : Clash (label :: asked)) :
    Clash asked ∨ labelText label (asked.count label) ∈ labelsFor asked := by
  obtain ⟨base, uses, huses, hmem⟩ := h
  by_cases hbase : uses + 1 < asked.count base
  · rcases List.mem_cons.mp hmem with rfl | hmem
    · by_cases hasked : labelText base (uses + 1) ∈ asked
      · exact .inl ⟨base, uses, hbase, hasked⟩
      · rw [List.count_eq_zero_of_not_mem hasked]
        exact .inr (mem_labelsFor.mpr ⟨base, uses + 1, hbase, rfl⟩)
    · exact .inl ⟨base, uses, hbase, hmem⟩
  · -- The last request is one for the base, and it gets the number.
    rw [List.count_cons] at huses
    split at huses
    · next hlabel =>
      obtain rfl := eq_of_beq hlabel
      have hcount : asked.count label = uses + 1 := by omega
      rcases List.mem_cons.mp hmem with hself | hmem
      · exact absurd hself (labelText_succ_ne label uses)
      · rw [hcount]
        exact .inr (mem_labelsFor_of_mem hmem)
    · exact absurd huses hbase

theorem labelsFor_nodup_iff : (labelsFor asked).Nodup ↔ ¬ Clash asked := by
  induction asked with
  | nil => simp [labelsFor, Clash]
  | cons label earlier ih =>
    rw [labelsFor, ← List.concat_eq_append, List.nodup_concat, ih]
    constructor
    · rintro ⟨hfresh, hearlier⟩ hclash
      exact (mem_labelsFor_of_clash hclash).elim hearlier hfresh
    · intro hclash
      exact ⟨fun hmem => hclash (clash_of_mem_labelsFor hmem), fun h => hclash (h.cons label)⟩

/-! ## Calls -/

namespace Builder

/-- The label that a call asks for. -/
def Call.label? : Call → Option String
  | .newBlock label => some label
  | _ => none

/-- The labels of the blocks, and those that they were asked for with, are the same. -/
def SameLabels (b b' : Builder) : Prop :=
  b'.blocks.map Block.label = b.blocks.map Block.label ∧ b'.labels = b.labels

instance : Std.Refl SameLabels where
  refl _ := ⟨rfl, rfl⟩

instance : Trans SameLabels SameLabels SameLabels where
  trans h h' := ⟨h'.1.trans h.1, h'.2.trans h.2⟩

theorem sameLabels_rules : Build.Rules SameLabels where
  push _ op := by
    have hchange (k : Block) : { k with ops := k.ops ++ [op] }.label = k.label := rfl
    exact ⟨map_label_modify hchange _ _, rfl⟩
  close _ t := by
    have hchange (k : Block) : { k with terminator := some t }.label = k.label := rfl
    exact ⟨map_label_modify hchange _ _, rfl⟩
  fresh _ := ⟨rfl, rfl⟩
  withSlot b name := by
    unfold Builder.withSlot ensureSlot
    cases b.slot? name <;> exact ⟨rfl, rfl⟩
  moveTo _ _ := ⟨rfl, rfl⟩

/-- The blocks have the labels that the requests for them lead to. -/
def LabelsFor (b : Builder) : Prop := b.blocks.map Block.label = labelsFor b.labels

/-- A call asks for one label at most, and keeps the labels of the blocks in line with
    the requests. -/
theorem Call.labels (c : Call) (b : Builder) :
    (after c.step b).labels = c.label?.toList ++ b.labels ∧
      (b.LabelsFor → (after c.step b).LabelsFor) := by
  cases hlabel : c.label? with
  | some label =>
    obtain rfl : c = .newBlock label := by
      cases c <;> cases hlabel
      rfl
    have hafter : after (Call.newBlock label).step b = b.addBlock label := rfl
    rw [hafter]
    refine ⟨rfl, fun hb => ?_⟩
    unfold LabelsFor addBlock
    rw [List.map_append, hb, labelsFor, ← freshLabel_eq]
    rfl
  | none =>
    have hsame : SameLabels b (after c.step b) := by
      refine c.obeys sameLabels_rules (fun label heq => ?_) b
      rw [heq] at hlabel
      cases hlabel
    refine ⟨hsame.2, fun hb => ?_⟩
    unfold LabelsFor
    rw [hsame.1, hsame.2]
    exact hb

theorem afterAll_labels (b : Builder) (calls : List Call) :
    (b.afterAll calls).labels = (calls.filterMap Call.label?).reverse ++ b.labels ∧
      (b.LabelsFor → (b.afterAll calls).LabelsFor) := by
  induction calls generalizing b with
  | nil => exact ⟨rfl, id⟩
  | cons c calls ih =>
    obtain ⟨hlabels, hkeeps⟩ := c.labels b
    obtain ⟨hlabels', hkeeps'⟩ := ih (after c.step b)
    refine ⟨?_, hkeeps' ∘ hkeeps⟩
    have hcons : b.afterAll (c :: calls) = (after c.step b).afterAll calls := rfl
    rw [hcons, hlabels', hlabels, List.filterMap_cons]
    cases c.label? <;> simp

/-- Whatever calls are made, two blocks share a label only if one of the labels that
    were asked for, that of the entry block among them, ends with a point and a number,
    and what stands in front of the point was asked for more often than the number
    says. -/
theorem labels_distinct_iff (name : String) (params : List String) (calls : List Call) :
    let asked := "entry" :: calls.filterMap Call.label?
    (((start name params).afterAll calls).blocks.map Block.label).Nodup ↔
      ∀ base uses, 0 < uses → uses < asked.count base → base ++ "." ++ toString uses ∉ asked := by
  intro asked
  obtain ⟨hlabels, hkeeps⟩ := afterAll_labels (start name params) calls
  have hstart : (start name params).LabelsFor := rfl
  have hasked : (calls.filterMap Call.label?).reverse ++ ["entry"] = asked.reverse :=
    (List.reverse_cons ..).symm
  rw [hkeeps hstart, hlabels, show (start name params).labels = ["entry"] from rfl, hasked,
    labelsFor_nodup_iff]
  constructor
  · intro hclash base uses hpos huses hmem
    obtain ⟨n, rfl⟩ := Nat.exists_eq_succ_of_ne_zero (Nat.ne_of_gt hpos)
    exact hclash ⟨base, n, by rwa [List.count_reverse], List.mem_reverse.mpr hmem⟩
  · rintro h ⟨base, n, huses, hmem⟩
    rw [List.count_reverse] at huses
    exact h base (n + 1) (Nat.succ_pos n) huses (List.mem_reverse.mp hmem)

/-- Two blocks get the label `a.1`: the second one that asks for `a`, and the first one
    that asks for `a.1`. -/
theorem numbered_request_shares_label :
    ¬ (((start "f" []).afterAll
      [.newBlock "a", .newBlock "a", .newBlock "a.1"]).blocks.map Block.label).Nodup := by
  decide +kernel

end Builder

end Blockform
