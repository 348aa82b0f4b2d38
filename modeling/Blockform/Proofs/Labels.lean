-- SUMMARY: The labels of lowered blocks: no two are the same, and the test of a loop is told by its own (`Builder.Labelled`).
import Blockform.Proofs.Legibility

/-!
# Labels

A block gets the label that it is asked for with, and a number behind it if that
is taken. So the labels of a function tell its blocks apart, and tell what each
was created for (`Block.CreatedFor`). In particular, the tests of loops can be told
from all other blocks, and a function has none if no loop was lowered for it
(`Kind.loops`).
-/

namespace Blockform

/-! ## Labels -/

/-- The block was created with the label, so that its own is that one or has a
    number behind it. -/
def Block.CreatedFor (label : String) (k : Block) : Prop := ∃ uses, k.label = labelText label uses

/-- A block was created with one label only. -/
theorem Block.CreatedFor.unique {base other : String} (hbase : base ∈ blockLabels)
    (hother : other ∈ blockLabels) {k : Block} (h : k.CreatedFor base)
    (h' : k.CreatedFor other) : base = other := by
  obtain ⟨uses, huses⟩ := h
  obtain ⟨uses', huses'⟩ := h'
  exact (labelText_inj hbase hother (huses.symm.trans huses')).1

/-- The label tells what a new block is for. -/
theorem Builder.createdFor_freshLabel {b : Builder} {label base : String}
    (hlabel : label ∈ blockLabels) (hbase : base ∈ blockLabels) {k : Block}
    (hk : k.label = b.freshLabel label) : k.CreatedFor base ↔ label = base := by
  have hfresh : k.CreatedFor label := ⟨_, hk.trans (b.freshLabel_eq label)⟩
  constructor
  · exact hfresh.unique hlabel hbase
  · rintro rfl
    exact hfresh

/-! ## Loops -/

mutual

/-- Is a loop lowered with the statement? The functions that it defines have loops
    of their own. -/
def Node.loops : Node → Bool
  | ⟨kind, _, _⟩ => kind.loops

def Kind.loops : Kind → Bool
  | .whileLoop .. => true
  | .ifElse _ body orelse => blockLoops body || elseLoops orelse
  | _ => false

/-- Is a loop lowered with one of the statements? -/
def blockLoops : List Node → Bool
  | [] => false
  | n :: rest => n.loops || blockLoops rest

/-- Is a loop lowered with an `else` clause? Only its first statement counts. -/
def elseLoops : List Node → Bool
  | [] => false
  | n :: _ => n.loops

end

/-- The labels that are asked for, with or without those of the tests of loops. -/
def labelsWith (loops : Bool) : List String :=
  blockLabels.filter fun base => loops || base ≠ "while.test"

theorem labelsWith_subset (loops : Bool) : labelsWith loops ⊆ blockLabels :=
  List.filter_subset_self _

theorem mem_labelsWith {base : String} (h : base ∈ blockLabels) (hne : base ≠ "while.test")
    (loops : Bool) : base ∈ labelsWith loops :=
  List.mem_filter.mpr ⟨h, by simp [hne]⟩

/-! ## Functions under construction -/

namespace Builder

/-- No two blocks have one label, and each has one that may be asked for, with a
    number behind it that is below the next one. -/
structure Labelled (loops : Bool) (b : Builder) : Prop where
  distinct : (b.blocks.map Block.label).Nodup
  numbered : ∀ label ∈ b.blocks.map Block.label, ∃ base ∈ labelsWith loops,
    ∃ uses < b.labels.count base, label = labelText base uses

namespace Labelled

variable {loops : Bool} {b b' : Builder}

/-- What leaves the labels alone keeps them. -/
theorem of_labels (hb : b.Labelled loops)
    (hblocks : b'.blocks.map Block.label = b.blocks.map Block.label)
    (hlabels : b'.labels = b.labels) : b'.Labelled loops where
  distinct := hblocks ▸ hb.distinct
  numbered := by
    rw [hblocks, hlabels]
    exact hb.numbered

theorem modified (hb : b.Labelled loops) {change : Block → Block}
    (hchange : ∀ k, (change k).label = k.label) (i nextInst : Nat) :
    { b with blocks := b.blocks.modify i change, nextInst }.Labelled loops :=
  hb.of_labels (map_label_modify hchange _ _) rfl

theorem emitted (hb : b.Labelled loops) (ops : List Op) : (b.emitted ops).Labelled loops := by
  have hchange (k : Block) : { k with ops := k.ops ++ ops }.label = k.label := rfl
  exact hb.modified hchange _ _

theorem close (hb : b.Labelled loops) (t : Terminator) : (b.close t).Labelled loops := by
  have hchange (k : Block) : { k with terminator := some t }.label = k.label := rfl
  exact hb.modified hchange _ _

theorem withSlot (hb : b.Labelled loops) (name : String) : (b.withSlot name).Labelled loops := by
  unfold Builder.withSlot ensureSlot
  cases b.slot? name with
  | some slot => exact hb
  | none => exact hb.of_labels rfl rfl

theorem emits (hb : b.Labelled loops) (h : b.Emits b') : b'.Labelled loops := by
  obtain ⟨ops, rfl, -⟩ := h
  exact hb.emitted ops

theorem addBlock (hb : b.Labelled loops) (label : String) (hlabel : label ∈ labelsWith loops) :
    (b.addBlock label).Labelled loops := by
  have hblocks : (b.addBlock label).blocks.map Block.label =
      (b.blocks.map Block.label).concat (b.freshLabel label) := by
    simp [Builder.addBlock]
  have hfresh : b.freshLabel label ∉ b.blocks.map Block.label := by
    refine freshLabel_not_mem (labelsWith_subset loops hlabel) fun k hk => ?_
    obtain ⟨base, hbase, hrest⟩ := hb.numbered _ (List.mem_map_of_mem hk)
    exact ⟨base, labelsWith_subset loops hbase, hrest⟩
  refine ⟨hblocks ▸ List.Nodup.concat hfresh hb.distinct, ?_⟩
  rw [hblocks, List.concat_eq_append]
  refine List.forall_mem_append.mpr ⟨fun l hl => ?_, List.forall_mem_singleton.mpr ?_⟩
  · obtain ⟨base, hbase, uses, huses, heq⟩ := hb.numbered l hl
    exact ⟨base, hbase, uses, Nat.lt_of_lt_of_le huses List.count_le_count_cons, heq⟩
  · exact ⟨label, hlabel, b.labels.count label, by simp [Builder.addBlock], b.freshLabel_eq label⟩

theorem start (loops : Bool) (name : String) (params : List String) :
    (Builder.start name params).Labelled loops := by
  have hempty : Builder.Labelled loops { name, params } := ⟨.nil, nofun⟩
  exact hempty.addBlock "entry" (mem_labelsWith (by decide) (by decide) loops)

/-- Without a loop, no block is the test of one. -/
theorem not_createdFor_test (hb : b.Labelled false) {k : Block} (hk : k ∈ b.blocks) :
    ¬ k.CreatedFor "while.test" := by
  intro htest
  obtain ⟨base, hbase, uses, -, hlabel⟩ := hb.numbered _ (List.mem_map_of_mem hk)
  have hcreated : k.CreatedFor base := ⟨uses, hlabel⟩
  obtain rfl := hcreated.unique (labelsWith_subset _ hbase) (by decide) htest
  exact absurd hbase (by decide)

end Labelled

end Builder

/-! ## Constructs -/

namespace Lower

variable {loops : Bool} {s s' : Workspace}

/-- A step keeps the labels. -/
def StepLabelled (loops : Bool) (x : Lower Unit) : Prop :=
  ∀ s s', x s = .ok () s' → s.builder.Labelled loops → s'.builder.Labelled loops

theorem reopen_labelled (h : reopen s = .ok () s') (hs : s.builder.Labelled loops) :
    s'.builder.Labelled loops := by
  obtain ⟨-, ⟨-, rfl⟩ | ⟨-, rfl⟩⟩ := reopen_eq_ok.mp h
  · exact hs
  · have hs₁ := hs.addBlock "unreachable" (mem_labelsWith (by decide) (by decide) loops)
    exact hs₁.of_labels rfl rfl

theorem fallThrough_labelled {join join' : Option BlockId}
    (h : fallThrough join s = .ok join' s') (hs : s.builder.Labelled loops) :
    s'.builder.Labelled loops := by
  obtain ⟨-, ⟨-, -, rfl⟩ | ⟨-, target, s₁, -, rfl, ⟨-, rfl⟩ | ⟨-, -, rfl⟩⟩⟩ :=
    fallThrough_eq_ok.mp h
  · exact hs
  · exact hs.close _
  · exact (hs.addBlock "if.end" (mem_labelsWith (by decide) (by decide) loops)).close _

theorem branch_labelled {test : Lower Value} {body orelse : Lower Unit}
    (hemits : ∀ {s v s'}, test s = .ok v s' → s.builder.Emits s'.builder)
    (hbody : StepLabelled loops body) (horelse : StepLabelled loops orelse) :
    StepLabelled loops (branch test body orelse) := by
  intro s s' h hs
  cases branch_run h with
  | @mk s₁ s₂ s₃ s₄ s₅ cond join join' hcond hopen hthen hjoin helse hjoin' =>
    have hs₁ := hs.emits (hemits hcond)
    have harms : s₁.withArms.builder.Labelled loops :=
      (hs₁.addBlock "if.then" (mem_labelsWith (by decide) (by decide) loops)).addBlock "if.else"
        (mem_labelsWith (by decide) (by decide) loops)
    have hs₂ := hbody _ _ hthen ((harms.close _).of_labels rfl rfl)
    have hs₃ := fallThrough_labelled hjoin hs₂
    have hs₄ := horelse _ _ helse (hs₃.of_labels rfl rfl)
    have hs₅ := fallThrough_labelled hjoin' hs₄
    cases join' with
    | none => exact hs₅
    | some target => exact hs₅.of_labels rfl rfl

theorem loop_labelled {test : Lower Value} {body : Lower Unit}
    (hemits : ∀ {s v s'}, test s = .ok v s' → s.builder.Emits s'.builder)
    (hbody : StepLabelled true body) : StepLabelled true (loop test body) := by
  intro s s' h hs
  cases loop_run h with
  | @mk s₁ s₂ s₃ cond hopen hcond hrun hcursor hback hexit =>
    have hloop : s.withLoop.builder.Labelled true :=
      ((hs.addBlock "while.test" (by decide)).addBlock "while.body" (by decide)).addBlock
        "while.end" (by decide)
    have hs₀ : ((s.withLoop.closed (.br s.nextBlock)).movedTo s.nextBlock).builder.Labelled true :=
      (hloop.close _).of_labels rfl rfl
    have hs₁ := hs₀.emits (hemits hcond)
    have hs₂ := hbody _ _ hrun (hs₁.of_labels rfl rfl)
    have hs₃ : s₃.builder.Labelled true := by
      rcases hback with ⟨-, rfl⟩ | ⟨-, rfl⟩
      · exact hs₂.close _
      · exact hs₂
    have hs₄ : (s₃.movedTo s₁.builder.cursor).builder.Labelled true := hs₃.of_labels rfl rfl
    exact (hs₄.close _).of_labels rfl rfl

/-! ## Statements -/

theorem block_labelled {ns : List Node}
    (hns : ∀ n ∈ ns, (n.loops = true → loops = true) → StepLabelled loops (statement n))
    (hloops : blockLoops ns = true → loops = true) : StepLabelled loops (block ns) := by
  induction ns with
  | nil =>
    intro s s' h hs
    obtain ⟨-, rfl⟩ := Effect.pure_eq_ok.mp h
    exact hs
  | cons n rest ih =>
    intro s s' h hs
    rw [List.forall_mem_cons] at hns
    rw [blockLoops, Bool.or_eq_true] at hloops
    obtain ⟨s₁, s₂, hreopen, hn, hrest⟩ := block_cons_eq_ok.mp h
    have hs₂ := hns.1 (hloops ∘ .inl) _ _ hn (reopen_labelled hreopen hs)
    exact ih hns.2 (hloops ∘ .inr) _ _ hrest hs₂

theorem elseClause_labelled {ns : List Node}
    (hns : ∀ n ∈ ns, (n.loops = true → loops = true) → StepLabelled loops (statement n))
    (hloops : elseLoops ns = true → loops = true) : StepLabelled loops (elseClause ns) := by
  intro s s' h hs
  cases ns with
  | nil =>
    obtain ⟨-, rfl⟩ := Effect.pure_eq_ok.mp h
    exact hs
  | cons n rest =>
    rw [elseClause_cons] at h
    have hbuilder := s.shortened_builder (n :: rest).length
    exact hns n (List.mem_cons_self ..) hloops _ _ h (hbuilder ▸ hs)

theorem statement_labelled (n : Node) (hloops : n.loops = true → loops = true) :
    StepLabelled loops (statement n) := by
  induction n using Node.parts_induction with
  | step n ih =>
    obtain ⟨kind, location, span⟩ := n
    intro s s' hrun hs
    cases statement_run hrun with
    | assign hvalue h =>
      obtain ⟨b, hwrite, rfl⟩ := build_eq_ok.mp h
      obtain ⟨w, b₁, hint, -, rfl⟩ := Build.write_eq_ok.mp hwrite
      have hs₁ := (hs.emits (expr_emits hvalue)).emits (Build.toInt_emits hint)
      exact (hs₁.withSlot _).emitted _
    | expr h => exact hs.emits (expr_emits h)
    | ret hvalue h =>
      obtain ⟨b, hret, rfl⟩ := build_eq_ok.mp h
      obtain ⟨w, b₁, hint, -, rfl⟩ := Build.ret_eq_ok.mp hret
      exact ((hs.emits (expr_emits hvalue)).emits (Build.toInt_emits hint)).close _
    | retNone h =>
      obtain ⟨b, hret, rfl⟩ := build_eq_ok.mp h
      obtain ⟨w, b₁, hint, -, rfl⟩ := Build.ret_eq_ok.mp hret
      exact (hs.emits (Build.toInt_emits hint)).close _
    | ifElse h =>
      rw [Node.loops, Kind.loops, Bool.or_eq_true] at hloops
      exact branch_labelled condition_emits
        (block_labelled (fun n hn => ih n (by simp [Kind.parts, hn])) (hloops ∘ .inl))
        (elseClause_labelled (fun n hn => ih n (by simp [Kind.parts, hn])) (hloops ∘ .inr))
        _ _ h hs
    | whileLoop h =>
      obtain rfl : loops = true := hloops rfl
      exact loop_labelled condition_emits
        (block_labelled (fun n hn => ih n (by simp [Kind.parts, hn])) fun _ => rfl) _ _ h hs
    | functionDef h => exact hs
    | value h => exact hs.emits (exprEmits ⟨kind, location, span⟩ _ _ _ h)

theorem body_labelled {ns : List Node} {ctx : Context} {name : String} {params : List String}
    (h : block ns (.start ctx name params) = .ok () s)
    (hend : (s.builder.IsOpen ∧ s' = s.closed (.ret (.int 0))) ∨ (¬ s.builder.IsOpen ∧ s' = s)) :
    s'.builder.Labelled (blockLoops ns) := by
  have hs : s.builder.Labelled (blockLoops ns) :=
    block_labelled (fun n _ => statement_labelled n) id _ _ h (.start _ name params)
  rcases hend with ⟨-, rfl⟩ | ⟨-, rfl⟩
  · exact hs.close _
  · exact hs

end Lower

end Blockform
