-- SUMMARY: The lines of the text of a function, each with the instruction behind it (`Printer.page`).
import Blockform.Proofs.Lines

/-!
# Pages

The text of a function is a page of lines, and behind each line stands the
instruction that it was written for, if there is one. A variable may have any name,
also one that looks like an instruction, so it is this origin that says which lines
define a result and which use one, and not their wording.

The lines of a page hold the instructions of the function in order
(`Printer.page_instructions`), the text of the function is theirs
(`Printer.text_eq_page`), and each shows what its instruction takes
(`Printer.spells_line`).
-/

namespace Blockform

/-! ## Instructions -/

/-- An operation, or the end of a block. -/
inductive Instruction where
  | op (op : Op)
  | terminator (t : Terminator)

namespace Instruction

/-- The result that the instruction defines. -/
def dest : Instruction → Option InstId
  | .op o => o.dest
  | .terminator _ => none

/-- The values that the instruction takes, in order. -/
def operands : Instruction → List Value
  | .op o => o.operands
  | .terminator t => t.operands

end Instruction

/-- The instructions of a block, in order. -/
def Block.instructions (b : Block) : List Instruction :=
  b.ops.map .op ++ b.terminator.toList.map .terminator

namespace Function

/-- All instructions, in the order of the blocks. -/
def instructions (f : Function) : List Instruction := f.blocks.flatMap Block.instructions

theorem instructions_dest (f : Function) :
    f.instructions.filterMap Instruction.dest = f.dests := by
  have hblock (b : Block) :
      b.instructions.filterMap Instruction.dest = b.ops.filterMap Op.dest := by
    have hops : Instruction.dest ∘ Instruction.op = Op.dest := rfl
    have hends : Instruction.dest ∘ Instruction.terminator = fun _ => none := rfl
    rw [Block.instructions, List.filterMap_append, List.filterMap_map, List.filterMap_map, hops,
      hends]
    simp
  rw [instructions, dests, ops, List.filterMap_flatMap, List.filterMap_flatMap]
  exact List.flatMap_congr fun b _ => hblock b

end Function

/-! ## Pages -/

/-- A line of a text: an instruction, or what belongs to none. -/
inductive PageLine where
  | plain (text : String)
  | code (i : Instruction)

namespace PageLine

/-- The instruction that the line is written for. -/
def instruction : PageLine → Option Instruction
  | .plain _ => none
  | .code i => some i

/-- The result that the line defines. -/
def dest (line : PageLine) : Option InstId := line.instruction.bind Instruction.dest

/-- The values that the line uses, in order. -/
def operands (line : PageLine) : List Value := line.instruction.elim [] Instruction.operands

end PageLine

/-- The lines of a page that define a result. -/
def definitions (page : List PageLine) : List PageLine := page.filter (·.dest.isSome)

/-- The definitions of a page are those of its instructions, in order. -/
theorem definitions_dest (page : List PageLine) :
    (definitions page).map PageLine.dest =
      ((page.filterMap PageLine.instruction).filterMap Instruction.dest).map some := by
  rw [List.filterMap_filterMap, List.map_filterMap_some_eq_filter_map_isSome, List.filter_map]
  rfl

/-- Blocks with an empty line between them. -/
def spaced : List (List PageLine) → List PageLine
  | [] => []
  | block :: rest => block ++ rest.flatMap fun block => .plain "" :: block

/-- The lines of a block, behind its label. -/
def Block.page (b : Block) : List PageLine :=
  b.ops.map (fun op => .code (.op op)) ++
    [match b.terminator with
    | some t => .code (.terminator t)
    | none => .plain "  ; <missing terminator>"]

namespace Printer

/-- The lines of a block, with those that stand in front of its operations. -/
def blockPage (s : List String × Block) : List PageLine :=
  .plain (s.2.label ++ ":") :: (s.1.map (fun cell => .plain ("  " ++ cell)) ++ s.2.page)

/-- The lines of the function. -/
def page (pr : Printer) : List PageLine :=
  let head := pr.function.name ++ pr.signatureText
  if pr.function.isDeclaration then [.plain ("declare i32 @" ++ head)]
  else .plain ("define i32 @" ++ head) :: (spaced (pr.sections.map blockPage) ++ [.plain "\x7d"])

/-- The text of an instruction. -/
def instruction (pr : Printer) : Instruction → Except Fault String
  | .op op => pr.op op
  | .terminator t => pr.terminator t

/-- The text of a line. -/
def line (pr : Printer) : PageLine → Except Fault String
  | .plain text => .ok text
  | .code i => (pr.instruction i).map ("  " ++ ·)

/-- The text of lines, one below the other. -/
def pageText (pr : Printer) (page : List PageLine) : Except Fault String :=
  (page.mapM pr.line).map fun lines => String.join (lines.map lineText)

/-! ### The text of a page -/

variable {pr : Printer}

theorem pageText_append (page page' : List PageLine) :
    pr.pageText (page ++ page') =
      (pr.pageText page).bind fun text => (pr.pageText page').map (text ++ ·) := by
  unfold pageText
  rw [List.mapM_append]
  cases page.mapM pr.line with
  | error fault => rfl
  | ok lines =>
    cases page'.mapM pr.line with
    | error fault => rfl
    | ok lines' =>
      refine congrArg Except.ok ?_
      simp

theorem pageText_cons (l : PageLine) (page : List PageLine) :
    pr.pageText (l :: page) =
      (pr.line l).bind fun text => (pr.pageText page).map (lineText text ++ ·) := by
  unfold pageText
  rw [List.mapM_cons]
  cases pr.line l with
  | error fault => rfl
  | ok text =>
    cases page.mapM pr.line with
    | error fault => rfl
    | ok lines =>
      refine congrArg Except.ok ?_
      simp

theorem pageText_plain (texts : List String) (page : List PageLine) :
    pr.pageText (texts.map .plain ++ page) =
      (pr.pageText page).map (String.join (texts.map lineText) ++ ·) := by
  induction texts with
  | nil => cases h : pr.pageText page <;> simp [h]
  | cons text texts ih =>
    rw [List.map_cons, List.cons_append, pageText_cons, ih]
    cases pr.pageText page with
    | error fault => rfl
    | ok rest =>
      refine congrArg Except.ok ?_
      simp [String.append_assoc]

theorem pageText_ops (ops : List Op) :
    pr.pageText (ops.map fun op => .code (.op op)) = (ops.mapM pr.op).map fun lines =>
      String.join (lines.map fun line => "  " ++ lineText line) := by
  have hline : pr.line ∘ (fun op => PageLine.code (.op op)) = fun op =>
    (pr.op op).map ("  " ++ ·) := rfl
  rw [pageText, List.mapM_map, hline, mapM_map]
  cases ops.mapM pr.op with
  | error fault => rfl
  | ok lines => simp [lineText, Function.comp_def, String.append_assoc]

/-- The last line of a block is written as its end. -/
theorem pageText_end (b : Block) :
    pr.pageText [match b.terminator with
      | some t => .code (.terminator t)
      | none => .plain "  ; <missing terminator>"] =
      (pr.ending b).map fun last => "  " ++ lineText last := by
  unfold ending
  cases b.terminator with
  | none => rfl
  | some t =>
    rw [pageText_cons]
    simp only [line, instruction]
    cases pr.terminator t with
    | error fault => rfl
    | ok last =>
      refine congrArg Except.ok ?_
      simp [lineText, String.append_assoc]

theorem pageText_block (s : List String × Block) :
    pr.pageText (blockPage s) = (pr.blockText s).map BlockText.text := by
  obtain ⟨cells, b⟩ := s
  have hcells : cells.map (fun cell => PageLine.plain ("  " ++ cell)) =
      (cells.map ("  " ++ ·)).map .plain := by simp
  rw [blockPage, pageText_cons, hcells, pageText_plain, Block.page, pageText_append, pageText_ops,
    pageText_end]
  unfold blockText blockLines
  cases b.ops.mapM pr.op with
  | error fault => rfl
  | ok lines =>
    cases pr.ending b with
    | error fault => rfl
    | ok last =>
      refine congrArg Except.ok ?_
      simp [BlockText.text, lineText, String.append_assoc, Function.comp_def]

theorem pageText_spaced (ss : List (List String × Block)) :
    pr.pageText (spaced (ss.map blockPage)) = (ss.mapM pr.blockText).map fun blocks =>
      "\n".intercalate (blocks.map BlockText.text) := by
  have hrest (rest : List (List String × Block)) :
      pr.pageText ((rest.map blockPage).flatMap fun block => .plain "" :: block) =
        (rest.mapM pr.blockText).map fun blocks =>
          String.join (blocks.map fun b => "\n" ++ b.text) := by
    induction rest with
    | nil => rfl
    | cons s rest ih =>
      rw [List.map_cons, List.flatMap_cons, pageText_append, pageText_cons, pageText_block, ih,
        List.mapM_cons]
      cases pr.blockText s with
      | error fault => rfl
      | ok b =>
        cases rest.mapM pr.blockText with
        | error fault => rfl
        | ok blocks =>
          refine congrArg Except.ok ?_
          simp [lineText, String.append_assoc]
  cases ss with
  | nil => rfl
  | cons s rest =>
    rw [List.map_cons, spaced, pageText_append, pageText_block, hrest, List.mapM_cons]
    cases pr.blockText s with
    | error fault => rfl
    | ok b =>
      cases rest.mapM pr.blockText with
      | error fault => rfl
      | ok blocks => exact congrArg Except.ok (Separable.intercalate_cons ..).symm

/-- The text of a function is that of its page. -/
theorem text_eq_page (pr : Printer) : pr.text = pr.pageText pr.page := by
  rw [text_eq, layout, page]
  split
  · refine congrArg Except.ok ?_
    simp [FunctionText.text, lineText, String.append_assoc]
  · rw [pageText_cons, pageText_append, pageText_spaced]
    cases pr.sections.mapM pr.blockText with
    | error fault => rfl
    | ok blocks =>
      refine congrArg Except.ok ?_
      simp [FunctionText.text, lineText, String.append_assoc]

/-! ### The instructions of a page -/

theorem instructions_spaced (blocks : List (List PageLine)) :
    (spaced blocks).filterMap PageLine.instruction =
      blocks.flatMap (·.filterMap PageLine.instruction) := by
  cases blocks with
  | nil => rfl
  | cons block rest =>
    rw [spaced, List.filterMap_append, List.filterMap_flatMap]
    rfl

theorem instructions_block (s : List String × Block) :
    (blockPage s).filterMap PageLine.instruction = s.2.instructions := by
  obtain ⟨cells, b⟩ := s
  have hplain : PageLine.instruction ∘ (fun cell : String => .plain ("  " ++ cell)) =
      fun _ => none := rfl
  have hops : PageLine.instruction ∘ (fun op : Op => .code (.op op)) = some ∘ Instruction.op := rfl
  rw [blockPage, List.filterMap_cons_none rfl, List.filterMap_append, List.filterMap_map, hplain,
    Block.page, List.filterMap_append, List.filterMap_map, hops, Block.instructions]
  cases b.terminator <;> simp [PageLine.instruction]

theorem sections_blocks (pr : Printer) : pr.sections.map Prod.snd = pr.function.blocks := by
  unfold sections
  cases pr.function.blocks <;> simp [Function.comp_def]

/-- The lines of a function hold its instructions, in order. -/
theorem page_instructions (pr : Printer) :
    pr.page.filterMap PageLine.instruction = pr.function.instructions := by
  rw [page, Function.instructions]
  split
  · next h =>
    rw [List.isEmpty_iff.mp h]
    rfl
  · rw [List.filterMap_cons_none rfl, List.filterMap_append, instructions_spaced, List.flatMap_map,
      ← sections_blocks, List.flatMap_map]
    simp [instructions_block, PageLine.instruction]

end Printer

/-! ## Wording -/

/-- The words stand in the text, in this order and apart from each other. -/
inductive Spells : String → List String → Prop where
  | nil (text : String) : Spells text []
  | cons (before word : String) {rest : String} {words : List String} (h : Spells rest words) :
    Spells (before ++ (word ++ rest)) (word :: words)

namespace Spells

variable {text text' : String} {words words' : List String}

theorem single (before word rest : String) : Spells (before ++ (word ++ rest)) [word] :=
  .cons before word (.nil rest)

theorem behind (h : Spells text words) (before : String) : Spells (before ++ text) words := by
  cases h with
  | nil => exact .nil _
  | cons before' word h =>
    rw [← String.append_assoc]
    exact .cons _ word h

theorem append (h : Spells text words) (h' : Spells text' words') :
    Spells (text ++ text') (words ++ words') := by
  induction h with
  | nil text => exact h'.behind text
  | cons before word h ih =>
    rw [String.append_assoc, String.append_assoc]
    exact .cons before word ih

end Spells

namespace Printer

variable {pr : Printer} {text : String}

theorem spells_word (pr : Printer) (v : Value) : Spells (pr.word v) [pr.word v] := by
  simpa using Spells.single "" (pr.word v) ""

theorem spells_typedWord (pr : Printer) (v : Value) : Spells (pr.typedWord v) [pr.word v] :=
  ((pr.spells_word v).behind " ").behind v.ty.text

theorem spells_arguments (pr : Printer) (vs : List Value) :
    Spells (", ".intercalate (vs.map pr.typedWord)) (vs.map pr.word) := by
  cases vs with
  | nil => exact .nil _
  | cons v vs =>
    rw [Separable.intercalate_cons]
    refine (pr.spells_typedWord v).append ?_
    induction vs with
    | nil => exact .nil _
    | cons v vs ih =>
      rw [List.map_cons, String.join_cons]
      exact ((pr.spells_typedWord v).behind ", ").append ih

/-- The line of an operation shows its operands. -/
theorem spells_op {op : Op} (h : pr.op op = .ok text) :
    Spells text (op.operands.map pr.word) := by
  obtain ⟨tail, htail, rfl⟩ := op_eq_ok h
  refine ((Spells.behind ?_ " ").behind op.opcode).behind (pr.start op)
  cases op with
  | load dest slot => exact .nil _
  | store value slot =>
    obtain ⟨cell, -, rfl⟩ := except_map_eq_ok.mp htail
    exact (pr.spells_typedWord value).append (.nil _)
  | binary dest op ty lhs rhs =>
    cases htail
    exact (((pr.spells_word lhs).append ((pr.spells_word rhs).behind ", ")).behind " ").behind _
  | neg dest operand =>
    cases htail
    exact ((((pr.spells_word operand).behind ", ").behind _).behind " ").behind _
  | icmp dest pred lhs rhs =>
    cases htail
    exact (((pr.spells_typedWord lhs).append ((pr.spells_word rhs).behind ", ")).behind " ").behind _
  | zext dest operand =>
    cases htail
    exact (pr.spells_typedWord operand).append (.nil _)
  | call dest callee args =>
    obtain ⟨f, -, rfl⟩ := except_map_eq_ok.mp htail
    have hargs : Spells (", ".intercalate (args.map pr.typedWord) ++ ")") (args.map pr.word) := by
      simpa using (pr.spells_arguments args).append (.nil ")")
    exact ((hargs.behind "(").behind f.name).behind "i32 @"

theorem spells_terminator {t : Terminator} (h : pr.terminator t = .ok text) :
    Spells text (t.operands.map pr.word) := by
  cases t with
  | ret value =>
    obtain rfl := ret_eq_ok h
    exact (pr.spells_typedWord value).behind _
  | br target => exact .nil _
  | condBr cond thenBlock elseBlock =>
    obtain ⟨thenLabel, elseLabel, -, -, rfl⟩ := condBr_eq_ok h
    exact ((pr.spells_typedWord cond).append (.nil _)).behind _

/-- Every line shows what its instruction takes. -/
theorem spells_line {l : PageLine} (h : pr.line l = .ok text) :
    Spells text (l.operands.map pr.word) := by
  cases l with
  | plain text => exact .nil _
  | code i =>
    obtain ⟨t, ht, rfl⟩ := except_map_eq_ok.mp h
    refine Spells.behind ?_ _
    cases i with
    | op op => exact spells_op ht
    | terminator t => exact spells_terminator ht

/-- A line that defines a result starts with it. -/
theorem line_of_dest {l : PageLine} {id : InstId} (h : pr.line l = .ok text)
    (hdest : l.dest = some id) : ∃ rest, text = "  " ++ (pr.number id ++ (" = " ++ rest)) := by
  cases l with
  | plain text => cases hdest
  | code i =>
    cases i with
    | terminator t => cases hdest
    | op op =>
      obtain ⟨t, ht, rfl⟩ := except_map_eq_ok.mp h
      obtain ⟨tail, -, rfl⟩ := op_eq_ok ht
      have hstart : pr.start op = pr.number id ++ " = " := by
        rw [start, show op.dest = some id from hdest]
        rfl
      exact ⟨_, by rw [hstart, String.append_assoc]⟩

end Printer

end Blockform
