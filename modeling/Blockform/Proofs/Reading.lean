-- SUMMARY: Programs of one text do the same (`Program.similar_of_print`), and so do the trees they are lowered from (`lower_text_runsAs`).
import Blockform.Proofs.Pages
import Blockform.Proofs.WellFormed

/-!
# Reading a text

Two programs of one text have functions of the same names, with the same
parameters, and with blocks of the same labels and lines. The lines of the slots
are told from those of the entry block, so the slots are the same as well: the
functions are parallel, and line by line their blocks do the same.
-/

namespace Blockform

/-! ## What a verified program shows -/

namespace Program.Readable

variable {p : Program} {f : Function} {b : Block}

theorem functionVerified (hp : p.Readable) (hf : f ∈ p.functions) (hb : b ∈ f.blocks) :
    f.Verified p := by
  refine verify_eq_ok.mp hp.verified f hf ?_
  simp [Function.isDeclaration, List.ne_nil_of_mem hb]

theorem operands_shown (hp : p.Readable) (hf : f ∈ p.functions) (hb : b ∈ f.blocks) {op : Op}
    (hop : op ∈ b.ops) : ∀ v ∈ op.operands, v.Shown p f := fun v hv =>
  ⟨(hp.legible f hf).operands b hb op hop v hv,
    (hp.functionVerified hf hb).operands b hb op hop v hv⟩

theorem ends_shown (hp : p.Readable) (hf : f ∈ p.functions) (hb : b ∈ f.blocks) :
    ∃ t, b.terminator = some t ∧ ∀ v ∈ t.operands, v.Shown p f := by
  obtain ⟨t, ht, hleaves⟩ := (hp.functionVerified hf hb).ends b hb
  refine ⟨t, ht, fun v hv => ⟨(hp.legible f hf).ends b hb t ht v hv, ?_⟩⟩
  cases t with
  | ret value => exact List.mem_singleton.mp hv ▸ hleaves
  | br target => cases hv
  | condBr cond thenBlock elseBlock => exact List.mem_singleton.mp hv ▸ hleaves.1

end Program.Readable

/-! ## Blocks -/

section Blocks

variable {p p' : Program} {f f' : Function}

theorem Function.Parallel.block_like (h : f.Parallel p p' f') (hf : f ∈ p.functions)
    (hf' : f' ∈ p'.functions) {b b' : Block} (hb : b ∈ f.blocks) (hb' : b' ∈ f'.blocks)
    {lines : List String} (hlines : (Printer.of p f).blockLines b = .ok lines)
    (hlines' : (Printer.of p' f').blockLines b' = .ok lines) :
    b.Like p p' (f.SamePlace f') f.blocks.length b' := by
  obtain ⟨ops, last, hops, hlast, rfl⟩ := Printer.blockLines_eq_ok.mp hlines
  obtain ⟨ops', last', hops', hlast', heq⟩ := Printer.blockLines_eq_ok.mp hlines'
  obtain ⟨rfl, hends⟩ := List.append_inj' heq rfl
  cases hends
  constructor
  · refine (forall₂_of_mapM hops hops').imp fun op op' ⟨hop, hop', t, ht, ht'⟩ => ?_
    exact h.op_like (h.program.operands_shown hf hb hop) (h.program'.operands_shown hf' hb' hop')
      (fun d hd => mem_dests hb hop hd) (fun d hd => mem_dests hb' hop' hd) ht ht'
  · obtain ⟨t, ht, hshown⟩ := h.program.ends_shown hf hb
    obtain ⟨t', ht', hshown'⟩ := h.program'.ends_shown hf' hb'
    simp only [Printer.ending, ht] at hlast
    simp only [Printer.ending, ht'] at hlast'
    exact ⟨t, t', ht, ht', h.terminator_like hshown hshown' hlast hlast'⟩

/-- Is the line that of a slot? Behind its first sign stands a name, and not a
    number. -/
def isCellLine (line : String) : Bool :=
  match line.toList with
  | '%' :: c :: _ => !c.isDigit
  | _ => false

theorem isCellLine_cells {pr : Printer} (hf : pr.function.Legible) :
    ∀ line ∈ pr.cells, isCellLine line = true := by
  intro line hline
  obtain ⟨s, hs, rfl⟩ := List.mem_map.mp hline
  obtain ⟨c, cs, hname, hdigit, -⟩ := isIdentifier_toList (hf.slots s hs)
  simp [isCellLine, hname, hdigit]

theorem isCellLine_op {pr : Printer} {op : Op} {line : String} (h : pr.op op = .ok line) :
    isCellLine line = false := by
  obtain ⟨t, -, rfl⟩ := Printer.op_eq_ok h
  have hnumber (d : InstId) (r : String) : isCellLine (pr.number d ++ r) = false := by
    obtain ⟨c, cs, hchars, hdigit⟩ := exists_digit (Function.place pr.dests d)
    unfold Printer.number
    generalize toString (Function.place pr.dests d) = digits at hchars ⊢
    simp [isCellLine, hchars, hdigit]
  unfold Printer.start
  cases hdest : op.dest with
  | none =>
    cases op with
    | store value slot => simp [Op.opcode, isCellLine]
    | _ => cases hdest
  | some d =>
    rw [Option.elim_some, String.append_assoc]
    exact hnumber d _

theorem isCellLine_terminator {pr : Printer} {t : Terminator} {line : String}
    (h : pr.terminator t = .ok line) : isCellLine line = false := by
  cases t with
  | ret value =>
    obtain rfl := Printer.ret_eq_ok h
    simp [isCellLine]
  | br target =>
    obtain ⟨label, -, rfl⟩ := Printer.br_eq_ok h
    simp [isCellLine]
  | condBr cond thenBlock elseBlock =>
    obtain ⟨thenLabel, elseLabel, -, -, rfl⟩ := Printer.condBr_eq_ok h
    simp [isCellLine]

/-- The first line behind the slots is none of a slot. -/
theorem isCellLine_blockLines (hp : p.Readable) (hf : f ∈ p.functions) {b : Block}
    (hb : b ∈ f.blocks) {lines : List String}
    (h : (Printer.of p f).blockLines b = .ok lines) :
    ∀ line ∈ lines.head?, isCellLine line = false := by
  obtain ⟨ops, last, hops, hlast, rfl⟩ := Printer.blockLines_eq_ok.mp h
  obtain ⟨t, ht, -⟩ := hp.ends_shown hf hb
  simp only [Printer.ending, ht] at hlast
  cases ops with
  | nil =>
    rintro line hline
    cases hline
    exact isCellLine_terminator hlast
  | cons first rest =>
    rintro line hline
    cases hline
    obtain ⟨op, -, hop⟩ := exists_of_mapM hops (List.mem_cons_self ..)
    exact isCellLine_op hop

/-- The blocks are written alike: they have one label, and lines that are the
    same. -/
structure BlockAlike (p p' : Program) (f f' : Function) (b b' : Block) : Prop where
  mem : b ∈ f.blocks
  mem' : b' ∈ f'.blocks
  label : b'.label = b.label
  lines : ∃ lines, (Printer.of p f).blockLines b = .ok lines ∧
    (Printer.of p' f').blockLines b' = .ok lines

/-- The lines of slots in front of a block are told from its own. -/
theorem blockAlike (hp : p.Readable) (hp' : p'.Readable) (hf : f ∈ p.functions)
    (hf' : f' ∈ p'.functions) {s s' : List String × Block} (hs : s ∈ (Printer.of p f).sections)
    (hs' : s' ∈ (Printer.of p' f').sections) {t : BlockText}
    (ht : (Printer.of p f).blockText s = .ok t) (ht' : (Printer.of p' f').blockText s' = .ok t) :
    s'.1 = s.1 ∧ BlockAlike p p' f f' s.2 s'.2 := by
  obtain ⟨lines, hlines, rfl⟩ := except_map_eq_ok.mp ht
  obtain ⟨lines', hlines', heq⟩ := except_map_eq_ok.mp ht'
  obtain ⟨hlabel, hall⟩ := BlockText.mk.inj heq
  obtain ⟨hcells, hb⟩ := Printer.mem_sections hs
  obtain ⟨hcells', hb'⟩ := Printer.mem_sections hs'
  have hfront {pr : Printer} (hf : pr.function.Legible) {cells : List String}
      (h : cells = pr.cells ∨ cells = []) : ∀ line ∈ cells, isCellLine line = true := by
    rcases h with rfl | rfl
    · exact isCellLine_cells hf
    · exact nofun
  obtain ⟨hcells, rfl⟩ := span_unique (hfront (hp'.legible f' hf') hcells')
    (hfront (hp.legible f hf) hcells) (isCellLine_blockLines hp' hf' hb' hlines')
    (isCellLine_blockLines hp hf hb hlines) hall
  exact ⟨hcells, hb, hb', hlabel, lines', hlines, hlines'⟩

end Blocks

/-! ## Functions -/

section Functions

variable {p p' : Program} {f f' : Function}

theorem Printer.sections_cons {pr : Printer} {first : Block} {rest : List Block}
    (h : pr.function.blocks = first :: rest) :
    pr.sections = (pr.cells, first) :: rest.map fun b => ([], b) := by
  rw [sections, h]

theorem Printer.cells_inj {pr pr' : Printer} (h : pr'.cells = pr.cells) :
    pr'.function.slots = pr.function.slots := by
  refine List.map_injective_iff.mpr (fun s s' heq => ?_) h
  have hname : s.name = s'.name := by simpa using heq
  cases s
  cases hname
  rfl

/-- A head tells the name of a function. -/
theorem head_inj (hf : f.Legible) (hf' : f'.Legible)
    (h : f'.name ++ (Printer.of p' f').signatureText = f.name ++ (Printer.of p f).signatureText) :
    f'.name = f.name ∧ (Printer.of p' f').signatureText = (Printer.of p f).signatureText := by
  have hbracket (pr : Printer) : Breaks pr.signatureText := by
    simp only [Printer.signatureText]
    split <;> exact breaks_append (by decide) _
  exact (solid_of_isIdentifier hf'.name).unique (solid_of_isIdentifier hf.name) (hbracket _)
    (hbracket _) h

/-- What stands behind the name tells the parameters of a function with a body. -/
theorem params_of_signatureText (hf : f.Legible) (hf' : f'.Legible)
    (hbody : f.isDeclaration = false) (hbody' : f'.isDeclaration = false)
    (h : (Printer.of p' f').signatureText = (Printer.of p f).signatureText) :
    f'.params = f.params := by
  have hpieces (params : List String) : (params.map fun name => "i32 %" ++ name) =
      (params.map fun name => ("i32", "%" ++ name)).map typedText := by
    simp [typedText, ← String.append_assoc]
  have hsolid {f : Function} (hf : f.Legible) :
      ∀ t ∈ f.params.map fun name => ("i32", "%" ++ name), Solid t.1 ∧ Solid t.2 := by
    intro t ht
    obtain ⟨name, hname, rfl⟩ := List.mem_map.mp ht
    have hsign : Solid "%" := by decide
    exact ⟨(by decide : Solid "i32"), hsign.append (solid_of_isIdentifier (hf.params name hname))⟩
  have hend : Finishes ") \x7b" := rfl
  have hfunction (p : Program) (f : Function) : (Printer.of p f).function = f := rfl
  simp only [Printer.signatureText, hfunction, hbody, hbody', Bool.false_eq_true, if_false,
    String.append_right_inj, hpieces] at h
  obtain ⟨hlists, -⟩ := separable_operands.intercalate_unique typedText_ne (hsolid hf') (hsolid hf)
    hend hend h
  refine List.map_injective_iff.mpr (fun name name' heq => ?_) hlists
  simpa using heq

/-- Functions with blocks that are written alike are parallel. -/
theorem parallel_of_sections (hp : p.Readable) (hp' : p'.Readable) (hf : f ∈ p.functions)
    (hf' : f' ∈ p'.functions) (hbody : f.isDeclaration = false) (hparams : f'.params = f.params)
    (h : List.Forall₂ (fun s s' => s'.1 = s.1 ∧ BlockAlike p p' f f' s.2 s'.2)
      (Printer.of p f).sections (Printer.of p' f').sections) :
    f.Parallel p p' f' ∧ List.Forall₂ (BlockAlike p p' f f') f.blocks f'.blocks := by
  have hblocks : List.Forall₂ (BlockAlike p p' f f') ((Printer.of p f).sections.map Prod.snd)
      ((Printer.of p' f').sections.map Prod.snd) :=
    List.forall₂_map_left_iff.mpr (List.forall₂_map_right_iff.mpr (h.imp fun _ _ hs => hs.2))
  rw [Printer.sections_blocks, Printer.sections_blocks] at hblocks
  have hlabels : f.blocks.map Block.label = f'.blocks.map Block.label :=
    map_eq_of_forall₂ (hblocks.imp fun _ _ hb => hb.label.symm)
  have hcells : (Printer.of p' f').cells = (Printer.of p f).cells := by
    cases hfirst : f.blocks with
    | nil => simp [Function.isDeclaration, hfirst] at hbody
    | cons first rest =>
      cases hfirst' : f'.blocks with
      | nil =>
        rw [hfirst, hfirst'] at hlabels
        cases hlabels
      | cons first' rest' =>
        rw [Printer.sections_cons hfirst, Printer.sections_cons hfirst'] at h
        cases h with
        | cons hhead _ => exact hhead.1
  exact ⟨⟨hp, hp', hp.legible f hf, hp'.legible f' hf', hparams, Printer.cells_inj hcells,
    hlabels.symm⟩, hblocks⟩

/-- Functions with bodies that are written alike are similar. -/
theorem similar_of_blockTexts (hp : p.Readable) (hp' : p'.Readable) (hf : f ∈ p.functions)
    (hf' : f' ∈ p'.functions) (hbody : f.isDeclaration = false) (hname : f'.name = f.name)
    (hparams : f'.params = f.params) {blocks : List BlockText}
    (h : (Printer.of p f).sections.mapM (Printer.of p f).blockText = .ok blocks)
    (h' : (Printer.of p' f').sections.mapM (Printer.of p' f').blockText = .ok blocks) :
    f.Similar p p' f' := by
  have hsections := (forall₂_of_mapM h h').imp fun s s' ⟨hs, hs', t, ht, ht'⟩ =>
    blockAlike hp hp' hf hf' hs hs' ht ht'
  obtain ⟨hparallel, halike⟩ := parallel_of_sections hp hp' hf hf' hbody hparams hsections
  have hne : f.blocks ≠ [] := by simpa [Function.isDeclaration] using hbody
  refine .built (List.length_pos_of_ne_nil hne) ⟨f.samePlace_biUnique f', hname, hparams,
    congrArg List.length hparallel.slots, fun i hi => ?_⟩
  have hi' : i < f'.blocks.length := halike.length_eq ▸ hi
  have hb : BlockAlike p p' f f' f.blocks[i] f'.blocks[i] := halike.get hi hi'
  obtain ⟨lines, hlines, hlines'⟩ := hb.lines
  exact ⟨_, _, List.getElem?_eq_getElem hi, List.getElem?_eq_getElem hi',
    hparallel.block_like hf hf' hb.mem hb.mem' hlines hlines'⟩

/-- Functions of one layout are similar. -/
theorem similar_of_layout (hp : p.Readable) (hp' : p'.Readable) (hf : f ∈ p.functions)
    (hf' : f' ∈ p'.functions) {t : FunctionText} (ht : (Printer.of p f).layout = .ok t)
    (ht' : (Printer.of p' f').layout = .ok t) : f'.name = f.name ∧ f.Similar p p' f' := by
  rcases Printer.layout_eq_ok.mp ht with ⟨hbody, rfl⟩ | ⟨hbody, blocks, hblocks, rfl⟩
  · rcases Printer.layout_eq_ok.mp ht' with ⟨hbody', heq⟩ | ⟨-, _, -, heq⟩
    · obtain ⟨hname, -⟩ :=
        head_inj (hp.legible f hf) (hp'.legible f' hf') (FunctionText.declared.inj heq).symm
      exact ⟨hname, .declared hname (List.isEmpty_iff.mp hbody) (List.isEmpty_iff.mp hbody')⟩
    · cases heq
  · rcases Printer.layout_eq_ok.mp ht' with ⟨-, heq⟩ | ⟨hbody', blocks', hblocks', heq⟩
    · cases heq
    · obtain ⟨hhead, rfl⟩ := FunctionText.defined.inj heq
      obtain ⟨hname, hsignature⟩ := head_inj (hp.legible f hf) (hp'.legible f' hf') hhead.symm
      have hparams := params_of_signatureText (hp.legible f hf) (hp'.legible f' hf') hbody hbody'
        hsignature
      exact ⟨hname, similar_of_blockTexts hp hp' hf hf' hbody hname hparams hblocks hblocks'⟩

end Functions

/-! ## Programs -/

theorem Program.lookup_of_names {p p' : Program}
    (h : p.functions.map Function.name = p'.functions.map Function.name) (name : String) :
    p.lookup name = p'.lookup name := by
  have hmap (p : Program) : p.lookup name =
      ((p.functions.map Function.name).findIdx? (· = name)).map FunctionId.mk := by
    rw [lookup_eq, List.findIdx?_map]
    rfl
  rw [hmap, hmap, h]

/-- Programs of one text do the same. -/
theorem Program.similar_of_print {p p' : Program} (hp : p.Readable) (hp' : p'.Readable)
    {text : String} (h : p.print = .ok text) (h' : p'.print = .ok text) : p.Similar p' := by
  have hlayouts := layouts_of_print hp.legible hp'.legible h h'
  have hfunctions := hlayouts.imp fun f f' ⟨hf, hf', t, ht, ht'⟩ =>
    similar_of_layout hp hp' hf hf' ht ht'
  have hnames : p.functions.map Function.name = p'.functions.map Function.name :=
    map_eq_of_forall₂ (hfunctions.imp fun _ _ hf => hf.1.symm)
  refine ⟨fun name => ?_, fun id id' ⟨name, hid, hid'⟩ => ?_⟩
  · rw [lookup_of_names hnames]
  · rw [← lookup_of_names hnames, hid] at hid'
    cases hid'
    have hlt := lookup_lt hid
    have hlt' : id.val < p'.functions.length := hfunctions.length_eq ▸ hlt
    exact ⟨_, _, List.getElem?_eq_getElem hlt, List.getElem?_eq_getElem hlt',
      (hfunctions.get hlt hlt').2⟩

/-! ## Trees -/

theorem lower_readable {tree : Node} {options : LowerOptions} {p : Program} (htree : tree.WellNamed)
    (hoptions : options.WellNamed) (h : lower tree options = .ok p) : p.Readable :=
  ⟨lower_legible htree hoptions h, lower_distinct h, lower_verify h⟩

/-- The text of a program tells what it does: where all names are identifiers, trees
    that are lowered to programs of one text give programs that run as each
    other. -/
theorem lower_text_runsAs {tree tree' : Node} {options options' : LowerOptions} {p p' : Program}
    (htree : tree.WellNamed) (htree' : tree'.WellNamed) (hoptions : options.WellNamed)
    (hoptions' : options'.WellNamed) (h : lower tree options = .ok p)
    (h' : lower tree' options' = .ok p') {text : String} (htext : p.print = .ok text)
    (htext' : p'.print = .ok text) : p.RunsAs p' := by
  have hp := lower_readable htree hoptions h
  have hp' := lower_readable htree' hoptions' h'
  exact (Program.similar_of_print hp hp' htext htext').runsAs hp.verified

/-- A tree that returns a value in which there may be a variable. -/
def returning (value : Node) : Node := .module [.assign "x" (.int 3), .ret value]

theorem wellNamed_x : (Node.name "x").WellNamed :=
  .mk (List.forall_mem_singleton.mpr (by decide +kernel)) nofun

theorem wellNamed_int (n : Int64) : (Node.int n).WellNamed := .mk nofun nofun

theorem returning_wellNamed {value : Node} (h : value.WellNamed) : (returning value).WellNamed := by
  have hassign : (Node.assign "x" (.int 3)).WellNamed := by
    refine .mk nofun (List.forall_mem_cons.mpr ⟨wellNamed_x, ?_⟩)
    exact List.forall_mem_singleton.mpr (wellNamed_int 3)
  have hret : (Node.ret value).WellNamed := .mk nofun (List.forall_mem_singleton.mpr h)
  exact .mk nofun (List.forall_mem_cons.mpr ⟨hassign, List.forall_mem_singleton.mpr hret⟩)

/-- A tree that negates a variable. -/
def negating : Node := returning (.neg (.name "x"))

/-- A tree that subtracts the variable from zero. -/
def subtracting : Node := returning (.binop (.int 0) .sub (.name "x"))

/-- The text of both. -/
def negatingText : String :=
  "declare i32 @print(i32)\n\ndefine i32 @main() \x7b\nentry:\n" ++
    "  %x.addr = alloca i32\n  store i32 3, i32* %x.addr\n  %0 = load i32, i32* %x.addr\n" ++
    "  %1 = sub i32 0, %0\n  ret i32 %1\n\x7d\n"

theorem negating_runsAs :
    ∃ p p', lower negating {} = .ok p ∧ lower subtracting {} = .ok p' ∧ p ≠ p' ∧
      p.print = .ok negatingText ∧ p'.print = .ok negatingText ∧ p.RunsAs p' := by
  have hnegating : negating.WellNamed :=
    returning_wellNamed (.mk nofun (List.forall_mem_singleton.mpr wellNamed_x))
  have hsubtracting : subtracting.WellNamed := by
    refine returning_wellNamed (.mk nofun (List.forall_mem_cons.mpr ⟨wellNamed_int 0, ?_⟩))
    exact List.forall_mem_singleton.mpr wellNamed_x
  have hoptions : LowerOptions.WellNamed {} := ⟨by decide +kernel, by decide +kernel⟩
  have hprinted : (lower negating {}).toOption.map Program.print = some (.ok negatingText) ∧
      (lower subtracting {}).toOption.map Program.print = some (.ok negatingText) := by
    decide +kernel
  have hdiffer : (lower negating {}).toOption ≠ (lower subtracting {}).toOption := by
    decide +kernel
  cases h : lower negating {} with
  | error e =>
    rw [h] at hprinted
    cases hprinted.1
  | ok p =>
    cases h' : lower subtracting {} with
    | error e =>
      rw [h'] at hprinted
      cases hprinted.2
    | ok p' =>
      rw [h, h'] at hdiffer hprinted
      have htext : p.print = .ok negatingText := Option.some.inj hprinted.1
      have htext' : p'.print = .ok negatingText := Option.some.inj hprinted.2
      refine ⟨p, p', rfl, rfl, fun heq => hdiffer (congrArg some heq), htext, htext', ?_⟩
      exact lower_text_runsAs hnegating hsubtracting hoptions hoptions h h' htext htext'

end Blockform
