-- SUMMARY: The text of a program as functions, blocks and lines (`FunctionText`), and that these can be told from it (`Program.layouts_of_print`).
import Blockform.Proofs.Legibility
import Blockform.Proofs.Safety
import Mathlib.Data.List.Forall2

/-!
# The layout of a text

A function is written as a head and blocks, and a block as a label and lines.
The text of a program that can be read gives all of these back: lines end where
the next one begins, and only the lines of a block are indented, so that a block
ends at a line that is not, and a function where its last block does.
-/

namespace Blockform

/-! ## Forms -/

/-- A block as it is written: its label and the lines behind it. -/
structure BlockText where
  label : String
  lines : List String

/-- A function as it is written: what stands behind the `@` of its first line, and
    its blocks. -/
inductive FunctionText where
  | declared (head : String)
  | defined (head : String) (blocks : List BlockText)

/-- The text of a line. -/
def lineText (line : String) : String := line ++ "\n"

/-- The text of the block. -/
def BlockText.text (b : BlockText) : String :=
  b.label ++ (":\n" ++ String.join (b.lines.map fun line => "  " ++ lineText line))

/-- The text of the function. -/
def FunctionText.text : FunctionText → String
  | .declared head => "declare i32 @" ++ lineText head
  | .defined head blocks =>
    "define i32 @" ++ (lineText head ++ ("\n".intercalate (blocks.map BlockText.text) ++ "\x7d\n"))

/-- The label of the block is one piece, and its lines are lines. -/
structure BlockText.Plain (b : BlockText) : Prop where
  label : Solid b.label
  lines : ∀ line ∈ b.lines, Unbroken line

/-- The head of the function is a line, and its blocks are plain. -/
def FunctionText.Plain : FunctionText → Prop
  | .declared head => Unbroken head
  | .defined head blocks => Unbroken head ∧ ∀ b ∈ blocks, b.Plain

/-! ## Reading the forms -/

/-- What stands behind a block: anything but another line of it. -/
def Outdents (r : String) : Prop := r.toList.head? ≠ some ' '

/-- The end of a function with a body. -/
def Closes (r : String) : Prop := r.toList.head? = some '}'

theorem lineText_unique {line line' r r' : String} (h : Unbroken line) (h' : Unbroken line')
    (heq : lineText line ++ r = lineText line' ++ r') : line = line' ∧ r = r' := by
  rw [lineText, lineText, String.append_assoc, String.append_assoc] at heq
  exact h.unique h' heq

theorem separable_lines :
    Separable "  " lineText Unbroken (fun _ => True) Outdents where
  item h h' _ _ heq := lineText_unique h h' heq
  separator _ := trivial
  stop _ := trivial
  diff r' hr heq := hr (by simp [heq])

theorem BlockText.text_unique {b b' : BlockText} {r r' : String} (h : b.Plain) (h' : b'.Plain)
    (hr : Outdents r) (hr' : Outdents r') (heq : b.text ++ r = b'.text ++ r') :
    b = b' ∧ r = r' := by
  have hcolon (x : String) : Breaks (":\n" ++ x) := breaks_append (by decide) x
  simp only [BlockText.text, String.append_assoc] at heq
  obtain ⟨hlabel, hlines⟩ := h.label.unique h'.label (hcolon _) (hcolon _) heq
  obtain ⟨hlines, hrest⟩ := separable_lines.adjacent.join_unique h.lines h'.lines hr hr'
    ((String.append_right_inj _).mp hlines)
  obtain ⟨label, lines⟩ := b
  obtain ⟨label', lines'⟩ := b'
  cases hlabel
  cases hlines
  exact ⟨rfl, hrest⟩

theorem separable_blocks :
    Separable "\n" BlockText.text BlockText.Plain Outdents Closes where
  item h h' hr hr' heq := BlockText.text_unique h h' hr hr' heq
  separator r := by simp [Outdents]
  stop hr := by simp [Outdents, show _ = _ from hr]
  diff r' hr heq := by simp [Closes, heq] at hr

/-- No label starts as a function ends. -/
theorem BlockText.text_ne {b : BlockText} {r : String} (r' : String) (h : b.Plain)
    (hr : Closes r) : r ≠ b.text ++ r' := by
  rintro rfl
  simp only [Closes, BlockText.text, String.append_assoc] at hr
  exact absurd hr (h.label.head?_append_ne (by decide) (by simp))

theorem FunctionText.text_unique {f f' : FunctionText} {r r' : String} (h : f.Plain)
    (h' : f'.Plain) (heq : f.text ++ r = f'.text ++ r') : f = f' ∧ r = r' := by
  cases f with
  | declared head =>
    cases f' with
    | declared head' =>
      simp only [FunctionText.text, String.append_assoc, String.append_right_inj] at heq
      obtain ⟨rfl, hrest⟩ := lineText_unique h h' heq
      exact ⟨rfl, hrest⟩
    | defined head' blocks' =>
      have hlist := congrArg String.toList heq
      simp [FunctionText.text] at hlist
  | defined head blocks =>
    cases f' with
    | declared head' =>
      have hlist := congrArg String.toList heq
      simp [FunctionText.text] at hlist
    | defined head' blocks' =>
      have hcloses (x : String) : Closes ("\x7d\n" ++ x) := by simp [Closes]
      simp only [FunctionText.text, String.append_assoc, String.append_right_inj] at heq
      obtain ⟨rfl, hbody⟩ := lineText_unique h.1 h'.1 heq
      obtain ⟨rfl, hrest⟩ := separable_blocks.intercalate_unique BlockText.text_ne h.2 h'.2
        (hcloses r) (hcloses r') hbody
      exact ⟨rfl, (String.append_right_inj _).mp hrest⟩

theorem separable_functions :
    Separable "\n" FunctionText.text FunctionText.Plain (fun _ => True) (· = "") where
  item h h' _ _ heq := FunctionText.text_unique h h' heq
  separator _ := trivial
  stop _ := trivial
  diff r' hr heq := by
    have hlist := congrArg String.toList (hr.symm.trans heq)
    simp at hlist

theorem FunctionText.text_ne {f : FunctionText} {r : String} (r' : String) (h : f.Plain)
    (hr : r = "") : r ≠ f.text ++ r' := by
  intro heq
  have hlist := congrArg String.toList (hr.symm.trans heq)
  cases f <;> simp [FunctionText.text] at hlist

/-! ## Operands -/

/-- A type and what is of it. -/
def typedText (t : String × String) : String := t.1 ++ (" " ++ t.2)

/-- The end of a list of operands. -/
def Finishes (r : String) : Prop := r.toList.head? = some ')'

theorem separable_operands :
    Separable ", " typedText (fun t => Solid t.1 ∧ Solid t.2) Breaks Finishes where
  item := by
    rintro ⟨ty, v⟩ ⟨ty', v'⟩ r r' ⟨hty, hv⟩ ⟨hty', hv'⟩ hr hr' heq
    have hblank (x : String) : Breaks (" " ++ x) := breaks_append (by decide) x
    simp only [typedText, String.append_assoc] at heq
    obtain ⟨rfl, hrest⟩ := hty.unique hty' (hblank _) (hblank _) heq
    obtain ⟨rfl, hend⟩ := hv.unique hv' hr hr' ((String.append_right_inj _).mp hrest)
    exact ⟨rfl, hend⟩
  separator r := breaks_append (by decide) r
  stop hr := by
    intro c hc
    cases (show _ = _ from hr).symm.trans hc
    decide
  diff r' hr heq := by simp [Finishes, heq] at hr

/-- No operand starts as a list of them ends. -/
theorem typedText_ne {t : String × String} {r : String} (r' : String) (h : Solid t.1 ∧ Solid t.2)
    (hr : Finishes r) : r ≠ typedText t ++ r' := by
  rintro rfl
  simp only [Finishes, typedText, String.append_assoc] at hr
  exact absurd hr (h.1.head?_append_ne (by decide) (by simp))

/-! ## Operations -/

/-- The word that says what the operation does. -/
def Op.opcode : Op → String
  | .load .. => "load"
  | .store .. => "store"
  | .binary _ op .. => op.mnemonic
  | .neg .. => "sub"
  | .icmp .. => "icmp"
  | .zext .. => "zext"
  | .call .. => "call"

/-- All words that operations are written with. -/
def opcodes : List String :=
  ["load", "store", "icmp", "zext", "call"] ++ BinaryOp.all.map BinaryOp.mnemonic

theorem Op.opcode_mem (op : Op) : op.opcode ∈ opcodes := by
  cases op with
  | binary d op => cases op <;> simp [opcode, opcodes, BinaryOp.all]
  | _ => simp [opcode, opcodes, BinaryOp.all, BinaryOp.mnemonic]

theorem Op.solid_opcode (op : Op) : Solid op.opcode := by
  have hall : ∀ word ∈ opcodes, Solid word := by decide +kernel
  exact hall _ op.opcode_mem

/-! ## Layouts -/

section
variable {ε α β γ : Type} {f : α → Except ε β} {l : List α} {bs : List β}

theorem mapM_map (f : α → Except ε β) (g : β → γ) (l : List α) :
    (l.mapM fun a => (f a).map g) = (l.mapM f).map (List.map g) := by
  induction l with
  | nil => rfl
  | cons a l ih =>
    rw [List.mapM_cons, List.mapM_cons, ih]
    cases f a with
    | error e => rfl
    | ok b => cases l.mapM f <;> rfl

theorem mapM_eq_ok : l.mapM f = .ok bs ↔ l.map f = bs.map .ok := by
  induction l generalizing bs with
  | nil => cases bs <;> simp [pure, Except.pure]
  | cons a l ih =>
    rw [List.mapM_cons, except_bind_eq_ok]
    simp only [except_bind_eq_ok, ih]
    cases bs with
    | nil => simp [pure, Except.pure]
    | cons b bs => simp [pure, Except.pure]

theorem exists_of_mapM (h : l.mapM f = .ok bs) {b : β} (hb : b ∈ bs) : ∃ a ∈ l, f a = .ok b := by
  have hmem : .ok b ∈ l.map f := mapM_eq_ok.mp h ▸ List.mem_map_of_mem hb
  exact List.mem_map.mp hmem

end

/-- Lists that are mapped to the same have members that are. -/
theorem forall₂_of_map_eq {α β γ : Type} {f : α → γ} {g : β → γ} {l : List α} {l' : List β}
    (h : l.map f = l'.map g) :
    List.Forall₂ (fun a b => a ∈ l ∧ b ∈ l' ∧ f a = g b) l l' := by
  induction l generalizing l' with
  | nil =>
    cases List.map_eq_nil_iff.mp h.symm
    exact .nil
  | cons a l ih =>
    cases l' with
    | nil => cases h
    | cons b l' =>
      obtain ⟨hab, hrest⟩ := List.cons.inj h
      refine .cons ⟨List.mem_cons_self .., List.mem_cons_self .., hab⟩ ?_
      refine (ih hrest).imp fun a' b' ⟨ha', hb', hsame⟩ => ?_
      exact ⟨List.mem_cons_of_mem _ ha', List.mem_cons_of_mem _ hb', hsame⟩

theorem map_eq_of_forall₂ {α β γ : Type} {f : α → γ} {g : β → γ} {l : List α} {l' : List β}
    (h : List.Forall₂ (fun a b => f a = g b) l l') : l.map f = l'.map g := by
  have hmap : List.Forall₂ Eq (l.map f) (l'.map g) :=
    List.forall₂_map_left_iff.mpr (List.forall₂_map_right_iff.mpr h)
  rwa [List.forall₂_eq_eq_eq] at hmap

theorem forall₂_of_mapM {ε α β γ : Type} {f : α → Except ε γ} {g : β → Except ε γ} {l : List α}
    {l' : List β} {cs : List γ} (h : l.mapM f = .ok cs) (h' : l'.mapM g = .ok cs) :
    List.Forall₂ (fun a b => a ∈ l ∧ b ∈ l' ∧ ∃ c, f a = .ok c ∧ g b = .ok c) l l' := by
  have hsame : l.map f = l'.map g := (mapM_eq_ok.mp h).trans (mapM_eq_ok.mp h').symm
  refine (forall₂_of_map_eq hsame).imp fun a b ⟨ha, hb, hab⟩ => ⟨ha, hb, ?_⟩
  have hmem : f a ∈ cs.map .ok := mapM_eq_ok.mp h ▸ List.mem_map_of_mem ha
  obtain ⟨c, -, hc⟩ := List.mem_map.mp hmem
  exact ⟨c, hc.symm, hab.symm.trans hc.symm⟩

namespace Printer

variable {pr : Printer}

/-- The lines of the slots. -/
def cells (pr : Printer) : List String :=
  pr.function.slots.map fun s => "%" ++ s.name ++ ".addr = alloca i32"

/-- The blocks, each with the lines that stand in front of its operations. -/
def sections (pr : Printer) : List (List String × Block) :=
  match pr.function.blocks with
  | [] => []
  | first :: rest => (pr.cells, first) :: rest.map fun b => ([], b)

/-- A block with lines in front of its operations. -/
def blockText (pr : Printer) (s : List String × Block) : Except Fault BlockText :=
  (pr.blockLines s.2).map fun lines => ⟨s.2.label, s.1 ++ lines⟩

/-- What stands behind the name of the function in its first line. -/
def signatureText (pr : Printer) : String :=
  let f := pr.function
  if f.isDeclaration then "(" ++ (", ".intercalate (List.replicate f.signature.arity "i32") ++ ")")
  else "(" ++ (", ".intercalate (f.params.map fun p => "i32 %" ++ p) ++ ") \x7b")

/-- The function as it is written. -/
def layout (pr : Printer) : Except Fault FunctionText :=
  let head := pr.function.name ++ pr.signatureText
  if pr.function.isDeclaration then .ok (.declared head)
  else (pr.sections.mapM pr.blockText).map (.defined head)

theorem block_eq (cells : List String) (b : Block) :
    pr.block cells b = (pr.blockText (cells, b)).map BlockText.text := by
  unfold block blockText
  cases pr.blockLines b with
  | error fault => rfl
  | ok lines =>
    refine congrArg Except.ok ?_
    simp [BlockText.text, lineText, String.append_assoc]

theorem blocks_eq :
    pr.blocks = (pr.sections.mapM pr.blockText).map (List.map BlockText.text) := by
  rw [← mapM_map]
  unfold blocks sections
  cases pr.function.blocks with
  | nil => rfl
  | cons first rest =>
    have hrest : pr.block [] = (fun s => (pr.blockText s).map BlockText.text) ∘ fun b => ([], b) :=
      funext (block_eq [])
    simp only [List.mapM_cons, List.mapM_map, ← block_eq, hrest]
    rfl

theorem text_eq : pr.text = pr.layout.map FunctionText.text := by
  simp only [text, layout, signatureText, blocks_eq]
  split
  · refine congrArg Except.ok ?_
    simp [FunctionText.text, lineText, String.append_assoc]
  · cases pr.sections.mapM pr.blockText with
    | error fault => rfl
    | ok blocks =>
      refine congrArg Except.ok ?_
      simp [FunctionText.text, lineText, String.append_assoc]

/-! ### Words -/

/-- A result as it is written. -/
def number (pr : Printer) (id : InstId) : String := "%" ++ toString (Function.place pr.dests id)

/-- A value as it is written. -/
def word (pr : Printer) : Value → String
  | .const .i1 value => flagText (value != 0)
  | .const .i32 value => toString value
  | .param index =>
    match pr.function.params[index]? with
    | some name => "%" ++ name
    | none => "%arg" ++ toString index
  | .inst id _ => pr.number id

/-- A value with its type, as it is written. -/
def typedWord (pr : Printer) (v : Value) : String := v.ty.text ++ (" " ++ pr.word v)

section
variable {id : InstId} {v : Value} {t : String}

/-- A result is written if its number can be counted. -/
theorem result_eq_ok :
    pr.result id = .ok t ↔
      pr.dests.eraseDups.length + id.val < UInt64.size ∧ t = pr.number id := by
  unfold result Function.printedNumber number
  split
  · next h => exact ⟨fun heq => ⟨h, (Except.ok.inj heq).symm⟩, fun heq => heq.2 ▸ rfl⟩
  · next h => exact ⟨nofun, fun heq => absurd heq.1 h⟩

theorem value_eq_ok (h : pr.value v = .ok t) : t = pr.word v := by
  cases v with
  | const ty n => cases ty <;> exact (Except.ok.inj h).symm
  | param index =>
    simp only [value, word] at h ⊢
    cases hname : pr.function.params[index]? <;> simp only [hname] at h ⊢ <;>
      exact (Except.ok.inj h).symm
  | inst id ty => exact (result_eq_ok.mp h).2

theorem typed_eq_ok (h : pr.typed v = .ok t) : t = pr.typedWord v := by
  obtain ⟨word, hword, h⟩ := except_bind_eq_ok.mp h
  rw [← Except.ok.inj h, value_eq_ok hword]
  exact String.append_assoc ..

theorem typeds_eq_ok {vs : List Value} {ts : List String} (h : vs.mapM pr.typed = .ok ts) :
    ts = vs.map pr.typedWord := by
  induction vs generalizing ts with
  | nil => exact (Except.ok.inj h).symm
  | cons v vs ih =>
    rw [List.mapM_cons] at h
    obtain ⟨t, ht, h⟩ := except_bind_eq_ok.mp h
    obtain ⟨ts', hts, h⟩ := except_bind_eq_ok.mp h
    rw [← Except.ok.inj h, typed_eq_ok ht, ih hts, List.map_cons]

theorem dest_eq_ok (h : pr.dest id = .ok t) : t = pr.number id ++ " = " := by
  obtain ⟨number, hnumber, h⟩ := except_bind_eq_ok.mp h
  rw [← Except.ok.inj h, (result_eq_ok.mp hnumber).2]

theorem cell_eq_ok {slot : SlotId} :
    pr.cell slot = .ok t ↔
      ∃ s, pr.function.slot? slot = some s ∧ t = "i32* %" ++ (s.name ++ ".addr") := by
  unfold cell
  rw [except_bind_eq_ok]
  refine exists_congr fun s => and_congr entryOf_eq_ok ?_
  simp [pure, Except.pure, eq_comm, String.append_assoc]

theorem target_eq_ok {target : BlockId} :
    pr.target target = .ok t ↔
      ∃ b, pr.function.block? target = some b ∧ t = "label %" ++ b.label := by
  unfold Printer.target
  rw [except_bind_eq_ok]
  refine exists_congr fun b => and_congr entryOf_eq_ok ?_
  simp [pure, Except.pure, eq_comm]

end

/-! ### Pieces of lines -/

/-- A parameter is written by its name. -/
theorem word_param {name : String} {index : Nat}
    (h : pr.function.params.findIdx? (· = name) = some index) :
    pr.word (.param index) = "%" ++ name := by
  obtain ⟨hlt, hname, -⟩ := List.findIdx?_eq_some_iff_getElem.mp h
  have hget : pr.function.params[index]? = some name := by
    rw [List.getElem?_eq_getElem hlt, of_decide_eq_true hname]
  simp only [word, hget]

theorem mem_params_of_findIdx? {params : List String} {name : String} {index : Nat}
    (h : params.findIdx? (· = name) = some index) : name ∈ params := by
  obtain ⟨hlt, hname, -⟩ := List.findIdx?_eq_some_iff_getElem.mp h
  exact of_decide_eq_true hname ▸ List.getElem_mem hlt

theorem solid_number (id : InstId) : Solid (pr.number id) :=
  .append (by decide) (solid_toString _)

theorem solid_type (ty : Ty) : Solid ty.text := by cases ty <;> decide

/-! ### Operations -/

/-- What stands in front of the word of an operation: its result, if it has one. -/
def start (pr : Printer) (op : Op) : String := op.dest.elim "" fun id => pr.number id ++ " = "

/-- What stands behind the word of an operation. -/
def tail (pr : Printer) : Op → Except Fault String
  | .load _ slot => (pr.cell slot).map ("i32, " ++ ·)
  | .store value slot => (pr.cell slot).map fun cell => pr.typedWord value ++ (", " ++ cell)
  | .binary _ _ ty lhs rhs =>
    .ok (ty.text ++ (" " ++ (pr.word lhs ++ (", " ++ pr.word rhs))))
  | .neg _ operand =>
    .ok (Ty.i32.text ++ (" " ++ (pr.word (.const .i32 0) ++ (", " ++ pr.word operand))))
  | .icmp _ pred lhs rhs =>
    .ok (pred.mnemonic ++ (" " ++ (pr.typedWord lhs ++ (", " ++ pr.word rhs))))
  | .zext _ operand => .ok (pr.typedWord operand ++ " to i32")
  | .call _ callee args => (entryOf (pr.program.function? callee)).map fun f =>
    "i32 @" ++ (f.name ++ ("(" ++ (", ".intercalate (args.map pr.typedWord) ++ ")")))

/-- A line is the result, the word and what stands behind it. -/
theorem op_eq_ok {op : Op} {t : String} (h : pr.op op = .ok t) :
    ∃ tail, pr.tail op = .ok tail ∧ t = pr.start op ++ (op.opcode ++ (" " ++ tail)) := by
  cases op with
  | load dest slot =>
    obtain ⟨result, hresult, h⟩ := except_bind_eq_ok.mp h
    obtain ⟨cell, hcell, h⟩ := except_bind_eq_ok.mp h
    obtain rfl := dest_eq_ok hresult
    refine ⟨_, congrArg (Except.map _) hcell, ?_⟩
    exact (Except.ok.inj h).symm.trans (String.toList_inj.mp (by simp [start, Op.dest, Op.opcode]))
  | store value slot =>
    obtain ⟨typed, htyped, h⟩ := except_bind_eq_ok.mp h
    obtain ⟨cell, hcell, h⟩ := except_bind_eq_ok.mp h
    obtain rfl := typed_eq_ok htyped
    refine ⟨_, congrArg (Except.map _) hcell, ?_⟩
    exact (Except.ok.inj h).symm.trans (String.toList_inj.mp (by simp [start, Op.dest, Op.opcode]))
  | binary dest op ty lhs rhs =>
    obtain ⟨result, hresult, h⟩ := except_bind_eq_ok.mp h
    obtain ⟨left, hleft, h⟩ := except_bind_eq_ok.mp h
    obtain ⟨right, hright, h⟩ := except_bind_eq_ok.mp h
    obtain rfl := dest_eq_ok hresult
    obtain rfl := value_eq_ok hleft
    obtain rfl := value_eq_ok hright
    refine ⟨_, rfl, ?_⟩
    exact (Except.ok.inj h).symm.trans (String.toList_inj.mp (by simp [start, Op.dest, Op.opcode]))
  | neg dest operand =>
    obtain ⟨result, hresult, h⟩ := except_bind_eq_ok.mp h
    obtain ⟨value, hvalue, h⟩ := except_bind_eq_ok.mp h
    obtain rfl := dest_eq_ok hresult
    obtain rfl := value_eq_ok hvalue
    have hzero : pr.word (.const .i32 0) = "0" := rfl
    refine ⟨_, rfl, ?_⟩
    exact (Except.ok.inj h).symm.trans
      (String.toList_inj.mp (by simp [start, Op.dest, Op.opcode, Ty.text, hzero]))
  | icmp dest pred lhs rhs =>
    obtain ⟨result, hresult, h⟩ := except_bind_eq_ok.mp h
    obtain ⟨left, hleft, h⟩ := except_bind_eq_ok.mp h
    obtain ⟨right, hright, h⟩ := except_bind_eq_ok.mp h
    obtain rfl := dest_eq_ok hresult
    obtain rfl := typed_eq_ok hleft
    obtain rfl := value_eq_ok hright
    refine ⟨_, rfl, ?_⟩
    exact (Except.ok.inj h).symm.trans (String.toList_inj.mp (by simp [start, Op.dest, Op.opcode]))
  | zext dest operand =>
    obtain ⟨result, hresult, h⟩ := except_bind_eq_ok.mp h
    obtain ⟨typed, htyped, h⟩ := except_bind_eq_ok.mp h
    obtain rfl := dest_eq_ok hresult
    obtain rfl := typed_eq_ok htyped
    refine ⟨_, rfl, ?_⟩
    exact (Except.ok.inj h).symm.trans (String.toList_inj.mp (by simp [start, Op.dest, Op.opcode]))
  | call dest callee args =>
    obtain ⟨result, hresult, h⟩ := except_bind_eq_ok.mp h
    obtain ⟨f, hf, h⟩ := except_bind_eq_ok.mp h
    obtain ⟨operands, hoperands, h⟩ := except_bind_eq_ok.mp h
    obtain rfl := dest_eq_ok hresult
    obtain rfl := typeds_eq_ok hoperands
    refine ⟨_, congrArg (Except.map _) hf, ?_⟩
    exact (Except.ok.inj h).symm.trans (String.toList_inj.mp (by simp [start, Op.dest, Op.opcode]))

/-! ### Ends of blocks -/

theorem ret_eq_ok {value : Value} {t : String} (h : pr.terminator (.ret value) = .ok t) :
    t = "ret " ++ pr.typedWord value := by
  obtain ⟨typed, htyped, h⟩ := except_bind_eq_ok.mp h
  rw [← Except.ok.inj h, typed_eq_ok htyped]

theorem br_eq_ok {target : BlockId} {t : String} (h : pr.terminator (.br target) = .ok t) :
    ∃ label, pr.target target = .ok label ∧ t = "br " ++ label := by
  obtain ⟨label, hlabel, h⟩ := except_bind_eq_ok.mp h
  exact ⟨label, hlabel, (Except.ok.inj h).symm⟩

theorem condBr_eq_ok {cond : Value} {thenBlock elseBlock : BlockId} {t : String}
    (h : pr.terminator (.condBr cond thenBlock elseBlock) = .ok t) :
    ∃ thenLabel elseLabel, pr.target thenBlock = .ok thenLabel ∧
      pr.target elseBlock = .ok elseLabel ∧
      t = "br " ++ (pr.typedWord cond ++ (", " ++ (thenLabel ++ (", " ++ elseLabel)))) := by
  obtain ⟨typed, htyped, h⟩ := except_bind_eq_ok.mp h
  obtain ⟨thenLabel, hthen, h⟩ := except_bind_eq_ok.mp h
  obtain ⟨elseLabel, helse, h⟩ := except_bind_eq_ok.mp h
  obtain rfl := typed_eq_ok htyped
  refine ⟨thenLabel, elseLabel, hthen, helse, (Except.ok.inj h).symm.trans ?_⟩
  simp only [String.append_assoc]

/-! ### Blocks -/

theorem blockLines_eq_ok {b : Block} {lines : List String} :
    pr.blockLines b = .ok lines ↔
      ∃ ops last, b.ops.mapM pr.op = .ok ops ∧ pr.ending b = .ok last ∧
        lines = ops ++ [last] := by
  simp [blockLines, except_bind_eq_ok, pure, Except.pure, eq_comm (b := lines)]

theorem layout_eq_ok {t : FunctionText} :
    pr.layout = .ok t ↔
      (pr.function.isDeclaration = true ∧ t = .declared (pr.function.name ++ pr.signatureText)) ∨
      pr.function.isDeclaration = false ∧ ∃ blocks, pr.sections.mapM pr.blockText = .ok blocks ∧
        t = .defined (pr.function.name ++ pr.signatureText) blocks := by
  unfold layout
  cases pr.function.isDeclaration with
  | true => simp [eq_comm]
  | false => simp [except_map_eq_ok, eq_comm (a := t)]

theorem mem_sections {s : List String × Block} (h : s ∈ pr.sections) :
    (s.1 = pr.cells ∨ s.1 = []) ∧ s.2 ∈ pr.function.blocks := by
  unfold sections at h
  cases hblocks : pr.function.blocks with
  | nil =>
    rw [hblocks] at h
    cases h
  | cons first rest =>
    rw [hblocks] at h
    rcases List.mem_cons.mp h with rfl | h
    · exact ⟨.inl rfl, List.mem_cons_self ..⟩
    · obtain ⟨b, hb, rfl⟩ := List.mem_map.mp h
      exact ⟨.inr rfl, List.mem_cons_of_mem _ hb⟩

section Plain

variable {v : Value} {op : Op} {t : String} (hp : pr.program.Legible) (hf : pr.function.Legible)
include hf

theorem solid_word (hv : v.Legible pr.function.params) : Solid (pr.word v) := by
  cases v with
  | const ty n =>
    cases hv
    exact Blockform.solid_word n
  | param index =>
    obtain ⟨name, hname⟩ := hv
    rw [word_param hname]
    have hid := hf.params name (mem_params_of_findIdx? hname)
    exact .append (by decide) (solid_of_isIdentifier hid)
  | inst id ty => exact solid_number id

theorem unbroken_word (hv : v.Legible pr.function.params) : Unbroken (pr.word v) :=
  (solid_word hf hv).unbroken

theorem unbroken_typedWord (hv : v.Legible pr.function.params) : Unbroken (pr.typedWord v) := by
  simp +decide only [typedWord, Unbroken.append_iff, unbroken_word hf hv,
    (solid_type v.ty).unbroken]

theorem unbroken_target {id : BlockId} (h : pr.target id = .ok t) : Unbroken t := by
  obtain ⟨b, hb, rfl⟩ := target_eq_ok.mp h
  have hlabel := (hf.labels b (List.mem_of_getElem? hb)).unbroken
  simp +decide only [Unbroken.append_iff, hlabel]

theorem unbroken_cell {id : SlotId} (h : pr.cell id = .ok t) : Unbroken t := by
  obtain ⟨s, hs, rfl⟩ := cell_eq_ok.mp h
  have hname := (solid_of_isIdentifier (hf.slots s (List.mem_of_getElem? hs))).unbroken
  simp +decide only [Unbroken.append_iff, hname]

theorem unbroken_cells : ∀ line ∈ pr.cells, Unbroken line := by
  intro line hline
  obtain ⟨s, hs, rfl⟩ := List.mem_map.mp hline
  have hname := (solid_of_isIdentifier (hf.slots s hs)).unbroken
  simp +decide only [Unbroken.append_iff, hname]

theorem unbroken_head : Unbroken (pr.function.name ++ pr.signatureText) := by
  have hname := (solid_of_isIdentifier hf.name).unbroken
  have harity (n : Nat) : Unbroken (", ".intercalate (List.replicate n "i32")) := by
    refine Unbroken.intercalate (by decide) fun t ht => ?_
    rw [List.eq_of_mem_replicate ht]
    decide
  have hparams : Unbroken (", ".intercalate (pr.function.params.map fun p => "i32 %" ++ p)) := by
    refine Unbroken.intercalate (by decide) fun t ht => ?_
    obtain ⟨p, hparam, rfl⟩ := List.mem_map.mp ht
    have hp := (solid_of_isIdentifier (hf.params p hparam)).unbroken
    simp +decide only [Unbroken.append_iff, hp]
  simp only [signatureText]
  split <;> simp +decide only [Unbroken.append_iff, hname, harity, hparams]

theorem unbroken_terminator {e : Terminator}
    (he : ∀ v ∈ e.operands, v.Legible pr.function.params) (h : pr.terminator e = .ok t) :
    Unbroken t := by
  cases e with
  | ret value =>
    obtain rfl := ret_eq_ok h
    have hvalue := unbroken_typedWord hf (he value (by simp [Terminator.operands]))
    simp +decide only [Unbroken.append_iff, hvalue]
  | br target =>
    obtain ⟨label, hlabel, rfl⟩ := br_eq_ok h
    simp +decide only [Unbroken.append_iff, unbroken_target hf hlabel]
  | condBr cond thenBlock elseBlock =>
    obtain ⟨thenLabel, elseLabel, hthen, helse, rfl⟩ := condBr_eq_ok h
    have hcond := unbroken_typedWord hf (he cond (by simp [Terminator.operands]))
    simp +decide only [Unbroken.append_iff, hcond, unbroken_target hf hthen,
      unbroken_target hf helse]

include hp

theorem unbroken_tail (hop : ∀ v ∈ op.operands, v.Legible pr.function.params)
    (h : pr.tail op = .ok t) : Unbroken t := by
  cases op with
  | load dest slot =>
    obtain ⟨cell, hcell, rfl⟩ := except_map_eq_ok.mp h
    simp +decide only [Unbroken.append_iff, unbroken_cell hf hcell]
  | store value slot =>
    obtain ⟨cell, hcell, rfl⟩ := except_map_eq_ok.mp h
    have hvalue := unbroken_typedWord hf (hop value (by simp [Op.operands]))
    simp +decide only [Unbroken.append_iff, hvalue, unbroken_cell hf hcell]
  | binary dest op ty lhs rhs =>
    cases h
    have hlhs := unbroken_word hf (hop lhs (by simp [Op.operands]))
    have hrhs := unbroken_word hf (hop rhs (by simp [Op.operands]))
    simp +decide only [Unbroken.append_iff, (solid_type ty).unbroken, hlhs, hrhs]
  | neg dest operand =>
    cases h
    have hzero : Unbroken (pr.word (.const .i32 0)) := unbroken_word hf rfl
    have hvalue := unbroken_word hf (hop operand (by simp [Op.operands]))
    simp +decide only [Unbroken.append_iff, hzero, hvalue]
  | icmp dest pred lhs rhs =>
    cases h
    have hmnemonic : Unbroken pred.mnemonic := by cases pred <;> decide
    have hlhs := unbroken_typedWord hf (hop lhs (by simp [Op.operands]))
    have hrhs := unbroken_word hf (hop rhs (by simp [Op.operands]))
    simp +decide only [Unbroken.append_iff, hmnemonic, hlhs, hrhs]
  | zext dest operand =>
    cases h
    have hvalue := unbroken_typedWord hf (hop operand (by simp [Op.operands]))
    simp +decide only [Unbroken.append_iff, hvalue]
  | call dest callee args =>
    obtain ⟨f, hcallee, rfl⟩ := except_map_eq_ok.mp h
    have hcallee := entryOf_eq_ok.mp hcallee
    have hname := (solid_of_isIdentifier (hp f (List.mem_of_getElem? hcallee)).name).unbroken
    have hargs : Unbroken (", ".intercalate (args.map pr.typedWord)) := by
      refine Unbroken.intercalate (by decide) fun t ht => ?_
      obtain ⟨v, hv, rfl⟩ := List.mem_map.mp ht
      exact unbroken_typedWord hf (hop v hv)
    simp +decide only [Unbroken.append_iff, hname, hargs]

theorem unbroken_op (hop : ∀ v ∈ op.operands, v.Legible pr.function.params)
    (h : pr.op op = .ok t) : Unbroken t := by
  obtain ⟨tail, htail, rfl⟩ := op_eq_ok h
  have hstart : Unbroken (pr.start op) := by
    unfold start
    cases op.dest with
    | none => exact (by decide : Unbroken "")
    | some id => simp +decide only [Option.elim_some, Unbroken.append_iff, (solid_number id).unbroken]
  simp +decide only [Unbroken.append_iff, hstart, op.solid_opcode.unbroken,
    unbroken_tail hp hf hop htail]

/-- No line of a block goes over more than one. -/
theorem unbroken_blockLines {b : Block} (hb : b ∈ pr.function.blocks) {lines : List String}
    (h : pr.blockLines b = .ok lines) : ∀ line ∈ lines, Unbroken line := by
  obtain ⟨ops, last, hops, hlast, rfl⟩ := blockLines_eq_ok.mp h
  refine List.forall_mem_append.mpr ⟨fun line hline => ?_, List.forall_mem_singleton.mpr ?_⟩
  · obtain ⟨op, hop, hline⟩ := exists_of_mapM hops hline
    exact unbroken_op hp hf (hf.operands b hb op hop) hline
  · unfold ending at hlast
    cases hend : b.terminator with
    | none =>
      rw [hend] at hlast
      cases hlast
      decide
    | some e =>
      rw [hend] at hlast
      exact unbroken_terminator hf (hf.ends b hb e hend) hlast

theorem blockText_plain {s : List String × Block} (hs : s ∈ pr.sections) {t : BlockText}
    (h : pr.blockText s = .ok t) : t.Plain := by
  obtain ⟨lines, hlines, rfl⟩ := except_map_eq_ok.mp h
  obtain ⟨hcells, hb⟩ := mem_sections hs
  refine ⟨hf.labels _ hb, List.forall_mem_append.mpr ⟨?_, unbroken_blockLines hp hf hb hlines⟩⟩
  rcases hcells with hcells | hcells
  · exact hcells ▸ unbroken_cells hf
  · exact hcells ▸ nofun

/-- A function that can be read is written in plain lines. -/
theorem layout_plain {t : FunctionText} (h : pr.layout = .ok t) : t.Plain := by
  rcases layout_eq_ok.mp h with ⟨-, rfl⟩ | ⟨-, blocks, hblocks, rfl⟩
  · exact unbroken_head hf
  · refine ⟨unbroken_head hf, fun b hb => ?_⟩
    obtain ⟨s, hs, hb⟩ := exists_of_mapM hblocks hb
    exact blockText_plain hp hf hs hb

end Plain

end Printer

theorem Program.print_eq (p : Program) :
    p.print = (p.functions.mapM fun f => (Printer.of p f).layout).map fun fs =>
      "\n".intercalate (fs.map FunctionText.text) := by
  simp only [Program.print, Printer.text_eq, mapM_map]
  cases p.functions.mapM fun f => (Printer.of p f).layout <;> rfl

/-- Programs of one text have functions that are written alike, one by one. -/
theorem Program.layouts_of_print {p p' : Program} (hp : p.Legible) (hp' : p'.Legible)
    {text : String} (h : p.print = .ok text) (h' : p'.print = .ok text) :
    List.Forall₂ (fun f f' => f ∈ p.functions ∧ f' ∈ p'.functions ∧
      ∃ t, (Printer.of p f).layout = .ok t ∧ (Printer.of p' f').layout = .ok t)
      p.functions p'.functions := by
  rw [Program.print_eq] at h h'
  obtain ⟨fs, hfs, heq⟩ := except_map_eq_ok.mp h
  obtain ⟨fs', hfs', heq'⟩ := except_map_eq_ok.mp h'
  have hplain {p : Program} (hp : p.Legible) {fs : List FunctionText}
      (hfs : (p.functions.mapM fun f => (Printer.of p f).layout) = .ok fs) :
      ∀ t ∈ fs, t.Plain := by
    intro t ht
    obtain ⟨f, hf, hlayout⟩ := exists_of_mapM hfs ht
    exact Printer.layout_plain hp (hp f hf) hlayout
  have hend : "\n".intercalate (fs.map FunctionText.text) ++ "" =
      "\n".intercalate (fs'.map FunctionText.text) ++ "" := by rw [heq, heq']
  obtain ⟨rfl, -⟩ := separable_functions.intercalate_unique FunctionText.text_ne
    (hplain hp hfs) (hplain hp' hfs') rfl rfl hend
  exact forall₂_of_mapM hfs hfs'

end Blockform
