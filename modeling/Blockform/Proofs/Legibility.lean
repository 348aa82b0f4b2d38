-- SUMMARY: What a text relies on: names that are identifiers (`Node.WellNamed`), and labels, slots and operands that lowering keeps apart (`Function.Legible`).
import Blockform.Proofs.Compiling
import Blockform.Proofs.Pieces
import Blockform.Proofs.Typing
import Mathlib.Data.List.Nodup

/-!
# Legible programs

The text of a program writes functions, parameters and variables by name, blocks
by label, and leaves out much of what the program says of types. A reader can do
with that because of how programs are made: names are identifiers, no two blocks
of a function have one label and no two slots one name, a parameter is referred
to by the first of its name, and constants are integers (`Function.Legible`).
Every step of lowering keeps a function legible, and so does every tree whose
names are identifiers.
-/

namespace Blockform

/-! ## Identifiers -/

/-- May the character stand in an identifier? -/
def isNameChar (c : Char) : Bool := isLetter c || isNumber c || c = '_'

/-- Is the text a letter or an underscore, followed by letters, digits and
    underscores? -/
def isIdentifier (name : String) : Bool :=
  match name.toList with
  | [] => false
  | c :: cs => (isLetter c || c = '_') && cs.all isNameChar

theorem isGap_of_isNameChar {c : Char} (h : isNameChar c = true) : isGap c = false :=
  isGap_eq_false (P := isNameChar) (by decide +kernel) h

/-- A letter stands behind all digits of the first script. -/
theorem isDigit_of_isLetter {c : Char} (h : isLetter c = true) : c.isDigit = false := by
  have hranges : ∀ range ∈ Charset.alphabetic, 0x41 ≤ range.1 := by decide +kernel
  obtain ⟨range, hrange, hin⟩ := List.any_eq_true.mp h
  have hlow := hranges range hrange
  have hcode : range.1 ≤ c.toNat := by
    simp only [Charset.inRange, Bool.and_eq_true, decide_eq_true_eq] at hin
    exact hin.1
  cases hdigit : c.isDigit with
  | false => rfl
  | true =>
    have hle : c.toNat ≤ 57 := by
      simp only [Char.isDigit, Bool.and_eq_true, decide_eq_true_eq] at hdigit
      exact hdigit.2
    omega

theorem isIdentifier_toList {name : String} (h : isIdentifier name = true) :
    ∃ c cs, name.toList = c :: cs ∧ c.isDigit = false ∧ ∀ d ∈ name.toList, isNameChar d = true := by
  unfold isIdentifier at h
  cases hname : name.toList with
  | nil =>
    rw [hname] at h
    cases h
  | cons c cs =>
    rw [hname] at h
    simp only [Bool.and_eq_true, Bool.or_eq_true, decide_eq_true_eq, List.all_eq_true] at h
    obtain ⟨hfirst, hrest⟩ := h
    refine ⟨c, cs, rfl, ?_, List.forall_mem_cons.mpr ⟨?_, hrest⟩⟩
    · rcases hfirst with hletter | rfl
      · exact isDigit_of_isLetter hletter
      · rfl
    · rcases hfirst with hletter | rfl
      · simp [isNameChar, hletter]
      · simp [isNameChar]

theorem solid_of_isIdentifier {name : String} (h : isIdentifier name = true) : Solid name := by
  obtain ⟨c, cs, -, -, hchars⟩ := isIdentifier_toList h
  exact fun d hd => isGap_of_isNameChar (hchars d hd)

/-- No identifier is a number. -/
theorem ne_toString_of_isIdentifier {name : String} (h : isIdentifier name = true) (n : Nat) :
    name ≠ toString n := by
  obtain ⟨c, cs, hname, hdigit, -⟩ := isIdentifier_toList h
  rintro rfl
  rw [isDigit_of_mem_toString (hname ▸ List.mem_cons_self ..)] at hdigit
  cases hdigit

/-! ## Trees -/

/-- The names that a node gives, apart from those in the nodes below it. -/
def Kind.names : Kind → List String
  | .functionDef function params _ => function :: params
  | .name id => [id]
  | _ => []

/-- All names in the tree are identifiers. -/
inductive Node.WellNamed : Node → Prop where
  | mk {n : Node} (hnames : ∀ name ∈ n.kind.names, isIdentifier name = true)
    (hparts : ∀ m ∈ n.kind.parts, m.WellNamed) : n.WellNamed

/-- The names in the options are identifiers. -/
structure LowerOptions.WellNamed (options : LowerOptions) : Prop where
  entry : isIdentifier options.entryName = true
  builtins : ∀ name ∈ options.builtins, isIdentifier name = true

/-! ## Labels -/

/-- The labels that lowering asks for. -/
def blockLabels : List String :=
  ["entry", "if.then", "if.else", "if.end", "while.test", "while.body", "while.end", "unreachable"]

/-- A label with the number of uses before this one. -/
def labelText (base : String) : Nat → String
  | 0 => base
  | uses + 1 => base ++ "." ++ toString (uses + 1)

theorem Builder.freshLabel_eq (b : Builder) (label : String) :
    b.freshLabel label = labelText label (b.labels.count label) := by
  unfold freshLabel
  split
  · next h => rw [h, labelText]
  · next h =>
    obtain ⟨uses, huses⟩ := Nat.exists_eq_succ_of_ne_zero h
    rw [huses]
    rfl

theorem solid_of_mem_blockLabels : ∀ base ∈ blockLabels, Solid base := by decide +kernel

theorem solid_labelText {base : String} (h : base ∈ blockLabels) (uses : Nat) :
    Solid (labelText base uses) := by
  have hbase := solid_of_mem_blockLabels base h
  cases uses with
  | zero => exact hbase
  | succ uses => exact (hbase.append (by decide)).append (solid_toString _)

/-- A number is told from the label in front of it by the last point. -/
theorem labelText_succ_inj {base base' : String} {uses uses' : Nat}
    (h : labelText base (uses + 1) = labelText base' (uses' + 1)) :
    base = base' ∧ uses = uses' := by
  have hdigits (n : Nat) : ∀ c ∈ (toString n).toList.reverse, c.isDigit = true :=
    fun c hc => isDigit_of_mem_toString (List.mem_reverse.mp hc)
  have hpoint (base : String) : ∀ c ∈ ('.' :: base.toList.reverse).head?, c.isDigit = false := by
    rintro c ⟨⟩
    rfl
  have hspan : (toString (uses + 1)).toList.reverse ++ '.' :: base.toList.reverse =
      (toString (uses' + 1)).toList.reverse ++ '.' :: base'.toList.reverse := by
    simpa [labelText] using congrArg (fun s : String => s.toList.reverse) h
  obtain ⟨hnumbers, hbases⟩ :=
    span_unique (hdigits _) (hdigits _) (hpoint base) (hpoint base') hspan
  have hbase := List.reverse_injective (List.cons_inj_right '.' |>.mp hbases)
  have hnumber := Nat.repr_injective (String.toList_inj.mp (List.reverse_injective hnumbers))
  exact ⟨String.toList_inj.mp hbase, Nat.succ_inj.mp hnumber⟩

/-- The number behind a label starts at its first digit, and no label ends with a
    point. -/
theorem labelText_inj {base base' : String} (h : base ∈ blockLabels) (h' : base' ∈ blockLabels)
    {uses uses' : Nat} (heq : labelText base uses = labelText base' uses') :
    base = base' ∧ uses = uses' := by
  have hall : (blockLabels.all fun base => base.toList.all fun c => !c.isDigit) = true := by
    decide +kernel
  have hbase : ∀ base ∈ blockLabels, ∀ c ∈ base.toList, (!c.isDigit) = true :=
    fun base hmem => List.all_eq_true.mp (List.all_eq_true.mp hall base hmem)
  have hpoint : ∀ base ∈ blockLabels, ∀ base' ∈ blockLabels,
      base.toList ≠ base'.toList ++ ['.'] := by decide +kernel
  have hstem {base : String} (h : base ∈ blockLabels) :
      ∀ c ∈ base.toList ++ ['.'], (!c.isDigit) = true :=
    List.forall_mem_append.mpr ⟨hbase base h, List.forall_mem_singleton.mpr rfl⟩
  have hnumber (n : Nat) : ∀ c ∈ (toString n).toList.head?, (!c.isDigit) = false := fun c hc =>
    congrArg not (isDigit_of_mem_toString (List.mem_of_mem_head? hc))
  have hbare {base base' : String} (h : base ∈ blockLabels) (h' : base' ∈ blockLabels) (n : Nat) :
      labelText base 0 ≠ labelText base' (n + 1) := by
    intro heq
    have hspan : base.toList ++ [] = (base'.toList ++ ['.']) ++ (toString (n + 1)).toList := by
      simpa [labelText] using congrArg String.toList heq
    have hend : ∀ c ∈ ([] : List Char).head?, (!c.isDigit) = false := nofun
    exact hpoint base h base' h'
      (span_unique (hbase base h) (hstem h') hend (hnumber _) hspan).1
  cases uses with
  | zero =>
    cases uses' with
    | zero => exact ⟨heq, rfl⟩
    | succ n => exact absurd heq (hbare h h' n)
  | succ m =>
    cases uses' with
    | zero => exact absurd heq.symm (hbare h' h m)
    | succ n =>
      obtain ⟨rfl, rfl⟩ := labelText_succ_inj heq
      exact ⟨rfl, rfl⟩

/-- The number behind a new label is above those behind the others of its kind. -/
theorem Builder.freshLabel_not_mem {b : Builder} {label : String} (hlabel : label ∈ blockLabels)
    (hnumbered : ∀ k ∈ b.blocks, ∃ base ∈ blockLabels, ∃ uses < b.labels.count base,
      k.label = labelText base uses) :
    b.freshLabel label ∉ b.blocks.map Block.label := by
  rw [b.freshLabel_eq]
  intro hmem
  obtain ⟨k, hk, heq⟩ := List.mem_map.mp hmem
  obtain ⟨base, hbase, uses, huses, hk⟩ := hnumbered k hk
  obtain ⟨rfl, rfl⟩ := labelText_inj hbase hlabel (hk.symm.trans heq)
  exact Nat.lt_irrefl _ huses

/-! ## Functions -/

/-- The value is written in a way that it can be read from, given the parameters:
    no truth value is a constant, and a parameter is the first of its name. -/
def Value.Legible (params : List String) : Value → Prop
  | .const ty _ => ty = .i32
  | .param index => ∃ name, params.findIdx? (· = name) = some index
  | .inst .. => True

theorem Value.legible_int (params : List String) (n : Int64) : (Value.int n).Legible params := rfl

/-- What the text of a function tells can be told apart. -/
structure Function.Legible (f : Function) : Prop where
  name : isIdentifier f.name = true
  params : ∀ name ∈ f.params, isIdentifier name = true
  slots : ∀ s ∈ f.slots, isIdentifier s.name = true
  distinctSlots : (f.slots.map Slot.name).Nodup
  labels : ∀ k ∈ f.blocks, Solid k.label
  distinctLabels : (f.blocks.map Block.label).Nodup
  operands : ∀ k ∈ f.blocks, ∀ op ∈ k.ops, ∀ v ∈ op.operands, v.Legible f.params
  ends : ∀ k ∈ f.blocks, ∀ t, k.terminator = some t → ∀ v ∈ t.operands, v.Legible f.params

/-- A function under construction can be read, with a number behind each label that
    is below the next one. -/
structure Builder.Legible (params : List String) (b : Builder) : Prop where
  finish : b.finish.Legible
  params : b.params = params
  numbered : ∀ k ∈ b.blocks, ∃ base ∈ blockLabels, ∃ uses < b.labels.count base,
    k.label = labelText base uses

theorem map_label_modify {change : Block → Block} (h : ∀ k, (change k).label = k.label)
    (l : List Block) (i : Nat) : (l.modify i change).map Block.label = l.map Block.label := by
  induction l generalizing i with
  | nil => simp
  | cons k l ih =>
    cases i with
    | zero => simp [h]
    | succ i => simp [ih]

namespace Builder.Legible

variable {params : List String} {b : Builder}

theorem start {name : String} (hname : isIdentifier name = true)
    (hparams : ∀ name ∈ params, isIdentifier name = true) :
    (Builder.start name params).Legible params := by
  have hentry : Solid "entry" := by decide
  have hused : 0 < ["entry"].count "entry" := by decide
  refine ⟨⟨hname, hparams, nofun, .nil, ?_, ?_, ?_, ?_⟩, rfl, ?_⟩
  · exact List.forall_mem_singleton.mpr hentry
  · exact List.pairwise_singleton _ _
  · exact List.forall_mem_singleton.mpr nofun
  · exact List.forall_mem_singleton.mpr nofun
  · exact List.forall_mem_singleton.mpr ⟨"entry", by decide, 0, hused, rfl⟩

/-- A change inside of a block keeps the labels. -/
theorem modified (hb : b.Legible params) (change : Block → Block)
    (hlabel : ∀ k, (change k).label = k.label) {i nextInst : Nat}
    (hops : ∀ k ∈ b.blocks, ∀ op ∈ (change k).ops, ∀ v ∈ op.operands, v.Legible params)
    (hends : ∀ k ∈ b.blocks, ∀ t, (change k).terminator = some t →
      ∀ v ∈ t.operands, v.Legible params) :
    { b with blocks := b.blocks.modify i change, nextInst }.Legible params := by
  obtain ⟨hfinish, rfl, hnumbered⟩ := hb
  refine ⟨{ hfinish with labels := ?_, distinctLabels := ?_, operands := ?_, ends := ?_ }, rfl, ?_⟩
  · intro k hk
    rcases mem_modify hk with hk | ⟨k₀, hk₀, rfl⟩
    · exact hfinish.labels k hk
    · exact hlabel k₀ ▸ hfinish.labels k₀ hk₀
  · exact (map_label_modify hlabel _ i).symm ▸ hfinish.distinctLabels
  · intro k hk
    rcases mem_modify hk with hk | ⟨k₀, hk₀, rfl⟩
    · exact hfinish.operands k hk
    · exact hops k₀ hk₀
  · intro k hk
    rcases mem_modify hk with hk | ⟨k₀, hk₀, rfl⟩
    · exact hfinish.ends k hk
    · exact hends k₀ hk₀
  · intro k hk
    rcases mem_modify hk with hk | ⟨k₀, hk₀, rfl⟩
    · exact hnumbered k hk
    · exact hlabel k₀ ▸ hnumbered k₀ hk₀

theorem emitted (hb : b.Legible params) {op : Op} (hop : ∀ v ∈ op.operands, v.Legible params) :
    (b.emitted [op]).Legible params := by
  refine hb.modified (fun k => { k with ops := k.ops ++ [op] }) (fun _ => rfl)
    (fun k hk op' hop' => ?_) fun k hk => ?_
  · rcases List.mem_append.mp hop' with hop' | hop'
    · exact hb.params ▸ hb.finish.operands k hk op' hop'
    · exact List.mem_singleton.mp hop' ▸ hop
  · exact hb.params ▸ hb.finish.ends k hk

theorem close (hb : b.Legible params) {t : Terminator} (ht : ∀ v ∈ t.operands, v.Legible params) :
    (b.close t).Legible params := by
  refine hb.modified (fun k => { k with terminator := some t }) (fun _ => rfl)
    (fun k hk => ?_) fun k hk t' ht' => ?_
  · exact hb.params ▸ hb.finish.operands k hk
  · cases ht'
    exact ht

theorem movedTo (hb : b.Legible params) (target : BlockId) :
    { b with cursor := target }.Legible params :=
  ⟨hb.finish, hb.params, hb.numbered⟩

theorem addBlock (hb : b.Legible params) {label : String} (hlabel : label ∈ blockLabels) :
    (b.addBlock label).Legible params := by
  obtain ⟨hfinish, rfl, hnumbered⟩ := hb
  have hfresh := Builder.freshLabel_not_mem hlabel hnumbered
  refine ⟨{ hfinish with labels := ?_, distinctLabels := ?_, operands := ?_, ends := ?_ }, rfl, ?_⟩
  · refine List.forall_mem_append.mpr ⟨hfinish.labels, List.forall_mem_singleton.mpr ?_⟩
    exact b.freshLabel_eq label ▸ solid_labelText hlabel _
  · have hlabels : (b.addBlock label).finish.blocks.map Block.label =
        (b.blocks.map Block.label).concat (b.freshLabel label) := by
      simp [Builder.addBlock, Builder.finish]
    exact hlabels ▸ List.Nodup.concat hfresh hfinish.distinctLabels
  · refine List.forall_mem_append.mpr ⟨hfinish.operands, List.forall_mem_singleton.mpr ?_⟩
    intro op hop
    cases hop
  · refine List.forall_mem_append.mpr ⟨hfinish.ends, List.forall_mem_singleton.mpr ?_⟩
    intro t ht
    cases ht
  · refine List.forall_mem_append.mpr ⟨fun k hk => ?_, List.forall_mem_singleton.mpr ?_⟩
    · obtain ⟨base, hbase, uses, huses, hk⟩ := hnumbered k hk
      exact ⟨base, hbase, uses, Nat.lt_of_lt_of_le huses List.count_le_count_cons, hk⟩
    · exact ⟨label, hlabel, b.labels.count label, by simp [Builder.addBlock], b.freshLabel_eq label⟩

theorem withSlot (hb : b.Legible params) {name : String} (hname : isIdentifier name = true) :
    (b.withSlot name).Legible params := by
  unfold Builder.withSlot Builder.ensureSlot
  cases hslot : b.slot? name with
  | some slot => exact hb
  | none =>
    have hfresh : name ∉ b.slots.map Slot.name := by
      simpa [Builder.slot?_eq] using hslot
    refine ⟨{ hb.finish with slots := ?_, distinctSlots := ?_ }, hb.params, hb.numbered⟩
    · exact List.forall_mem_append.mpr ⟨hb.finish.slots, List.forall_mem_singleton.mpr hname⟩
    · have hslots :
          (b.slots ++ [Slot.mk name]).map Slot.name = (b.slots.map Slot.name).concat name := by
        simp
      exact hslots ▸ List.Nodup.concat hfresh hb.finish.distinctSlots

end Builder.Legible

/-! ## Steps of building -/

namespace Build

open Effect

variable {params : List String} {v lhs rhs : Value} {vs : List Value}

/-- Whatever a result is of, it can be read. -/
theorem define_legible (ty : Ty) {op : InstId → Op} (hdest : ∀ d, (op d).dest = some d)
    (hop : ∀ d, ∀ v ∈ (op d).operands, v.Legible params) :
    Keeps (Builder.Legible params) (define ty op) (Value.Legible params) := by
  intro b v b' h hb
  obtain ⟨-, rfl, rfl⟩ := (define_eq_ok hdest).mp h
  exact ⟨hb.emitted (hop _), trivial⟩

theorem binary_legible (op : BinaryOp) (hlhs : lhs.Legible params) (hrhs : rhs.Legible params) :
    Keeps (Builder.Legible params) (binary op lhs rhs) (Value.Legible params) :=
  define_legible lhs.ty (fun _ => rfl) fun _ => by simp [Op.operands, hlhs, hrhs]

theorem neg_legible (hv : v.Legible params) :
    Keeps (Builder.Legible params) (neg v) (Value.Legible params) :=
  define_legible .i32 (fun _ => rfl) fun _ => by simp [Op.operands, hv]

theorem icmp_legible (pred : Predicate) (hlhs : lhs.Legible params) (hrhs : rhs.Legible params) :
    Keeps (Builder.Legible params) (icmp pred lhs rhs) (Value.Legible params) :=
  define_legible .i1 (fun _ => rfl) fun _ => by simp [Op.operands, hlhs, hrhs]

theorem call_legible (callee : FunctionId) (hvs : ∀ v ∈ vs, v.Legible params) :
    Keeps (Builder.Legible params) (call callee vs) (Value.Legible params) :=
  define_legible .i32 (fun _ => rfl) fun _ => hvs

theorem toInt_legible (hv : v.Legible params) :
    Keeps (Builder.Legible params) (toInt v) (Value.Legible params) := by
  unfold toInt
  cases v.ty with
  | i32 => exact .pure hv
  | i1 => exact define_legible .i32 (fun _ => rfl) fun _ => by simp [Op.operands, hv]

theorem toBool_legible (hv : v.Legible params) :
    Keeps (Builder.Legible params) (toBool v) (Value.Legible params) := by
  unfold toBool
  cases v.ty with
  | i1 => exact .pure hv
  | i32 => exact icmp_legible .ne (Value.legible_int params 0) hv

theorem read_legible (name : String) :
    Keeps (Builder.Legible params) (read name) (Value.Legible params) := by
  intro b v b' h hb
  rcases read_eq_ok.mp h with ⟨hparam, rfl⟩ | ⟨-, slot, -, -, rfl, rfl⟩
  · rw [Builder.param?_eq] at hparam
    obtain ⟨index, hindex, rfl⟩ := Option.map_eq_some_iff.mp hparam
    exact ⟨hb, name, hb.params ▸ hindex⟩
  · exact ⟨hb.emitted nofun, trivial⟩

theorem write_legible {name : String} (hname : isIdentifier name = true)
    (hv : v.Legible params) :
    Keeps (Builder.Legible params) (write name v) fun _ => True := by
  intro b u b' h hb
  obtain ⟨w, b₁, htoInt, -, rfl⟩ := write_eq_ok.mp h
  obtain ⟨hb₁, hw⟩ := toInt_legible hv _ _ _ htoInt hb
  exact ⟨(hb₁.withSlot hname).emitted (List.forall_mem_singleton.mpr hw), trivial⟩

theorem terminate_legible {t : Terminator} (ht : ∀ v ∈ t.operands, v.Legible params) :
    Keeps (Builder.Legible params) (terminate t) fun _ => True := by
  intro b u b' h hb
  obtain ⟨-, rfl⟩ := terminate_eq_ok.mp h
  exact ⟨hb.close ht, trivial⟩

theorem ret_legible (hv : v.Legible params) :
    Keeps (Builder.Legible params) (ret v) fun _ => True :=
  (toInt_legible hv).bind fun _ hw => terminate_legible (List.forall_mem_singleton.mpr hw)

end Build

/-! ## Programs -/

namespace Program

/-- The text of each function can be read. -/
def Legible (p : Program) : Prop := ∀ f ∈ p.functions, f.Legible

variable {p : Program} {name : String}

theorem Legible.declare (hp : p.Legible) (hname : isIdentifier name = true)
    (signature : Signature) : (p.declare name signature).2.Legible := by
  have hdeclaration : (Function.declaration name signature).Legible :=
    ⟨hname, nofun, nofun, .nil, nofun, .nil, nofun, nofun⟩
  unfold Program.declare
  cases p.lookup name with
  | some id => exact hp
  | none => exact List.forall_mem_append.mpr ⟨hp, List.forall_mem_singleton.mpr hdeclaration⟩

theorem withBuiltins_legible {names : List String}
    (hnames : ∀ name ∈ names, isIdentifier name = true) : (withBuiltins names).Legible := by
  suffices h : ∀ p : Program, p.Legible →
      (names.foldl (fun p name => (p.declare name ⟨1⟩).2) p).Legible from h _ nofun
  induction names with
  | nil => exact fun p hp => hp
  | cons name names ih =>
    rw [List.forall_mem_cons] at hnames
    exact fun p hp => ih hnames.2 _ (hp.declare hnames.1 ⟨1⟩)

theorem Legible.define (hp : p.Legible) (id : FunctionId) {body : Function} (hbody : body.Legible) :
    (p.define id body).Legible := by
  intro f hf
  obtain ⟨i, hi⟩ := List.mem_iff_getElem?.mp hf
  simp only [Program.define, List.getElem?_modify] at hi
  cases hg : p.functions[i]? with
  | none =>
    rw [hg] at hi
    cases hi
  | some g =>
    have hlegible := hp g (List.mem_of_getElem? hg)
    rw [hg] at hi
    by_cases hid : id.val = i
    · simp only [hid, if_true, Option.map_eq_map, Option.map_some, Option.some.injEq] at hi
      exact hi ▸ { hbody with name := hlegible.name }
    · simp only [hid, if_false, Option.map_eq_map, Option.map_some, Option.some.injEq] at hi
      exact hi ▸ hlegible

end Program

/-! ## Steps of lowering -/

/-- What has been finished can be read, and what is under construction. -/
structure Workspace.Legible (params : List String) (s : Workspace) : Prop where
  program : s.context.program.Legible
  builder : s.builder.Legible params

namespace Lower

open Effect

variable {params : List String} {α : Type} {Q : α → Prop}

theorem build_legible {x : Build α} (h : Keeps (Builder.Legible params) x Q) :
    Keeps (Workspace.Legible params) (build x) Q := by
  intro s a s' hx hs
  obtain ⟨b, hb, rfl⟩ := build_eq_ok.mp hx
  obtain ⟨hbuilder, ha⟩ := h _ _ _ hb hs.builder
  exact ⟨⟨hs.program, hbuilder⟩, ha⟩

theorem locating_legible {x : Lower α} (h : Keeps (Workspace.Legible params) x Q) (n : Node) :
    Keeps (Workspace.Legible params) (locating n x) Q := by
  intro s a s' hx hs
  exact h _ _ _ (locating_eq_ok.mp hx) hs

theorem newBlock_legible {label : String} (hlabel : label ∈ blockLabels) :
    Keeps (Workspace.Legible params) (newBlock label) fun _ => True := by
  intro s a s' h hs
  rw [newBlock_run] at h
  cases h
  exact ⟨⟨hs.program, hs.builder.addBlock hlabel⟩, trivial⟩

theorem moveTo_legible (target : BlockId) :
    Keeps (Workspace.Legible params) (moveTo target) fun _ => True := by
  intro s a s' h hs
  cases h
  exact ⟨⟨hs.program, hs.builder.movedTo target⟩, trivial⟩

theorem isTerminated_legible :
    Keeps (Workspace.Legible params) isTerminated fun _ => True := by
  intro s a s' h hs
  obtain ⟨rfl, -, -⟩ := isTerminated_eq_ok.mp h
  exact ⟨hs, trivial⟩

theorem resolve_legible {name : String} (hname : isIdentifier name = true) (arity : Nat) :
    Keeps (Workspace.Legible params) (resolve name arity) fun _ => True := by
  intro s id s' h hs
  obtain ⟨ctx, hctx, rfl⟩ := resolve_eq_ok.mp h
  rcases (Context.resolve_eq_ok hctx).2 with rfl | rfl
  · exact ⟨⟨hs.program, hs.builder⟩, trivial⟩
  · obtain ⟨-, hprogram, -⟩ := Context.declare_eq s.context name ⟨arity⟩
    exact ⟨⟨hprogram ▸ hs.program.declare hname ⟨arity⟩, hs.builder⟩, trivial⟩

/-! ## Expressions -/

/-- The node is lowered to a value that can be read. -/
def ExprLegible (params : List String) (n : Node) : Prop :=
  Keeps (Workspace.Legible params) (expr n) (Value.Legible params)

theorem asInt_legible {n : Node} (hn : ExprLegible params n) :
    Keeps (Workspace.Legible params) (asInt (expr n)) (Value.Legible params) :=
  hn.bind fun _ hv => build_legible (Build.toInt_legible hv)

theorem asCondition_legible {n : Node} (hn : ExprLegible params n) (m : Node) :
    Keeps (Workspace.Legible params) (asCondition m (expr n)) (Value.Legible params) :=
  hn.bind fun _ hv => locating_legible (build_legible (Build.toBool_legible hv)) m

theorem conditions_legible {ns : List Node} (hns : ∀ n ∈ ns, ExprLegible params n) :
    Keeps (Workspace.Legible params) (conditions ns) fun vs => ∀ v ∈ vs, v.Legible params := by
  induction ns with
  | nil => exact .pure nofun
  | cons n rest ih =>
    rw [List.forall_mem_cons] at hns
    exact (asCondition_legible hns.1 n).bind fun v hv => (ih hns.2).bind fun vs hvs =>
      .pure (List.forall_mem_cons.mpr ⟨hv, hvs⟩)

theorem arguments_legible {ns : List Node} (hns : ∀ n ∈ ns, ExprLegible params n) :
    Keeps (Workspace.Legible params) (arguments ns) fun vs => ∀ v ∈ vs, v.Legible params := by
  induction ns with
  | nil => exact .pure nofun
  | cons n rest ih =>
    rw [List.forall_mem_cons] at hns
    exact (asInt_legible hns.1).bind fun v hv => (ih hns.2).bind fun vs hvs =>
      .pure (List.forall_mem_cons.mpr ⟨hv, hvs⟩)

theorem join_legible (op : BinaryOp) {first : Value} (hfirst : first.Legible params)
    {rest : List Value} (hrest : ∀ v ∈ rest, v.Legible params) :
    Keeps (Workspace.Legible params) (join op first rest) (Value.Legible params) := by
  induction rest generalizing first with
  | nil => exact .pure hfirst
  | cons v rest ih =>
    rw [List.forall_mem_cons] at hrest
    unfold join
    rw [List.foldlM_cons]
    exact (build_legible (Build.binary_legible op hfirst hrest.1)).bind fun w hw => ih hw hrest.2

theorem exprKind_legible {k : Kind} (hnames : ∀ n ∈ k.parts, n.WellNamed)
    (hparts : ∀ n ∈ k.parts, ExprLegible params n) :
    Keeps (Workspace.Legible params) (exprKind k) (Value.Legible params) := by
  intro s v s' h hs
  cases exprKind_run h with
  | constant => exact Keeps.pure (Value.legible_int params _) _ _ _ h hs
  | name => exact build_legible (Build.read_legible _) _ _ _ h hs
  | @neg operand =>
    have hoperand := asInt_legible (hparts operand (by simp [Kind.parts]))
    exact (hoperand.bind fun v hv => build_legible (Build.neg_legible hv)) _ _ _ h hs
  | @binOp left right op arithmetic _ _ _ _ _ _ _ hop =>
    have hleft := asInt_legible (hparts left (by simp [Kind.parts]))
    have hright := asInt_legible (hparts right (by simp [Kind.parts]))
    simp only [exprKind, hop] at h
    exact (hleft.bind fun lhs hlhs => hright.bind fun rhs hrhs =>
      build_legible (Build.binary_legible arithmetic hlhs hrhs)) _ _ _ h hs
  | @compare left right op predicate _ _ _ _ _ _ _ hop =>
    have hleft := asInt_legible (hparts left (by simp [Kind.parts]))
    have hright := asInt_legible (hparts right (by simp [Kind.parts]))
    simp only [exprKind, hop] at h
    exact (hleft.bind fun lhs hlhs => hright.bind fun rhs hrhs =>
      build_legible (Build.icmp_legible predicate hlhs hrhs)) _ _ _ h hs
  | @boolOp op first rest =>
    have hfirst := asCondition_legible (hparts first (by simp [Kind.parts])) first
    have hrest := conditions_legible fun n (hn : n ∈ rest) => hparts n (by simp [Kind.parts, hn])
    exact (hfirst.bind fun v hv => hrest.bind fun vs hvs => join_legible op.logic hv hvs)
      _ _ _ h hs
  | @call id location span args =>
    have hid : isIdentifier id = true := by
      cases hnames ⟨.name id, location, span⟩ (by simp [Kind.parts]) with
      | mk hnames _ => exact hnames id (List.mem_cons_self ..)
    have hargs := arguments_legible fun n (hn : n ∈ args) => hparts n (by simp [Kind.parts, hn])
    exact ((resolve_legible hid args.length).bind fun callee _ => hargs.bind fun vs hvs =>
      build_legible (Build.call_legible callee hvs)) _ _ _ h hs

theorem expr_legible {n : Node} (hn : n.WellNamed) : ExprLegible params n := by
  induction hn with
  | @mk n _ hparts ih =>
    obtain ⟨kind, location, span⟩ := n
    exact locating_legible (exprKind_legible hparts ih) ⟨kind, location, span⟩

theorem condition_legible {n : Node} (hn : n.WellNamed) :
    Keeps (Workspace.Legible params) (condition n) (Value.Legible params) :=
  asCondition_legible (expr_legible hn) n

/-! ## Constructs -/

theorem br_legible (target : BlockId) :
    Keeps (Workspace.Legible params) (build (Build.br target)) fun _ => True :=
  build_legible (Build.terminate_legible nofun)

theorem condBr_legible {cond : Value} (hcond : cond.Legible params)
    (thenBlock elseBlock : BlockId) :
    Keeps (Workspace.Legible params) (build (Build.condBr cond thenBlock elseBlock))
      fun _ => True :=
  build_legible (Build.terminate_legible (List.forall_mem_singleton.mpr hcond))

theorem reopen_legible : Keeps (Workspace.Legible params) reopen fun _ => True := by
  refine isTerminated_legible.bind fun closed _ => ?_
  cases closed with
  | true => exact (newBlock_legible (by decide)).bind fun dead _ => moveTo_legible dead
  | false => exact .pure trivial

theorem fallThrough_legible (join : Option BlockId) :
    Keeps (Workspace.Legible params) (fallThrough join) fun _ => True := by
  refine isTerminated_legible.bind fun closed _ => ?_
  have hbranch (target : BlockId) : Keeps (Workspace.Legible params)
      (do build (Build.br target); return some target : Lower (Option BlockId)) fun _ => True :=
    (br_legible target).bind fun _ _ => .pure trivial
  cases closed with
  | true => exact .pure trivial
  | false =>
    cases join with
    | some target => exact hbranch target
    | none => exact (newBlock_legible (by decide)).bind fun target _ => hbranch target

theorem branch_legible {test : Lower Value} {body orelse : Lower Unit}
    (htest : Keeps (Workspace.Legible params) test (Value.Legible params))
    (hbody : Keeps (Workspace.Legible params) body fun _ => True)
    (horelse : Keeps (Workspace.Legible params) orelse fun _ => True) :
    Keeps (Workspace.Legible params) (branch test body orelse) fun _ => True := by
  refine htest.bind fun cond hcond => ?_
  refine (newBlock_legible (by decide)).bind fun thenBlock _ => ?_
  refine (newBlock_legible (by decide)).bind fun elseBlock _ => ?_
  refine (condBr_legible hcond thenBlock elseBlock).bind fun _ _ => ?_
  refine (moveTo_legible _).bind fun _ _ => hbody.bind fun _ _ => ?_
  refine (fallThrough_legible _).bind fun join _ => (moveTo_legible _).bind fun _ _ => ?_
  refine horelse.bind fun _ _ => (fallThrough_legible _).bind fun join' _ => ?_
  cases join' with
  | some target => exact moveTo_legible target
  | none => exact .pure trivial

theorem loop_legible {test : Lower Value} {body : Lower Unit}
    (htest : Keeps (Workspace.Legible params) test (Value.Legible params))
    (hbody : Keeps (Workspace.Legible params) body fun _ => True) :
    Keeps (Workspace.Legible params) (loop test body) fun _ => True := by
  have hclose {cond : Value} (hcond : cond.Legible params)
      (testExit bodyBlock endBlock : BlockId) : Keeps (Workspace.Legible params)
      (do
        moveTo testExit
        build (Build.condBr cond bodyBlock endBlock)
        moveTo endBlock : Lower Unit) fun _ => True :=
    (moveTo_legible _).bind fun _ _ => (condBr_legible hcond _ _).bind fun _ _ => moveTo_legible _
  have hget : Keeps (Workspace.Legible params) (get : Lower Workspace) fun _ => True := by
    intro s a s' h hs
    cases h
    exact ⟨hs, trivial⟩
  refine (newBlock_legible (by decide)).bind fun testBlock _ => ?_
  refine (newBlock_legible (by decide)).bind fun bodyBlock _ => ?_
  refine (newBlock_legible (by decide)).bind fun endBlock _ => ?_
  refine (br_legible testBlock).bind fun _ _ => (moveTo_legible _).bind fun _ _ => ?_
  refine htest.bind fun cond hcond => hget.bind fun s _ => ?_
  refine (moveTo_legible _).bind fun _ _ => hbody.bind fun _ _ => ?_
  refine isTerminated_legible.bind fun closed _ => ?_
  cases closed with
  | true => exact hclose hcond _ _ _
  | false => exact (br_legible testBlock).bind fun _ _ => hclose hcond _ _ _

/-! ## Statements -/

/-- The node is lowered to statements that can be read, in every function. -/
def StatementLegible (n : Node) : Prop :=
  ∀ params, Keeps (Workspace.Legible params) (statement n) fun _ => True

theorem block_legible {ns : List Node} (hns : ∀ n ∈ ns, StatementLegible n)
    (params : List String) : Keeps (Workspace.Legible params) (block ns) fun _ => True := by
  induction ns with
  | nil => exact .pure trivial
  | cons n rest ih =>
    rw [List.forall_mem_cons] at hns
    exact reopen_legible.bind fun _ _ => (hns.1 params).bind fun _ _ => ih hns.2

theorem elseClause_legible {ns : List Node} (hns : ∀ n ∈ ns, StatementLegible n)
    (params : List String) : Keeps (Workspace.Legible params) (elseClause ns) fun _ => True := by
  cases ns with
  | nil => exact .pure trivial
  | cons n rest =>
    intro s a s' h hs
    have hs' : (s.shortened (n :: rest).length).Legible params := by
      unfold Workspace.shortened
      split
      · exact ⟨hs.program, hs.builder⟩
      · exact hs
    rw [elseClause_cons] at h
    exact hns n (List.mem_cons_self ..) params _ _ _ h hs'

theorem buildFunction_legible {name : String} {params : List String} {body : Lower Unit}
    (hname : isIdentifier name = true) (hparams : ∀ name ∈ params, isIdentifier name = true)
    (hbody : Keeps (Workspace.Legible params) body fun _ => True) {ctx ctx' : Context}
    {id : FunctionId} (h : Context.buildFunction name params body ctx = .ok id ctx')
    (hctx : ctx.program.Legible) : ctx'.program.Legible := by
  cases buildFunction_run h with
  | @mk ctx₁ s s' hclaim hrun hcursor hend =>
    obtain ⟨-, -, -, rfl⟩ := Context.claim_eq_ok hclaim
    obtain ⟨-, hprogram, -⟩ := Context.declare_eq ctx name ⟨params.length⟩
    have hdeclared : (ctx.declare name ⟨params.length⟩).2.program.Legible :=
      hprogram ▸ hctx.declare hname ⟨params.length⟩
    have hs : s.Legible params := (hbody _ _ _ hrun ⟨hdeclared, .start hname hparams⟩).1
    have hs' : s'.Legible params := by
      rcases hend with ⟨-, rfl⟩ | ⟨-, rfl⟩
      · exact ⟨hs.program, hs.builder.close (List.forall_mem_singleton.mpr rfl)⟩
      · exact hs
    exact hs'.program.define id hs'.builder.finish

theorem statementKind_legible {k : Kind} (hnames : ∀ name ∈ k.names, isIdentifier name = true)
    (hwell : ∀ n ∈ k.parts, n.WellNamed) (hparts : ∀ n ∈ k.parts, StatementLegible n)
    (params : List String) : Keeps (Workspace.Legible params) (statementKind k) fun _ => True := by
  intro s u s' h hs
  cases statementKind_run h with
  | @assign id location span value =>
    have hid : isIdentifier id = true := by
      cases hwell ⟨.name id, location, span⟩ (by simp [Kind.parts]) with
      | mk hnames _ => exact hnames id (List.mem_cons_self ..)
    have hvalue : ExprLegible params value := expr_legible (hwell value (by simp [Kind.parts]))
    exact (hvalue.bind fun v hv => build_legible (Build.write_legible hid hv)) _ _ _ h hs
  | @expr value =>
    have hvalue : ExprLegible params value := expr_legible (hwell value (by simp [Kind.parts]))
    exact (hvalue.bind fun _ _ => .pure (P := fun _ => True) trivial) _ _ _ h hs
  | @ret value =>
    have hvalue : ExprLegible params value := expr_legible (hwell value (by simp [Kind.parts]))
    exact (hvalue.bind fun v hv => build_legible (Build.ret_legible hv)) _ _ _ h hs
  | retNone => exact build_legible (Build.ret_legible (Value.legible_int params 0)) _ _ _ h hs
  | @ifElse test body orelse =>
    have hbody := block_legible fun n (hn : n ∈ body) => hparts n (by simp [Kind.parts, hn])
    have horelse := elseClause_legible fun n (hn : n ∈ orelse) =>
      hparts n (by simp [Kind.parts, hn])
    exact branch_legible (condition_legible (hwell test (by simp [Kind.parts]))) (hbody params)
      (horelse params) _ _ _ h hs
  | @whileLoop test body =>
    have hbody := block_legible fun n (hn : n ∈ body) => hparts n (by simp [Kind.parts, hn])
    exact loop_legible (condition_legible (hwell test (by simp [Kind.parts]))) (hbody params)
      _ _ _ h hs
  | functionDef hbuild =>
    obtain ⟨hname, hparams⟩ := List.forall_mem_cons.mp hnames
    have hctx := buildFunction_legible hname hparams (block_legible hparts _) hbuild hs.program
    exact ⟨⟨hctx, hs.builder⟩, trivial⟩
  | value hrun =>
    rw [statementKind_of_isExpression hrun.isExpression] at h
    have hvalue : Keeps (Workspace.Legible params) (exprKind k) (Value.Legible params) :=
      exprKind_legible hwell fun n hn => expr_legible (hwell n hn)
    exact (hvalue.bind fun _ _ => .pure (P := fun _ => True) trivial) _ _ _ h hs

theorem statement_legible {n : Node} (hn : n.WellNamed) : StatementLegible n := by
  induction hn with
  | @mk n hnames hparts ih =>
    obtain ⟨kind, location, span⟩ := n
    intro params
    exact locating_legible (statementKind_legible hnames hparts ih params) ⟨kind, location, span⟩

end Lower

/-- A tree with names that are identifiers is lowered to a program that can be
    read. -/
theorem lower_legible {tree : Node} {options : LowerOptions} {p : Program} (htree : tree.WellNamed)
    (hoptions : options.WellNamed) (h : lower tree options = .ok p) : p.Legible := by
  obtain ⟨body, location, span, rfl⟩ := lower_module h
  obtain ⟨w, id, ctx, -, hok, -, rfl⟩ := lower_module_eq_ok.mp h
  have hbody : ∀ n ∈ body, Lower.StatementLegible n := by
    cases htree with
    | mk _ hparts => exact fun n hn => Lower.statement_legible (hparts n hn)
  exact Lower.buildFunction_legible hoptions.entry (List.forall_mem_nil _)
    (Lower.block_legible hbody []) hok (Program.withBuiltins_legible hoptions.builtins)

end Blockform
