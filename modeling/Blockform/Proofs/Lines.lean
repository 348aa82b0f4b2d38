-- SUMMARY: What a line of a function says: operations and ends of blocks that are written alike are alike (`Function.Parallel.op_like`), up to the numbers of results.
import Blockform.Proofs.Layout
import Blockform.Proofs.Similarity

/-!
# Reading a line

A line names parameters, slots, blocks and functions. In functions that agree in
these names (`Function.Parallel`) a line tells what it is about. Results need not
have the same numbers, only the same places in the order of printing
(`Function.SamePlace`); and a value that is negated is written as one that is
subtracted from zero, so of these two there may be one on either side.
-/

namespace Blockform

/-- In lists with the same distinct names, a name has one place. -/
theorem index_inj {α : Type} {name : α → String} {l l' : List α} {i j : Nat} {a b : α}
    (hdistinct : (l.map name).Nodup) (hsame : l'.map name = l.map name) (ha : l[i]? = some a)
    (hb : l'[j]? = some b) (h : name b = name a) : j = i := by
  have hi : (l.map name)[i]? = some (name a) := by rw [List.getElem?_map, ha, Option.map_some]
  have hj : (l.map name)[j]? = some (name a) := by
    rw [← hsame, List.getElem?_map, hb, Option.map_some, h]
  exact (List.getElem?_inj (List.getElem?_eq_some_iff.mp hj).1 hdistinct).mp (hj.trans hi.symm)

/-! ## Results -/

namespace Function

theorem getElem?_of_lastPosition {id : InstId} {ds : List InstId} {n : Nat}
    (h : lastPosition id ds = some n) : ds[n]? = some id := by
  induction ds generalizing n with
  | nil => cases h
  | cons d ds ih =>
    rw [lastPosition] at h
    cases hlast : lastPosition id ds with
    | some m =>
      rw [hlast] at h
      cases h
      exact ih hlast
    | none =>
      rw [hlast] at h
      simp only at h
      split at h
      · next heq =>
        cases h
        exact congrArg some heq
      · cases h

theorem exists_lastPosition {id : InstId} {ds : List InstId} (h : id ∈ ds) :
    ∃ n, lastPosition id ds = some n := by
  induction ds with
  | nil => cases h
  | cons d ds ih =>
    rw [lastPosition]
    cases hlast : lastPosition id ds with
    | some m => exact ⟨m + 1, rfl⟩
    | none =>
      rcases List.mem_cons.mp h with rfl | hmem
      · exact ⟨0, by simp⟩
      · obtain ⟨m, hm⟩ := ih hmem
        cases hlast.symm.trans hm

theorem place_of_lastPosition {ds : List InstId} {id : InstId} {n : Nat}
    (h : lastPosition id ds = some n) : place ds id = n := by
  rw [place, h, Option.getD_some]

/-- Results that are defined are told by their places. -/
theorem place_inj {ds : List InstId} {id id' : InstId} (h : id ∈ ds) (h' : id' ∈ ds)
    (heq : place ds id = place ds id') : id = id' := by
  obtain ⟨n, hn⟩ := exists_lastPosition h
  obtain ⟨n', hn'⟩ := exists_lastPosition h'
  rw [place_of_lastPosition hn, place_of_lastPosition hn'] at heq
  have hget := getElem?_of_lastPosition hn
  rw [heq, getElem?_of_lastPosition hn'] at hget
  exact (Option.some.inj hget).symm

/-- The results are printed as one number. -/
def SamePlace (f f' : Function) (id id' : InstId) : Prop :=
  id ∈ f.dests ∧ id' ∈ f'.dests ∧ place f.dests id = place f'.dests id'

theorem samePlace_biUnique (f f' : Function) : Relator.BiUnique (f.SamePlace f') := by
  constructor
  · rintro a b c ⟨ha, -, hac⟩ ⟨hb, -, hbc⟩
    exact place_inj ha hb (hac.trans hbc.symm)
  · rintro a b c ⟨-, hb, hab⟩ ⟨-, hc, hac⟩
    exact place_inj hb hc (hab.symm.trans hac)

end Function

/-! ## Operations -/

/-- The operations are written with one word. Negation shares that of subtraction. -/
inductive Op.SameCode : Op → Op → Prop where
  | load (d d' : InstId) (slot slot' : SlotId) : SameCode (.load d slot) (.load d' slot')
  | store (v v' : Value) (slot slot' : SlotId) : SameCode (.store v slot) (.store v' slot')
  | binary (op : BinaryOp) (d d' : InstId) (ty ty' : Ty) (l l' r r' : Value) :
    SameCode (.binary d op ty l r) (.binary d' op ty' l' r')
  | neg (d d' : InstId) (v v' : Value) : SameCode (.neg d v) (.neg d' v')
  | negSub (d d' : InstId) (ty : Ty) (v l r : Value) :
    SameCode (.neg d v) (.binary d' .sub ty l r)
  | subNeg (d d' : InstId) (ty : Ty) (l r v : Value) :
    SameCode (.binary d .sub ty l r) (.neg d' v)
  | icmp (d d' : InstId) (pred pred' : Predicate) (l l' r r' : Value) :
    SameCode (.icmp d pred l r) (.icmp d' pred' l' r')
  | zext (d d' : InstId) (v v' : Value) : SameCode (.zext d v) (.zext d' v')
  | call (d d' : InstId) (callee callee' : FunctionId) (args args' : List Value) :
    SameCode (.call d callee args) (.call d' callee' args')

theorem BinaryOp.mnemonic_inj {op op' : BinaryOp} (h : op.mnemonic = op'.mnemonic) : op = op' := by
  cases op <;> cases op' <;> first | rfl | exact absurd h (by decide)

theorem Predicate.mnemonic_inj {pred pred' : Predicate} (h : pred.mnemonic = pred'.mnemonic) :
    pred = pred' := by
  cases pred <;> cases pred' <;> first | rfl | exact absurd h (by decide)

theorem Op.sameCode_of_opcode {op op' : Op} (h : op.opcode = op'.opcode) : op.SameCode op' := by
  have hbinary {d : InstId} {op : BinaryOp} {ty : Ty} {l r : Value} {op' : Op}
      (h : op.mnemonic = op'.opcode) : SameCode (.binary d op ty l r) op' := by
    cases op' with
    | binary d' o' ty' l' r' =>
      cases BinaryOp.mnemonic_inj h
      exact .binary op d d' ty ty' l l' r r'
    | neg d' v' =>
      have hsub : op = .sub := BinaryOp.mnemonic_inj h
      exact hsub ▸ .subNeg d d' ty l r v'
    | _ => cases op <;> simp [opcode, BinaryOp.mnemonic] at h
  cases op with
  | binary d op ty l r => exact hbinary h
  | neg d v =>
    cases op' with
    | binary d' o' ty' l' r' =>
      have hsub : .sub = o' := BinaryOp.mnemonic_inj h
      exact hsub ▸ .negSub d d' ty' v l' r'
    | neg d' v' => exact .neg d d' v v'
    | _ => simp [opcode] at h
  | load d slot =>
    cases op' with
    | load d' slot' => exact .load d d' slot slot'
    | binary d' o' => cases o' <;> simp [opcode, BinaryOp.mnemonic] at h
    | _ => simp [opcode] at h
  | store v slot =>
    cases op' with
    | store v' slot' => exact .store v v' slot slot'
    | binary d' o' => cases o' <;> simp [opcode, BinaryOp.mnemonic] at h
    | _ => simp [opcode] at h
  | icmp d pred l r =>
    cases op' with
    | icmp d' pred' l' r' => exact .icmp d d' pred pred' l l' r r'
    | binary d' o' => cases o' <;> simp [opcode, BinaryOp.mnemonic] at h
    | _ => simp [opcode] at h
  | zext d v =>
    cases op' with
    | zext d' v' => exact .zext d d' v v'
    | binary d' o' => cases o' <;> simp [opcode, BinaryOp.mnemonic] at h
    | _ => simp [opcode] at h
  | call d callee args =>
    cases op' with
    | call d' callee' args' => exact .call d d' callee callee' args args'
    | binary d' o' => cases o' <;> simp [opcode, BinaryOp.mnemonic] at h
    | _ => simp [opcode] at h

/-- No such word starts as a result does. -/
theorem Op.opcode_ne (op : Op) (s : String) : op.opcode ≠ "%" ++ s := by
  have hall : ∀ word ∈ opcodes, word.toList.head? ≠ some '%' := by decide +kernel
  exact fun h => hall _ op.opcode_mem (by simp [h])

namespace Printer

/-! ### Ends of blocks -/

variable {pr pr' : Printer} {e : Terminator} {s : String}

theorem ret_ne_br (s s' : String) : "ret " ++ s ≠ "br " ++ s' := by
  intro heq
  have hlist := congrArg String.toList heq
  simp at hlist

/-- Behind the word of a branch stands a label, or the type of a condition. -/
theorem target_ne_typed {target : BlockId} {label : String} {cond : Value}
    (h : pr.target target = .ok label) : label ≠ pr'.typedWord cond ++ s := by
  obtain ⟨b, -, rfl⟩ := target_eq_ok.mp h
  intro heq
  have hlist := congrArg String.toList heq
  cases hty : cond.ty <;> simp [typedWord, hty, Ty.text] at hlist

theorem eq_ret_of_text (h : pr.terminator e = .ok ("ret " ++ s)) :
    ∃ v, e = .ret v ∧ pr.typedWord v = s := by
  cases e with
  | ret v => exact ⟨v, rfl, (String.append_right_inj _).mp (ret_eq_ok h).symm⟩
  | br target =>
    obtain ⟨label, -, heq⟩ := br_eq_ok h
    exact absurd heq (ret_ne_br _ _)
  | condBr cond thenBlock elseBlock =>
    obtain ⟨thenLabel, elseLabel, -, -, heq⟩ := condBr_eq_ok h
    exact absurd heq (ret_ne_br _ _)

theorem eq_br_of_text {target : BlockId} (htarget : pr'.target target = .ok s)
    (h : pr.terminator e = .ok ("br " ++ s)) :
    ∃ target', e = .br target' ∧ pr.target target' = .ok s := by
  cases e with
  | ret v => exact absurd (ret_eq_ok h).symm (ret_ne_br _ _)
  | br target' =>
    obtain ⟨label, hlabel, heq⟩ := br_eq_ok h
    cases (String.append_right_inj _).mp heq
    exact ⟨target', rfl, hlabel⟩
  | condBr cond thenBlock elseBlock =>
    obtain ⟨thenLabel, elseLabel, -, -, heq⟩ := condBr_eq_ok h
    exact absurd ((String.append_right_inj _).mp heq) (target_ne_typed htarget)

theorem eq_condBr_of_text {cond : Value}
    (h : pr.terminator e = .ok ("br " ++ (pr'.typedWord cond ++ s))) :
    ∃ cond' thenBlock elseBlock thenLabel elseLabel, e = .condBr cond' thenBlock elseBlock ∧
      pr.target thenBlock = .ok thenLabel ∧ pr.target elseBlock = .ok elseLabel ∧
      pr.typedWord cond' ++ (", " ++ (thenLabel ++ (", " ++ elseLabel))) =
        pr'.typedWord cond ++ s := by
  cases e with
  | ret v => exact absurd (ret_eq_ok h).symm (ret_ne_br _ _)
  | br target =>
    obtain ⟨label, hlabel, heq⟩ := br_eq_ok h
    exact absurd ((String.append_right_inj _).mp heq).symm (target_ne_typed hlabel)
  | condBr cond' thenBlock elseBlock =>
    obtain ⟨thenLabel, elseLabel, hthen, helse, heq⟩ := condBr_eq_ok h
    exact ⟨cond', thenBlock, elseBlock, thenLabel, elseLabel, rfl, hthen, helse,
      ((String.append_right_inj _).mp heq).symm⟩

end Printer

/-! ## Programs and functions -/

/-- The program can be read, no two of its functions have one name, and it is
    verified. -/
structure Program.Readable (p : Program) : Prop where
  legible : p.Legible
  distinct : (p.functions.map Function.name).Nodup
  verified : p.verify = .ok ()

/-- The functions agree in all that the lines of their blocks refer to by name. -/
structure Function.Parallel (p p' : Program) (f f' : Function) : Prop where
  program : p.Readable
  program' : p'.Readable
  legible : f.Legible
  legible' : f'.Legible
  params : f'.params = f.params
  slots : f'.slots = f.slots
  labels : f'.blocks.map Block.label = f.blocks.map Block.label

/-- The value can be read, and what it refers to is there. -/
structure Value.Shown (p : Program) (f : Function) (v : Value) : Prop where
  legible : v.Legible f.params
  admitted : (f.scope p).Admits v

/-! ## Values -/

/-- The ways to write a value in a function that can be read: no sign stands
    before a constant, a name stands behind that of a parameter, and a number
    behind that of a result. -/
inductive Value.Written (f : Function) : Value → String → Prop where
  | const (n : Int32) : Written f (.const .i32 n) (toString n)
  | param {index : Nat} {name : String} (hname : isIdentifier name = true)
    (hindex : f.params.findIdx? (· = name) = some index) : Written f (.param index) ("%" ++ name)
  | inst {id : InstId} (ty : Ty) (hdest : id ∈ f.dests) :
    Written f (.inst id ty) ("%" ++ toString (Function.place f.dests id))

section Values

variable {p : Program} {f f' : Function} {v v' : Value} {t t' : String}

theorem Value.Shown.written (h : v.Shown p f) (hf : f.Legible) :
    v.Written f ((Printer.of p f).word v) := by
  obtain ⟨hlegible, hadmitted⟩ := h
  cases v with
  | const ty n =>
    cases hlegible
    exact .const n
  | param index =>
    obtain ⟨name, hindex⟩ := hlegible
    rw [Printer.word_param hindex]
    exact .param (hf.params name (Printer.mem_params_of_findIdx? hindex)) hindex
  | inst id ty => exact .inst ty hadmitted

theorem word_ne (n : Int32) (s : String) : toString n ≠ "%" ++ s := by
  intro h
  have hmem : '%' ∈ (toString n).toList := by simp [h]
  rcases minus_or_isDigit hmem with heq | hdigit
  · exact absurd heq (by decide)
  · exact absurd hdigit (by decide)

theorem name_ne {name : String} (h : isIdentifier name = true) (n : Nat) :
    "%" ++ name ≠ "%" ++ toString n :=
  fun heq => ne_toString_of_isIdentifier h n ((String.append_right_inj _).mp heq)

/-- What is written tells the value, up to the number of a result. -/
theorem Value.Written.like (h : v.Written f t) (h' : v'.Written f' t')
    (hparams : f'.params = f.params) (heq : t = t') : v.Like (f.SamePlace f') v' := by
  cases h with
  | const n =>
    cases h' with
    | const n' =>
      cases toString_word_inj heq
      exact .const _ _ n
    | param _ _ => exact absurd heq (word_ne n _)
    | inst _ _ => exact absurd heq (word_ne n _)
  | param hname hindex =>
    cases h' with
    | const n' => exact absurd heq.symm (word_ne n' _)
    | param _ hindex' =>
      cases (String.append_right_inj _).mp heq
      rw [hparams, hindex] at hindex'
      cases hindex'
      exact .param _
    | inst _ _ => exact absurd heq (name_ne hname _)
  | inst ty hdest =>
    cases h' with
    | const n' => exact absurd heq.symm (word_ne n' _)
    | param hname' _ => exact absurd heq.symm (name_ne hname' _)
    | inst ty' hdest' =>
      have hnumber := Nat.repr_injective ((String.append_right_inj _).mp heq)
      exact .inst ty ty' ⟨hdest, hdest', hnumber⟩

end Values

namespace Function.Parallel

variable {p p' : Program} {f f' : Function} {v v' : Value} {t t' r r' : String}

/-! ### Values -/

/-- Values that are written alike are. -/
theorem value_like (h : f.Parallel p p' f') (hv : v.Shown p f) (hv' : v'.Shown p' f')
    (heq : (Printer.of p f).word v = (Printer.of p' f').word v') : v.Like (f.SamePlace f') v' :=
  (hv.written h.legible).like (hv'.written h.legible') h.params heq

/-- A value ends where the next gap is. -/
theorem value_unique (h : f.Parallel p p' f') (hv : v.Shown p f) (hv' : v'.Shown p' f')
    (hr : Breaks r) (hr' : Breaks r')
    (heq : (Printer.of p f).word v ++ r = (Printer.of p' f').word v' ++ r') :
    v.Like (f.SamePlace f') v' ∧ r = r' := by
  obtain ⟨hvalue, hrest⟩ := (Printer.solid_word h.legible hv.legible).unique
    (Printer.solid_word h.legible' hv'.legible) hr hr' heq
  exact ⟨h.value_like hv hv' hvalue, hrest⟩

theorem typed_unique (h : f.Parallel p p' f') (hv : v.Shown p f) (hv' : v'.Shown p' f')
    (hr : Breaks r) (hr' : Breaks r')
    (heq : (Printer.of p f).typedWord v ++ r = (Printer.of p' f').typedWord v' ++ r') :
    v.Like (f.SamePlace f') v' ∧ r = r' := by
  have hblank (x : String) : Breaks (" " ++ x) := breaks_append (by decide) x
  simp only [Printer.typedWord, String.append_assoc] at heq
  obtain ⟨-, hvalue⟩ :=
    (Printer.solid_type v.ty).unique (Printer.solid_type v'.ty) (hblank _) (hblank _) heq
  exact h.value_unique hv hv' hr hr' ((String.append_right_inj _).mp hvalue)

/-! ### Slots and blocks -/

/-- The cell of a slot is told by its name. -/
theorem cell_inj (h : f.Parallel p p' f') {slot slot' : SlotId}
    (ht : (Printer.of p f).cell slot = .ok t) (ht' : (Printer.of p' f').cell slot' = .ok t) :
    slot' = slot := by
  obtain ⟨s, hs, rfl⟩ := Printer.cell_eq_ok.mp ht
  obtain ⟨s', hs', heq⟩ := Printer.cell_eq_ok.mp ht'
  have hname : s'.name = s.name := by simpa using heq.symm
  have hsame : f'.slots.map Slot.name = f.slots.map Slot.name := by rw [h.slots]
  exact congrArg SlotId.mk (index_inj h.legible.distinctSlots hsame hs hs' hname)

/-- The target of a branch is told by its label, which ends at the next gap. -/
theorem target_unique (h : f.Parallel p p' f') {target target' : BlockId}
    (ht : (Printer.of p f).target target = .ok t)
    (ht' : (Printer.of p' f').target target' = .ok t') (hr : Breaks r) (hr' : Breaks r')
    (heq : t ++ r = t' ++ r') :
    target' = target ∧ target.val < f.blocks.length ∧ r = r' := by
  obtain ⟨b, hb, rfl⟩ := Printer.target_eq_ok.mp ht
  obtain ⟨b', hb', rfl⟩ := Printer.target_eq_ok.mp ht'
  simp only [String.append_assoc, String.append_right_inj] at heq
  obtain ⟨hlabel, hrest⟩ := (h.legible.labels b (List.mem_of_getElem? hb)).unique
    (h.legible'.labels b' (List.mem_of_getElem? hb')) hr hr' heq
  have hval := index_inj h.legible.distinctLabels h.labels hb hb' hlabel.symm
  exact ⟨congrArg BlockId.mk hval, (List.getElem?_eq_some_iff.mp hb).1, hrest⟩

/-! ### Operations -/

/-- A result and a word are told from what stands behind them. -/
theorem start_unique {op op' : Op} (hdest : ∀ d, op.dest = some d → d ∈ f.dests)
    (hdest' : ∀ d, op'.dest = some d → d ∈ f'.dests) (hr : Breaks r) (hr' : Breaks r')
    (heq : (Printer.of p f).start op ++ (op.opcode ++ r) =
      (Printer.of p' f').start op' ++ (op'.opcode ++ r')) :
    Option.Rel (f.SamePlace f') op.dest op'.dest ∧ op.opcode = op'.opcode ∧ r = r' := by
  have hequals (x : String) : Breaks (" = " ++ x) := breaks_append (by decide) x
  unfold Printer.start at heq
  cases hd : op.dest with
  | none =>
    cases hd' : op'.dest with
    | none =>
      simp only [hd, hd', Option.elim_none, String.empty_append] at heq
      exact ⟨.none, op.solid_opcode.unique op'.solid_opcode hr hr' heq⟩
    | some d' =>
      simp only [hd, hd', Option.elim_none, Option.elim_some, String.empty_append,
        String.append_assoc] at heq
      have hword := (op.solid_opcode.unique (Printer.solid_number d') hr (hequals _) heq).1
      exact absurd hword (op.opcode_ne _)
  | some d =>
    cases hd' : op'.dest with
    | none =>
      simp only [hd, hd', Option.elim_none, Option.elim_some, String.empty_append,
        String.append_assoc] at heq
      have hword := (op'.solid_opcode.unique (Printer.solid_number d) hr' (hequals _) heq.symm).1
      exact absurd hword (op'.opcode_ne _)
    | some d' =>
      simp only [hd, hd', Option.elim_some, String.append_assoc] at heq
      obtain ⟨hnumber, hrest⟩ :=
        (Printer.solid_number d).unique (Printer.solid_number d') (hequals _) (hequals _) heq
      have hplace := Nat.repr_injective ((String.append_right_inj _).mp hnumber)
      obtain ⟨hword, hend⟩ := op.solid_opcode.unique op'.solid_opcode hr hr'
        ((String.append_right_inj _).mp hrest)
      exact ⟨.some ⟨hdest d hd, hdest' d' hd', hplace⟩, hword, hend⟩

/-- Two values behind a type, with a comma between them. -/
theorem pair_like (h : f.Parallel p p' f') {ty ty' : Ty} {w w' : Value} (hv : v.Shown p f)
    (hv' : v'.Shown p' f') (hw : w.Shown p f) (hw' : w'.Shown p' f')
    (heq : ty.text ++ (" " ++ ((Printer.of p f).word v ++ (", " ++ (Printer.of p f).word w))) =
      ty'.text ++ (" " ++ ((Printer.of p' f').word v' ++ (", " ++ (Printer.of p' f').word w')))) :
    v.Like (f.SamePlace f') v' ∧ w.Like (f.SamePlace f') w' := by
  have hblank (x : String) : Breaks (" " ++ x) := breaks_append (by decide) x
  have hcomma (x : String) : Breaks (", " ++ x) := breaks_append (by decide) x
  obtain ⟨-, hvalues⟩ :=
    (Printer.solid_type ty).unique (Printer.solid_type ty') (hblank _) (hblank _) heq
  obtain ⟨hlike, hrest⟩ :=
    h.value_unique hv hv' (hcomma _) (hcomma _) ((String.append_right_inj _).mp hvalues)
  exact ⟨hlike, h.value_like hw hw' ((String.append_right_inj _).mp hrest)⟩

/-- A list of operands is told from what stands behind it. -/
theorem operands_like (h : f.Parallel p p' f') {vs vs' : List Value}
    (hvs : ∀ v ∈ vs, v.Shown p f) (hvs' : ∀ v ∈ vs', v.Shown p' f')
    (heq : ", ".intercalate (vs.map (Printer.of p f).typedWord) ++ ")" =
      ", ".intercalate (vs'.map (Printer.of p' f').typedWord) ++ ")") :
    List.Forall₂ (Value.Like (f.SamePlace f')) vs vs' := by
  have hpieces (pr : Printer) (vs : List Value) : vs.map pr.typedWord =
      (vs.map fun v => (v.ty.text, pr.word v)).map typedText := by
    simp [Printer.typedWord, typedText]
  have hsolid {p : Program} {f : Function} (hf : f.Legible) {vs : List Value}
      (hvs : ∀ v ∈ vs, v.Shown p f) :
      ∀ t ∈ vs.map fun v => (v.ty.text, (Printer.of p f).word v), Solid t.1 ∧ Solid t.2 := by
    intro t ht
    obtain ⟨v, hv, rfl⟩ := List.mem_map.mp ht
    exact ⟨Printer.solid_type v.ty, Printer.solid_word hf (hvs v hv).legible⟩
  rw [hpieces, hpieces] at heq
  have hend : Finishes ")" := rfl
  obtain ⟨hlists, -⟩ := separable_operands.intercalate_unique typedText_ne (hsolid h.legible hvs)
    (hsolid h.legible' hvs') hend hend heq
  refine (forall₂_of_map_eq hlists).imp fun v v' hboth => ?_
  obtain ⟨hv, hv', hsame⟩ := hboth
  exact h.value_like (hvs v hv) (hvs' v' hv') (Prod.ext_iff.mp hsame).2

/-- The functions of a call have one name. -/
theorem call_like (h : f.Parallel p p' f') {callee callee' : FunctionId} {vs vs' : List Value}
    {g g' : Function} (hg : p.function? callee = some g) (hg' : p'.function? callee' = some g')
    (hvs : ∀ v ∈ vs, v.Shown p f) (hvs' : ∀ v ∈ vs', v.Shown p' f')
    (heq : g.name ++ ("(" ++ (", ".intercalate (vs.map (Printer.of p f).typedWord) ++ ")")) =
      g'.name ++ ("(" ++ (", ".intercalate (vs'.map (Printer.of p' f').typedWord) ++ ")"))) :
    p.SameName p' callee callee' ∧ List.Forall₂ (Value.Like (f.SamePlace f')) vs vs' := by
  have hbracket (x : String) : Breaks ("(" ++ x) := breaks_append (by decide) x
  have hsolid := solid_of_isIdentifier (h.program.legible g (List.mem_of_getElem? hg)).name
  have hsolid' := solid_of_isIdentifier (h.program'.legible g' (List.mem_of_getElem? hg')).name
  obtain ⟨hname, hrest⟩ := hsolid.unique hsolid' (hbracket _) (hbracket _) heq
  have hcallee := Program.lookup_name h.program.distinct hg
  have hcallee' := Program.lookup_name h.program'.distinct hg'
  exact ⟨⟨g.name, hcallee, hname ▸ hcallee'⟩,
    h.operands_like hvs hvs' ((String.append_right_inj _).mp hrest)⟩

/-- Operations with one word are alike if what stands behind it is the same. -/
theorem tail_like (h : f.Parallel p p' f') {op op' : Op} (hcode : op.SameCode op')
    (hdests : Option.Rel (f.SamePlace f') op.dest op'.dest) (hop : ∀ v ∈ op.operands, v.Shown p f)
    (hop' : ∀ v ∈ op'.operands, v.Shown p' f') (ht : (Printer.of p f).tail op = .ok t)
    (ht' : (Printer.of p' f').tail op' = .ok t) : op.Like p p' (f.SamePlace f') op' := by
  have hblank (x : String) : Breaks (" " ++ x) := breaks_append (by decide) x
  have hcomma (x : String) : Breaks (", " ++ x) := breaks_append (by decide) x
  have hzero {p : Program} {f : Function} : (Value.const .i32 0).Shown p f := ⟨rfl, trivial⟩
  cases hcode with
  | load d d' slot slot' =>
    obtain ⟨cell, hcell, rfl⟩ := except_map_eq_ok.mp ht
    obtain ⟨cell', hcell', heq⟩ := except_map_eq_ok.mp ht'
    cases (String.append_right_inj _).mp heq
    cases h.cell_inj hcell hcell'
    cases hdests with
    | some hd => exact .load _ hd
  | store v v' slot slot' =>
    obtain ⟨cell, hcell, rfl⟩ := except_map_eq_ok.mp ht
    obtain ⟨cell', hcell', heq⟩ := except_map_eq_ok.mp ht'
    obtain ⟨hv, hcells⟩ := h.typed_unique (hop v (by simp [Op.operands]))
      (hop' v' (by simp [Op.operands])) (hcomma _) (hcomma _) heq.symm
    cases (String.append_right_inj _).mp hcells
    cases h.cell_inj hcell hcell'
    exact .store _ hv
  | binary op d d' ty ty' l l' r r' =>
    cases ht
    obtain ⟨hl, hr⟩ := h.pair_like (hop l (by simp [Op.operands])) (hop' l' (by simp [Op.operands]))
      (hop r (by simp [Op.operands])) (hop' r' (by simp [Op.operands])) (Except.ok.inj ht').symm
    cases hdests with
    | some hd => exact .binary op ty ty' hd hl hr
  | neg d d' v v' =>
    cases ht
    obtain ⟨-, hv⟩ := h.pair_like hzero hzero (hop v (by simp [Op.operands]))
      (hop' v' (by simp [Op.operands])) (Except.ok.inj ht').symm
    cases hdests with
    | some hd => exact .neg hd hv
  | negSub d d' ty v l r =>
    cases ht
    obtain ⟨hl, hv⟩ := h.pair_like hzero (hop' l (by simp [Op.operands]))
      (hop v (by simp [Op.operands])) (hop' r (by simp [Op.operands])) (Except.ok.inj ht').symm
    cases hl with
    | const _ zeroTy => cases hdests with
      | some hd => exact .negSub ty zeroTy hd hv
  | subNeg d d' ty l r v =>
    cases ht
    obtain ⟨hl, hv⟩ := h.pair_like (hop l (by simp [Op.operands])) hzero
      (hop r (by simp [Op.operands])) (hop' v (by simp [Op.operands])) (Except.ok.inj ht').symm
    cases hl with
    | const zeroTy _ => cases hdests with
      | some hd => exact .subNeg ty zeroTy hd hv
  | icmp d d' pred pred' l l' r r' =>
    cases ht
    have hsolid (pred : Predicate) : Solid pred.mnemonic := by cases pred <;> decide
    obtain ⟨hpred, htail⟩ :=
      (hsolid pred).unique (hsolid pred') (hblank _) (hblank _) (Except.ok.inj ht').symm
    obtain ⟨hl, hvalue⟩ := h.typed_unique (hop l (by simp [Op.operands]))
      (hop' l' (by simp [Op.operands])) (hcomma _) (hcomma _) ((String.append_right_inj _).mp htail)
    have hr := h.value_like (hop r (by simp [Op.operands])) (hop' r' (by simp [Op.operands]))
      ((String.append_right_inj _).mp hvalue)
    cases Predicate.mnemonic_inj hpred
    cases hdests with
    | some hd => exact .icmp pred hd hl hr
  | zext d d' v v' =>
    cases ht
    have hto : Breaks " to i32" := by decide
    obtain ⟨hv, -⟩ := h.typed_unique (hop v (by simp [Op.operands]))
      (hop' v' (by simp [Op.operands])) hto hto (Except.ok.inj ht').symm
    cases hdests with
    | some hd => exact .zext hd hv
  | call d d' callee callee' args args' =>
    obtain ⟨g, hg, rfl⟩ := except_map_eq_ok.mp ht
    obtain ⟨g', hg', heq⟩ := except_map_eq_ok.mp ht'
    have hg := entryOf_eq_ok.mp hg
    have hg' := entryOf_eq_ok.mp hg'
    obtain ⟨hcallee, hargs⟩ := h.call_like hg hg' hop hop' ((String.append_right_inj _).mp heq.symm)
    cases hdests with
    | some hd => exact .call hd hcallee hargs

/-- Operations that are written alike are. -/
theorem op_like (h : f.Parallel p p' f') {op op' : Op} (hop : ∀ v ∈ op.operands, v.Shown p f)
    (hop' : ∀ v ∈ op'.operands, v.Shown p' f') (hdest : ∀ d, op.dest = some d → d ∈ f.dests)
    (hdest' : ∀ d, op'.dest = some d → d ∈ f'.dests) (ht : (Printer.of p f).op op = .ok t)
    (ht' : (Printer.of p' f').op op' = .ok t) : op.Like p p' (f.SamePlace f') op' := by
  obtain ⟨u, hu, rfl⟩ := Printer.op_eq_ok ht
  obtain ⟨u', hu', heq⟩ := Printer.op_eq_ok ht'
  have hblank (x : String) : Breaks (" " ++ x) := breaks_append (by decide) x
  obtain ⟨hdests, hcode, hrest⟩ := start_unique hdest hdest' (hblank u) (hblank u') heq
  cases (String.append_right_inj _).mp hrest
  exact h.tail_like (Op.sameCode_of_opcode hcode) hdests hop hop' hu hu'

/-! ### Ends of blocks -/

/-- Ends of blocks that are written alike are. -/
theorem terminator_like (h : f.Parallel p p' f') {e e' : Terminator}
    (he : ∀ v ∈ e.operands, v.Shown p f) (he' : ∀ v ∈ e'.operands, v.Shown p' f')
    (ht : (Printer.of p f).terminator e = .ok t)
    (ht' : (Printer.of p' f').terminator e' = .ok t) :
    e.Like (f.SamePlace f') f.blocks.length e' := by
  have hcomma (x : String) : Breaks (", " ++ x) := breaks_append (by decide) x
  have hnone : Breaks "" := by decide
  cases e with
  | ret v =>
    obtain rfl := Printer.ret_eq_ok ht
    obtain ⟨v', rfl, heq⟩ := Printer.eq_ret_of_text ht'
    obtain ⟨hv, -⟩ := h.typed_unique (he v (by simp [Terminator.operands]))
      (he' v' (by simp [Terminator.operands])) hnone hnone (congrArg (· ++ "") heq.symm)
    exact .ret hv
  | br target =>
    obtain ⟨label, hlabel, rfl⟩ := Printer.br_eq_ok ht
    obtain ⟨target', rfl, hlabel'⟩ := Printer.eq_br_of_text hlabel ht'
    obtain ⟨rfl, hlt, -⟩ := h.target_unique hlabel hlabel' hnone hnone rfl
    exact .br hlt
  | condBr cond thenBlock elseBlock =>
    obtain ⟨thenLabel, elseLabel, hthen, helse, rfl⟩ := Printer.condBr_eq_ok ht
    obtain ⟨cond', _, _, thenLabel', elseLabel', rfl, hthen', helse', heq⟩ :=
      Printer.eq_condBr_of_text ht'
    obtain ⟨hcond, heq⟩ := h.typed_unique (he cond (by simp [Terminator.operands]))
      (he' cond' (by simp [Terminator.operands])) (hcomma _) (hcomma _) heq.symm
    obtain ⟨rfl, hthen, heq⟩ := h.target_unique hthen hthen' (hcomma _) (hcomma _)
      ((String.append_right_inj _).mp heq)
    obtain ⟨rfl, helse, -⟩ := h.target_unique helse helse' hnone hnone
      (congrArg (· ++ "") ((String.append_right_inj _).mp heq))
    exact .condBr hcond hthen helse

end Function.Parallel

end Blockform
