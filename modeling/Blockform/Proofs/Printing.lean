-- SUMMARY: A verified program can be printed, as far as its results can be counted (`Program.print_settled`).
import Blockform.IR.Print
import Blockform.Proofs.Verification

/-!
# Printing verified programs

The printer follows the numbers that verification has looked up, so that it finds an
entry for each of them. The one thing that can stop it is the count with which it
prints a result: the number past all results is counted from the number of the result,
which a program that was put together by hand may take from anywhere
(`Function.Countable`).
-/

namespace Blockform

/-- The printed numbers of the results of the function can be counted in a word. -/
def Function.Countable (f : Function) : Prop :=
  ∀ id ∈ f.dests, f.dests.eraseDups.length + id.val < UInt64.size

instance (f : Function) : Decidable f.Countable :=
  inferInstanceAs (Decidable (∀ id ∈ f.dests, f.dests.eraseDups.length + id.val < UInt64.size))

theorem eraseDups_of_nodup {ds : List InstId} (h : ds.Nodup) : ds.eraseDups = ds := by
  induction ds with
  | nil => rfl
  | cons d ds ih =>
    obtain ⟨hd, hds⟩ := List.nodup_cons.mp h
    have hfilter : ds.filter (fun d' => !d' == d) = ds := by
      refine List.filter_eq_self.mpr fun d' hd' => ?_
      have hne : d' ≠ d := fun heq => hd (heq ▸ hd')
      simpa using hne
    rw [List.eraseDups_cons, hfilter, ih hds]

/-- No verified function defines a result twice, and a declaration defines none. -/
theorem Function.dests_nodup {p : Program} {f : Function}
    (hf : f.isDeclaration = false → f.Verified p) : f.dests.Nodup := by
  cases hbody : f.isDeclaration with
  | false => exact (hf hbody).distinct
  | true =>
    rw [Function.dests, Function.ops, List.isEmpty_iff.mp hbody]
    exact .nil

theorem Function.mem_dests {f : Function} {b : Block} (hb : b ∈ f.blocks) {op : Op}
    (hop : op ∈ b.ops) {d : InstId} (hd : op.dest = some d) : d ∈ f.dests :=
  List.mem_filterMap.mpr ⟨op, List.mem_flatMap.mpr ⟨b, hb, hop⟩, hd⟩

namespace Printer

/-! ## What stops a printer -/

section
variable {α β : Type} {room : Prop} {x : Except Fault α}

/-- There is a text, unless there is no room to count; then nothing else is wrong. -/
inductive Settled (room : Prop) : Except Fault α → Prop where
  | ok (a : α) : Settled room (.ok a)
  | overflow (h : ¬ room) : Settled room (.error .overflow)

namespace Settled

theorem bind {f : α → Except Fault β} (h : Settled room x) (hf : ∀ a, Settled room (f a)) :
    Settled room (x >>= f) := by
  cases h with
  | ok a => exact hf a
  | overflow hroom => exact .overflow hroom

theorem mapM {γ : Type} {f : γ → Except Fault α} {l : List γ} (h : ∀ c ∈ l, Settled room (f c)) :
    Settled room (l.mapM f) := by
  induction l with
  | nil => exact .ok []
  | cons c l ih =>
    obtain ⟨hfirst, hrest⟩ := List.forall_mem_cons.mp h
    rw [List.mapM_cons]
    exact hfirst.bind fun a => (ih hrest).bind fun as => .ok (a :: as)

theorem mono {room' : Prop} (h : Settled room x) (hroom : room' → room) : Settled room' x := by
  cases h with
  | ok a => exact .ok a
  | overflow hnot => exact .overflow (mt hroom hnot)

theorem exists_ok (h : Settled room x) (hroom : room) : ∃ a, x = .ok a := by
  cases h with
  | ok a => exact ⟨a, rfl⟩
  | overflow hnot => exact absurd hroom hnot

theorem ne_noEntry (h : Settled room x) : x ≠ .error .noEntry := by
  cases h <;> simp

theorem entryOf {found : Option α} {a : α} (h : found = some a) :
    Settled room (Blockform.entryOf found) :=
  h ▸ .ok a

end Settled

end

/-! ## Lines -/

variable {p : Program} {f : Function}

theorem result_settled {id : InstId} (h : id ∈ f.dests) :
    Settled f.Countable ((Printer.of p f).result id) := by
  have hnumber : Settled f.Countable (Function.printedNumber f.dests id) := by
    unfold Function.printedNumber
    split
    · exact .ok _
    · rename_i hover
      exact .overflow fun hcount => hover (hcount id h)
  exact hnumber.bind fun n => .ok _

theorem dest_settled {id : InstId} (h : id ∈ f.dests) :
    Settled f.Countable ((Printer.of p f).dest id) :=
  (result_settled h).bind fun _ => .ok _

theorem value_settled {v : Value} (h : (f.scope p).Admits v) :
    Settled f.Countable ((Printer.of p f).value v) := by
  cases v with
  | const ty n => cases ty <;> exact .ok _
  | param index =>
    simp only [value]
    split <;> exact .ok _
  | inst id ty => exact result_settled h

theorem typed_settled {v : Value} (h : (f.scope p).Admits v) :
    Settled f.Countable ((Printer.of p f).typed v) :=
  (value_settled h).bind fun _ => .ok _

theorem cell_settled {slot : SlotId} (h : slot.val < f.slots.length) :
    Settled f.Countable ((Printer.of p f).cell slot) :=
  (Settled.entryOf (List.getElem?_eq_getElem h)).bind fun _ => .ok _

theorem target_settled {id : BlockId} (h : (f.scope p).HasBlock id) :
    Settled f.Countable ((Printer.of p f).target id) :=
  (Settled.entryOf (List.getElem?_eq_getElem h)).bind fun _ => .ok _

/-- An operation that verification has passed is printed. -/
theorem op_settled {op : Op} (hdest : ∀ d, op.dest = some d → d ∈ f.dests)
    (hop : ∀ v ∈ op.operands, (f.scope p).Admits v) (hfits : (f.scope p).Fits op) :
    Settled f.Countable ((Printer.of p f).op op) := by
  have hpair (lhs rhs : Value) (h : ∀ v ∈ [lhs, rhs], (f.scope p).Admits v) :
      (f.scope p).Admits lhs ∧ (f.scope p).Admits rhs := by simpa using h
  cases op with
  | load dest slot =>
    exact (dest_settled (hdest dest rfl)).bind fun _ => (cell_settled hfits).bind fun _ => .ok _
  | store value slot =>
    have hvalue := typed_settled (hop value (List.mem_singleton_self _))
    exact hvalue.bind fun _ => (cell_settled hfits.1).bind fun _ => .ok _
  | binary dest op ty lhs rhs =>
    obtain ⟨hlhs, hrhs⟩ := hpair lhs rhs hop
    exact (dest_settled (hdest dest rfl)).bind fun _ => (value_settled hlhs).bind fun _ =>
      (value_settled hrhs).bind fun _ => .ok _
  | neg dest operand =>
    have hvalue := value_settled (hop operand (List.mem_singleton_self _))
    exact (dest_settled (hdest dest rfl)).bind fun _ => hvalue.bind fun _ => .ok _
  | icmp dest pred lhs rhs =>
    obtain ⟨hlhs, hrhs⟩ := hpair lhs rhs hop
    exact (dest_settled (hdest dest rfl)).bind fun _ => (typed_settled hlhs).bind fun _ =>
      (value_settled hrhs).bind fun _ => .ok _
  | zext dest operand =>
    have hvalue := typed_settled (hop operand (List.mem_singleton_self _))
    exact (dest_settled (hdest dest rfl)).bind fun _ => hvalue.bind fun _ => .ok _
  | call dest callee args =>
    have hcallee : p.function? callee = some p.functions[callee.val] :=
      List.getElem?_eq_getElem hfits
    have hargs : Settled f.Countable (args.mapM (Printer.of p f).typed) :=
      .mapM fun v hv => typed_settled (hop v hv)
    exact (dest_settled (hdest dest rfl)).bind fun _ => (Settled.entryOf hcallee).bind fun _ =>
      hargs.bind fun _ => .ok _

theorem terminator_settled {t : Terminator} (h : (f.scope p).Leaves t) :
    Settled f.Countable ((Printer.of p f).terminator t) := by
  cases t with
  | ret value => exact (typed_settled h).bind fun _ => .ok _
  | br target => exact (target_settled h).bind fun _ => .ok _
  | condBr cond thenBlock elseBlock =>
    obtain ⟨hcond, -, hthen, helse⟩ := h
    exact (typed_settled hcond).bind fun _ => (target_settled hthen).bind fun _ =>
      (target_settled helse).bind fun _ => .ok _

/-! ## Functions -/

theorem block_settled (hf : f.Verified p) {b : Block} (hb : b ∈ f.blocks) (cells : List String) :
    Settled f.Countable ((Printer.of p f).block cells b) := by
  obtain ⟨t, ht, hleaves⟩ := hf.ends b hb
  have hops : Settled f.Countable (b.ops.mapM (Printer.of p f).op) := .mapM fun op hop =>
    op_settled (fun _ hd => Function.mem_dests hb hop hd) (hf.operands b hb op hop)
      (hf.fits b hb op hop)
  have hlast : Settled f.Countable ((Printer.of p f).ending b) := by
    rw [ending, ht]
    exact terminator_settled hleaves
  have hlines : Settled f.Countable ((Printer.of p f).blockLines b) :=
    hops.bind fun _ => hlast.bind fun _ => .ok _
  exact hlines.bind fun _ => .ok _

theorem blocks_settled (hf : f.Verified p) : Settled f.Countable (Printer.of p f).blocks := by
  have hfunction : (Printer.of p f).function = f := rfl
  unfold blocks
  rw [hfunction]
  cases hblocks : f.blocks with
  | nil => exact .ok []
  | cons first rest =>
    have hmem : ∀ b ∈ first :: rest, b ∈ f.blocks := fun b hb => hblocks ▸ hb
    obtain ⟨hfirst, hrest⟩ := List.forall_mem_cons.mp hmem
    exact (block_settled hf hfirst _).bind fun _ =>
      (Settled.mapM fun b hb => block_settled hf (hrest b hb) []).bind fun _ => .ok _

theorem text_settled (hf : f.isDeclaration = false → f.Verified p) :
    Settled f.Countable (Printer.of p f).text := by
  have hfunction : (Printer.of p f).function = f := rfl
  unfold text
  rw [hfunction]
  cases hbody : f.isDeclaration with
  | true =>
    simp only [hbody, if_true]
    exact .ok _
  | false =>
    simp only [hbody, Bool.false_eq_true, if_false]
    exact (blocks_settled (hf hbody)).bind fun _ => .ok _

end Printer

/-- A verified program has a text, unless the number of a result cannot be counted. -/
theorem Program.print_settled {p : Program} (hp : p.verify = .ok ()) :
    Printer.Settled (∀ f ∈ p.functions, f.Countable) p.print := by
  have hfunctions : Printer.Settled (∀ f ∈ p.functions, f.Countable)
      (p.functions.mapM fun f => (Printer.of p f).text) := .mapM fun f hf =>
    (Printer.text_settled (Program.verify_eq_ok.mp hp f hf)).mono fun hcount => hcount f hf
  exact hfunctions.bind fun _ => .ok _

end Blockform
