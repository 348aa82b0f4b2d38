-- SUMMARY: The names inside the text of a function: which parameters are written like a slot or a result (`local_names_collide_iff`).
import Blockform.Proofs.Numbering

/-!
# Local names

A parameter is written by its name, a slot by that of its variable with `.addr` behind
it, and a result by a number. Names stand in the text as they are, whatever characters
they are made of, so a parameter may be written like a slot or like a result; a slot is
never written like a result. Where names are identifiers no two of the three are written
alike, as neither a point nor a digit in front occurs in an identifier.
-/

namespace Blockform

/-! ## Texts -/

/-- What ends with letters is no number. -/
theorem append_addr_ne_toString (name : String) (n : Nat) : name ++ ".addr" ≠ toString n := by
  intro h
  have hmem : 'r' ∈ (toString n).toList := by
    rw [← h, String.toList_append]
    exact List.mem_append_right _ (by decide)
  exact absurd (isDigit_of_mem_toString hmem) (by decide)

/-- No identifier has a point in it. -/
theorem append_addr_ne_identifier {param : String} (h : isIdentifier param = true)
    (name : String) : param ≠ name ++ ".addr" := by
  rintro rfl
  obtain ⟨-, -, -, -, hchars⟩ := isIdentifier_toList h
  have hpoint : isNameChar '.' = false := by decide +kernel
  have hmem : '.' ∈ (name ++ ".addr").toList := by
    rw [String.toList_append]
    exact List.mem_append_right _ (by decide)
  rw [hchars '.' hmem] at hpoint
  cases hpoint

namespace Printer

variable {pr : Printer}

/-! ## Names in a text -/

/-- The text is the name of a slot, as it stands behind its type. -/
def NamesSlot (pr : Printer) (slot : SlotId) (text : String) : Prop :=
  pr.cell slot = .ok ("i32* " ++ text)

/-- Slots, parameters and results have different names. -/
structure NamesApart (pr : Printer) : Prop where
  slot_param : ∀ slot text, pr.NamesSlot slot text →
    ∀ index < pr.function.params.length, pr.value (.param index) ≠ .ok text
  result_param : ∀ id ∈ pr.dests, ∀ ty,
    ∀ index < pr.function.params.length, pr.value (.inst id ty) ≠ pr.value (.param index)
  result_slot : ∀ id ∈ pr.dests, ∀ ty slot text, pr.NamesSlot slot text →
    pr.value (.inst id ty) ≠ .ok text

theorem value_param {index : Nat} {param : String} (h : pr.function.params[index]? = some param) :
    pr.value (.param index) = .ok ("%" ++ param) := by
  simp only [value, h]
  rfl

theorem namesSlot_iff {slot : SlotId} {text : String} :
    pr.NamesSlot slot text ↔
      ∃ s, pr.function.slot? slot = some s ∧ text = "%" ++ (s.name ++ ".addr") := by
  have hcell (s : Slot) :
      "i32* %" ++ (s.name ++ ".addr") = "i32* " ++ ("%" ++ (s.name ++ ".addr")) := by
    rw [← String.append_assoc]
    rfl
  unfold NamesSlot
  rw [cell_eq_ok]
  refine exists_congr fun s => and_congr_right fun _ => ?_
  rw [hcell, String.append_right_inj]

/-! ## Collisions -/

/-- What is written alike in the text of a function. A result is written only if its
    number can be counted. -/
structure Collisions (pr : Printer) : Prop where
  slot_param : ∀ slot s text index param, pr.function.slot? slot = some s →
    pr.NamesSlot slot text → pr.function.params[index]? = some param →
      (pr.value (.param index) = .ok text ↔ param = s.name ++ ".addr")
  result_param : ∀ (i : Nat) id ty index param, pr.dests[i]? = some id →
    pr.function.params[index]? = some param →
      (pr.value (.inst id ty) = pr.value (.param index) ↔
        param = toString i ∧ pr.dests.length + id.val < UInt64.size)
  result_slot : ∀ id ∈ pr.dests, ∀ ty slot text, pr.NamesSlot slot text →
    pr.value (.inst id ty) ≠ .ok text

theorem collisions (h : pr.dests.Nodup) : pr.Collisions where
  slot_param slot s text index param hslot htext hparam := by
    obtain ⟨s', hslot', rfl⟩ := namesSlot_iff.mp htext
    obtain rfl := Option.some.inj (hslot.symm.trans hslot')
    rw [value_param hparam, Except.ok.injEq, String.append_right_inj]
  result_param i id ty index param hid hparam := by
    have hresult : pr.value (.inst id ty) = pr.result id := rfl
    rw [value_param hparam, hresult, result_eq_ok, number, Function.place_of_getElem? h hid,
      eraseDups_of_nodup h, String.append_right_inj, and_comm]
  result_slot id _ ty slot text htext heq := by
    obtain ⟨s, -, rfl⟩ := namesSlot_iff.mp htext
    have hword : pr.number id = "%" ++ (s.name ++ ".addr") := (result_eq_ok.mp heq).2.symm
    rw [number, String.append_right_inj] at hword
    exact append_addr_ne_toString _ _ hword.symm

/-- Where parameters are identifiers, nothing is written alike. -/
theorem Collisions.namesApart (h : pr.Collisions)
    (hparams : ∀ param ∈ pr.function.params, isIdentifier param = true) : pr.NamesApart where
  slot_param slot text htext index hindex heq := by
    have hget := List.getElem?_eq_getElem hindex
    obtain ⟨s, hslot, -⟩ := namesSlot_iff.mp htext
    exact append_addr_ne_identifier (hparams _ (List.getElem_mem hindex)) _
      ((h.slot_param slot s text index _ hslot htext hget).mp heq)
  result_param id hid ty index hindex heq := by
    have hget := List.getElem?_eq_getElem hindex
    obtain ⟨i, hi⟩ := List.mem_iff_getElem?.mp hid
    exact ne_toString_of_isIdentifier (hparams _ (List.getElem_mem hindex)) _
      ((h.result_param i id ty index _ hi hget).mp heq).1
  result_slot := h.result_slot

end Printer

/-! ## Trees -/

variable {tree : Node} {options : LowerOptions} {p : Program} {f : Function}

/-- In the text of a lowered function a slot is written like a parameter if that is
    called like the variable with `.addr` behind it, a result is written like a parameter
    if that is called like the number of the result, and no slot is written like a
    result. So nothing is written alike if the names in the tree are identifiers. -/
theorem local_names_collide_iff (h : lower tree options = .ok p) (hf : f ∈ p.functions) :
    (Printer.of p f).Collisions ∧
      (tree.WellNamed → options.WellNamed → (Printer.of p f).NamesApart) := by
  have hdistinct : f.dests.Nodup :=
    Function.dests_nodup (Program.verify_eq_ok.mp (lower_verify h) f hf)
  have hcollisions : (Printer.of p f).Collisions := Printer.collisions hdistinct
  exact ⟨hcollisions, fun htree hoptions =>
    hcollisions.namesApart (lower_legible htree hoptions h f hf).params⟩

/-- A function that assigns to `x` a parameter and one. -/
def summing (params : List String) (param : String) : Node :=
  .module [.functionDef "f" params [.assign "x" (.binop (.name param) .add (.int 1))]]

/-- Its names are identifiers if those of the parameters are. -/
theorem summing_wellNamed {params : List String} {param : String}
    (hparams : ∀ name ∈ params, isIdentifier name = true) (hparam : isIdentifier param = true) :
    (summing params param).WellNamed := by
  have hname (name : String) (h : isIdentifier name = true) : (Node.name name).WellNamed :=
    .mk (List.forall_mem_singleton.mpr h) nofun
  have hsum : (Node.binop (.name param) .add (.int 1)).WellNamed := by
    refine .mk nofun (List.forall_mem_cons.mpr ⟨hname param hparam, ?_⟩)
    exact List.forall_mem_singleton.mpr (.mk nofun nofun)
  have hassign : (Node.assign "x" (.binop (.name param) .add (.int 1))).WellNamed := by
    refine .mk nofun (List.forall_mem_cons.mpr ⟨hname "x" (by decide +kernel), ?_⟩)
    exact List.forall_mem_singleton.mpr hsum
  have hdef : (Node.functionDef "f" params
      [.assign "x" (.binop (.name param) .add (.int 1))]).WellNamed := by
    refine .mk (List.forall_mem_cons.mpr ⟨by decide +kernel, hparams⟩) ?_
    exact List.forall_mem_singleton.mpr hassign
  exact .mk nofun (List.forall_mem_singleton.mpr hdef)

/-- With a parameter `x`, which has the name of the variable, nothing is written alike. -/
theorem summing_names_apart :
    ∃ p, lower (summing ["x"] "x") {} = .ok p ∧
      (p.functions.map fun f => (f.params, f.slots, f.dests)) =
        [([], [], []), ([], [], []), (["x"], [⟨"x"⟩], [⟨0⟩])] ∧
      ∀ f ∈ p.functions, (Printer.of p f).NamesApart := by
  have htree : (summing ["x"] "x").WellNamed :=
    summing_wellNamed (List.forall_mem_singleton.mpr (by decide +kernel)) (by decide +kernel)
  have hoptions : LowerOptions.WellNamed {} := ⟨by decide +kernel, by decide +kernel⟩
  have hparts : (lower (summing ["x"] "x") {}).toOption.map
      (fun p => p.functions.map fun f => (f.params, f.slots, f.dests)) =
        some [([], [], []), ([], [], []), (["x"], [⟨"x"⟩], [⟨0⟩])] := by decide +kernel
  cases h : lower (summing ["x"] "x") {} with
  | error e =>
    rw [h] at hparts
    cases hparts
  | ok p =>
    rw [h] at hparts
    exact ⟨p, rfl, Option.some.inj hparts,
      fun f hf => (local_names_collide_iff h hf).2 htree hoptions⟩

/-- With parameters `x.addr` and `0`, the first one is written like the slot of `x` and
    the second one like the sum. -/
theorem summing_names_collide :
    ∃ p f, lower (summing ["x.addr", "0"] "0") {} = .ok p ∧ f ∈ p.functions ∧
      f.isDeclaration = false ∧
      (Printer.of p f).cell ⟨0⟩ = .ok "i32* %x.addr" ∧
      (Printer.of p f).value (.param 0) = .ok "%x.addr" ∧
      (Printer.of p f).value (.inst ⟨0⟩ .i32) = .ok "%0" ∧
      (Printer.of p f).value (.param 1) = .ok "%0" ∧
      ¬ (Printer.of p f).NamesApart := by
  let shown (p : Program) (f : Function) : Bool × List String × List (Except Fault String) :=
    let pr := Printer.of p f
    (f.isDeclaration, f.params,
      pr.cell ⟨0⟩ :: [.param 0, .inst ⟨0⟩ .i32, .param 1].map pr.value)
  have hshown : (lower (summing ["x.addr", "0"] "0") {}).toOption.bind
      (fun p => p.functions[2]?.map (shown p)) =
        some (false, ["x.addr", "0"],
          [.ok "i32* %x.addr", .ok "%x.addr", .ok "%0", .ok "%0"]) := by
    decide +kernel
  obtain ⟨p, hp, hf⟩ := Option.bind_eq_some_iff.mp hshown
  obtain ⟨f, hf, hnames⟩ := Option.map_eq_some_iff.mp hf
  simp only [shown, List.map_cons, List.map_nil, Prod.mk.injEq, List.cons.injEq] at hnames
  obtain ⟨hbody, hparams, hcell, hfirst, hresult, hsecond, -⟩ := hnames
  have hlt : 0 < (Printer.of p f).function.params.length := by
    rw [show (Printer.of p f).function.params = ["x.addr", "0"] from hparams]
    decide
  refine ⟨p, f, ?_, List.mem_of_getElem? hf, hbody, hcell, hfirst, hresult, hsecond,
    fun hapart => hapart.slot_param ⟨0⟩ "%x.addr" hcell 0 hlt hfirst⟩
  cases hlower : lower (summing ["x.addr", "0"] "0") {} with
  | ok q =>
    rw [hlower] at hp
    exact congrArg Except.ok (Option.some.inj hp)
  | error e =>
    rw [hlower] at hp
    cases hp

end Blockform
