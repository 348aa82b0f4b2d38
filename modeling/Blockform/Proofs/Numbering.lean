-- SUMMARY: References in the text of a lowered program resolve: results are numbered down the text, and each use shows the number of the line that defines it (`printed_references_resolve`).
import Blockform.Proofs.Counting
import Blockform.Proofs.Labels
import Blockform.Proofs.Pages
import Blockform.Proofs.Slots
import Blockform.Proofs.WellFormed

/-!
# Printed references

A lowered function defines no result twice. Down its page the lines that define one
are then numbered without a gap, whatever the order in which the blocks were built,
and what an instruction takes is written as the number of the line that defines it.
Its labels are told apart by the numbers behind them, and a variable gets a slot only
if it has none.
-/

namespace Blockform

/-- Where no result is defined twice, the results are numbered in order. -/
theorem Function.place_of_getElem? {ds : List InstId} (h : ds.Nodup) {i : Nat} {id : InstId}
    (hi : ds[i]? = some id) : place ds id = i := by
  obtain ⟨n, hn⟩ := exists_lastPosition (List.mem_of_getElem? hi)
  have hget := getElem?_of_lastPosition hn
  have hlt := (List.getElem?_eq_some_iff.mp hget).1
  rw [place_of_lastPosition hn]
  exact (List.getElem?_inj hlt h).mp (hget.trans hi.symm)

/-! ## References -/

namespace Printer

variable {pr : Printer}

/-- The references in the text of a function resolve. -/
structure Resolves (pr : Printer) : Prop where
  /-- The text is made of the lines of the page. -/
  text : ∃ lines, pr.page.mapM pr.line = .ok lines ∧
    pr.text = .ok (String.join (lines.map lineText))
  /-- The lines hold the instructions of the function, in order. -/
  instructions : pr.page.filterMap PageLine.instruction = pr.function.instructions
  /-- The lines that define a result are numbered down the text. -/
  numbered : ∀ (i : Nat) (l : PageLine), (definitions pr.page)[i]? = some l →
    ∃ rest, pr.line l = .ok ("  %" ++ (toString i ++ (" = " ++ rest)))
  /-- Every line shows what its instruction takes. -/
  shown : ∀ l ∈ pr.page, ∃ text words, pr.line l = .ok text ∧
    l.operands.mapM pr.value = .ok words ∧ Spells text words
  /-- What is shown for a result is the number of the one line that defines it. -/
  resolved : ∀ l ∈ pr.page, ∀ id ty, .inst id ty ∈ l.operands →
    ∃ i : Nat, pr.value (.inst id ty) = .ok ("%" ++ toString i) ∧
      ∀ j, (∃ l', (definitions pr.page)[j]? = some l' ∧ l'.dest = some id) ↔ j = i

/-- The definition of a result stands at its place among the results. -/
theorem definition_iff (pr : Printer) (i : Nat) (id : InstId) :
    (∃ l, (definitions pr.page)[i]? = some l ∧ l.dest = some id) ↔
      pr.function.dests[i]? = some id := by
  have hget : (definitions pr.page)[i]?.map PageLine.dest = pr.function.dests[i]?.map some := by
    rw [← List.getElem?_map, definitions_dest, page_instructions, Function.instructions_dest,
      List.getElem?_map]
  constructor
  · rintro ⟨l, hl, hdest⟩
    rw [hl, Option.map_some, hdest] at hget
    obtain ⟨id', hid, heq⟩ := Option.map_eq_some_iff.mp hget.symm
    cases heq
    exact hid
  · intro hid
    rw [hid] at hget
    exact Option.map_eq_some_iff.mp hget

theorem mem_page_of_definitions {l : PageLine} {i : Nat}
    (h : (definitions pr.page)[i]? = some l) : l ∈ pr.page ∧ ∃ id, l.dest = some id := by
  obtain ⟨hl, hdest⟩ := List.mem_filter.mp (List.mem_of_getElem? h)
  exact ⟨hl, Option.isSome_iff_exists.mp hdest⟩

variable {p : Program} {f : Function}

/-- What an instruction of a verified function takes is there. -/
theorem instruction_admits (hf : f.Verified p) {i : Instruction} (hi : i ∈ f.instructions) :
    ∀ v ∈ i.operands, (f.scope p).Admits v := by
  obtain ⟨b, hb, hi⟩ := List.mem_flatMap.mp hi
  obtain ⟨t, ht, hleaves⟩ := hf.ends b hb
  rw [Block.instructions, ht] at hi
  rcases List.mem_append.mp hi with hi | hi
  · obtain ⟨op, hop, rfl⟩ := List.mem_map.mp hi
    exact hf.operands b hb op hop
  · obtain rfl := List.mem_singleton.mp hi
    cases t with
    | ret value => exact List.forall_mem_singleton.mpr hleaves
    | br target => exact List.forall_mem_nil _
    | condBr cond thenBlock elseBlock => exact List.forall_mem_singleton.mpr hleaves.1

/-- What a line of the function uses is there. -/
theorem line_admits (hf : f.isDeclaration = false → f.Verified p) {l : PageLine}
    (hl : l ∈ (Printer.of p f).page) : ∀ v ∈ l.operands, (f.scope p).Admits v := by
  cases l with
  | plain text => exact nofun
  | code i =>
    have hi : i ∈ f.instructions :=
      (Printer.of p f).page_instructions ▸ List.mem_filterMap.mpr ⟨_, hl, rfl⟩
    cases hbody : f.isDeclaration with
    | false => exact instruction_admits (hf hbody) hi
    | true =>
      rw [Function.instructions, List.isEmpty_iff.mp hbody] at hi
      cases hi

/-- Where the results can be counted, values are written as their words. -/
theorem values_ok (hcount : f.Countable) {vs : List Value} (h : ∀ v ∈ vs, (f.scope p).Admits v) :
    vs.mapM (Printer.of p f).value = .ok (vs.map (Printer.of p f).word) := by
  rw [mapM_eq_ok, List.map_map]
  refine List.map_congr_left fun v hv => ?_
  obtain ⟨word, hword⟩ := (value_settled (h v hv)).exists_ok hcount
  exact hword.trans (congrArg Except.ok (value_eq_ok hword))

/-- Every line of a text is written. -/
theorem line_of_text {text : String} (h : pr.text = .ok text) {l : PageLine} (hl : l ∈ pr.page) :
    ∃ text, pr.line l = .ok text := by
  obtain ⟨lines, hlines, -⟩ := except_map_eq_ok.mp (pr.text_eq_page.symm.trans h)
  have hmem := mapM_eq_ok.mp hlines ▸ List.mem_map_of_mem (f := pr.line) hl
  obtain ⟨text, -, heq⟩ := List.mem_map.mp hmem
  exact ⟨text, heq.symm⟩

/-- An operation that is written has a result that can be counted. -/
theorem counted_of_op {op : Op} {text : String} (h : pr.op op = .ok text) {id : InstId}
    (hdest : op.dest = some id) : pr.dests.eraseDups.length + id.val < UInt64.size := by
  have hwritten : ∃ start, pr.dest id = .ok start := by
    cases op with
    | store value slot => cases hdest
    | _ =>
      cases hdest
      obtain ⟨start, hstart, -⟩ := except_bind_eq_ok.mp h
      exact ⟨start, hstart⟩
  obtain ⟨start, hstart⟩ := hwritten
  obtain ⟨number, hnumber, -⟩ := except_bind_eq_ok.mp hstart
  exact (result_eq_ok.mp hnumber).1

/-- A function that has a text has results that can be counted. -/
theorem countable_of_text {text : String} (h : (Printer.of p f).text = .ok text) :
    f.Countable := by
  intro id hid
  obtain ⟨i, hi⟩ := List.mem_iff_getElem?.mp hid
  obtain ⟨l, hl, hdest⟩ := (definition_iff (Printer.of p f) i id).mpr hi
  obtain ⟨text, htext⟩ := line_of_text h (mem_page_of_definitions hl).1
  cases l with
  | plain text => cases hdest
  | code instruction =>
    cases instruction with
    | terminator t => cases hdest
    | op op =>
      obtain ⟨text, hop, -⟩ := except_map_eq_ok.mp htext
      exact counted_of_op hop hdest

/-- A function that is verified has a text in which its references resolve, if its results
    can be counted. -/
theorem resolves_of_verified (hf : f.isDeclaration = false → f.Verified p)
    (hcount : f.Countable) : (Printer.of p f).Resolves := by
  obtain ⟨text, htext⟩ := (text_settled hf).exists_ok hcount
  obtain ⟨lines, hlines, hjoin⟩ :=
    except_map_eq_ok.mp ((Printer.of p f).text_eq_page.symm.trans htext)
  have hdistinct := Function.dests_nodup hf
  refine ⟨⟨lines, hlines, htext.trans (congrArg Except.ok hjoin.symm)⟩, page_instructions _,
    ?_, ?_, ?_⟩
  · intro i l hi
    obtain ⟨hl, id, hdest⟩ := mem_page_of_definitions hi
    obtain ⟨text, hline⟩ := line_of_text htext hl
    obtain ⟨rest, rfl⟩ := line_of_dest hline hdest
    have hplace := Function.place_of_getElem? hdistinct
      ((definition_iff (Printer.of p f) i id).mp ⟨l, hi, hdest⟩)
    refine ⟨rest, hline.trans (congrArg Except.ok ?_)⟩
    rw [number, show (Printer.of p f).dests = f.dests from rfl, hplace]
    simp only [← String.append_assoc]
    rfl
  · intro l hl
    obtain ⟨text, hline⟩ := line_of_text htext hl
    exact ⟨text, _, hline, values_ok hcount (line_admits hf hl), spells_line hline⟩
  · intro l hl id ty hid
    have hmem : id ∈ f.dests := line_admits hf hl _ hid
    obtain ⟨i, hi⟩ := List.mem_iff_getElem?.mp hmem
    refine ⟨i, ?_, fun j => ?_⟩
    · rw [← Function.place_of_getElem? hdistinct hi]
      exact result_eq_ok.mpr ⟨hcount id hmem, rfl⟩
    · rw [definition_iff]
      have hlt := (List.getElem?_eq_some_iff.mp hi).1
      constructor
      · exact fun hj => ((List.getElem?_inj hlt hdistinct).mp (hi.trans hj.symm)).symm
      · rintro rfl
        exact hi

end Printer

/-! ## Trees -/

variable {tree : Node} {options : LowerOptions} {p : Program} {f : Function}

/-- No two blocks of a lowered function have one label. -/
theorem lower_distinct_labels (h : lower tree options = .ok p) (hf : f ∈ p.functions) :
    (f.blocks.map Block.label).Nodup := by
  by_cases hbody : f.blocks = []
  · rw [hbody]
    exact .nil
  · cases lower_built h hf hbody with
    | mk hrun hcursor hend hfunction =>
      rw [hfunction]
      exact (Lower.body_labelled hrun hend).distinct

/-- In the text of a lowered function, labels and variables are told apart, results are
    numbered down the lines that define them, and every use of a result shows the number
    of the one line that defines it. Only a function with more results than half of a word
    counts may have no text, as its results cannot be counted. -/
theorem printed_references_resolve (h : lower tree options = .ok p) (hf : f ∈ p.functions) :
    (f.blocks.map Block.label).Nodup ∧ (f.slots.map Slot.name).Nodup ∧
      ((Printer.of p f).Resolves ∨
        (Printer.of p f).text = .error .overflow ∧ UInt64.size < 2 * f.dests.length) := by
  have hverified := Program.verify_eq_ok.mp (lower_verify h) f hf
  refine ⟨lower_distinct_labels h hf, lower_distinctSlots h f hf, ?_⟩
  cases htext : (Printer.of p f).text with
  | ok text => exact .inl (Printer.resolves_of_verified hverified (Printer.countable_of_text htext))
  | error fault =>
    have hsettled := Printer.text_settled hverified
    rw [htext] at hsettled
    cases hsettled with
    | overflow huncounted =>
      exact .inr ⟨rfl, Nat.lt_of_not_le fun hroom => huncounted (lower_countable h hf hroom)⟩

/-- A loop inside of a branch inside of a loop, with a use behind each of them. -/
def nestedTree : Node :=
  .module [.functionDef "f" ["n"] [
    .whileLoop (.name "n") [
      .ifElse (.name "n") [
        .whileLoop (.name "n") [.assign "x" (.neg (.name "n"))]] [],
      .assign "x" (.name "x")],
    .ret (.binop (.name "n") .add (.int 3))]]

/-- The references in its text resolve, though its results were numbered in another
    order when the blocks were built. -/
theorem nestedTree_references_resolve :
    ∃ p, lower nestedTree {} = .ok p ∧
      (p.functions.map fun f => f.dests.map InstId.val) = [[], [], [0, 1, 5, 2, 3, 4]] ∧
      ∀ f ∈ p.functions, (f.blocks.map Block.label).Nodup ∧ (f.slots.map Slot.name).Nodup ∧
        (Printer.of p f).Resolves := by
  have hdests : (lower nestedTree {}).toOption.map
      (fun p => p.functions.map fun f => f.dests.map InstId.val) =
        some [[], [], [0, 1, 5, 2, 3, 4]] := by decide +kernel
  cases h : lower nestedTree {} with
  | error e =>
    rw [h] at hdests
    cases hdests
  | ok p =>
    rw [h] at hdests
    have hdests : (p.functions.map fun f => f.dests.map InstId.val) =
        [[], [], [0, 1, 5, 2, 3, 4]] := Option.some.inj hdests
    refine ⟨p, rfl, hdests, fun f hf => ?_⟩
    obtain ⟨hlabels, hslots, hresolves⟩ := printed_references_resolve h hf
    refine ⟨hlabels, hslots, hresolves.resolve_right fun hmany => ?_⟩
    have hall : ∀ ids ∈ [[], [], [0, 1, 5, 2, 3, 4]], 2 * ids.length < UInt64.size := by decide
    have hmem : f.dests.map InstId.val ∈ p.functions.map fun f => f.dests.map InstId.val :=
      List.mem_map_of_mem hf
    have hfew := hall _ (hdests ▸ hmem)
    rw [List.length_map] at hfew
    exact Nat.lt_asymm hfew hmany.2

end Blockform
