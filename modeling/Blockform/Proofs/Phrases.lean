-- SUMMARY: Expressions that can be read back (`Node.Readable`), and an expression as a phrase: a head, and the calls and attributes behind it (`Node.Clean.exists_phrase`).
import Blockform.Proofs.Legibility
import Blockform.Proofs.PlainTree
import Blockform.Proofs.Pieces
import Blockform.Syntax.Render

/-!
# Phrases

As source text, an expression starts with what stands innermost on its left: a number, a
string, a name or an operation in brackets. Behind it follow the calls and attributes, the
outermost last. A `Phrase` lists an expression in this order. The operations in brackets are
of two shapes, an operand behind an operator, and a chain of operands with an operator
between any two. A binary operation, a boolean one and a comparison are all chains.

A phrase gives back its node and the text of its node, so whoever reads a phrase out of a
text knows the node.
-/

namespace Blockform

variable {n m : Node} {k : Kind} {S : Node → Prop}

/-! ## Texts of lists -/

@[simp] theorem exprTexts_eq_map (ns : List Node) : exprTexts ns = ns.map Node.exprText := by
  induction ns with
  | nil => rfl
  | cons n rest ih => rw [exprTexts, ih, List.map_cons]

/-- The text of an argument that is passed by name. -/
def Keyword.text (w : Keyword) : String :=
  match w.arg with
  | some arg => arg ++ "=" ++ w.value.exprText
  | none => "**" ++ w.value.exprText

@[simp] theorem keywordTexts_eq_map (ws : List Keyword) :
    keywordTexts ws = ws.map Keyword.text := by
  induction ws with
  | nil => rfl
  | cons w rest ih =>
    obtain ⟨_ | arg, value⟩ := w <;> rw [keywordTexts, ih, List.map_cons] <;> rfl

@[simp] theorem plainNodes_eq_map (ns : List Node) : plainNodes ns = ns.map Node.plain := by
  induction ns with
  | nil => rfl
  | cons n rest ih => rw [plainNodes, ih, List.map_cons]

/-- The text of a comparison behind its first operand has a part for each operator with its
    operand. -/
theorem comparisonText_eq_join (ops : List CompareOperator) (ns : List Node) :
    comparisonText ops ns = String.join ((ops.zip ns).map fun (op, n) =>
      " " ++ op.symbol ++ " " ++ n.exprText) := by
  induction ops generalizing ns with
  | nil => simp [comparisonText]
  | cons op ops ih =>
    cases ns with
    | nil => simp [comparisonText]
    | cons n ns => simp [comparisonText, ih, String.append_assoc]

/-- An argument with its value in plain form. -/
def Keyword.plain (w : Keyword) : Keyword := { w with value := w.value.plain }

@[simp] theorem plainKeywords_eq_map (ws : List Keyword) :
    plainKeywords ws = ws.map Keyword.plain := by
  induction ws with
  | nil => rfl
  | cons w rest ih =>
    obtain ⟨arg, value⟩ := w
    rw [plainKeywords, ih, List.map_cons]
    rfl

/-! ## Readable expressions -/

/-- May the character stand in a word? Of those in ASCII, letters, digits and the underscore
    may. -/
def isWordChar (c : Char) : Bool := c.isAlphanum || c = '_' || 0x80 ≤ c.toNat

/-- The text is made of characters of words, and does not start with a digit. Every
    identifier is like this. -/
structure IsWord (s : String) : Prop where
  first : ∃ c cs, s.toList = c :: cs ∧ c.isDigit = false
  chars : ∀ c ∈ s.toList, isWordChar c = true

theorem isWordChar_of_isNameChar {c : Char} (h : isNameChar c = true) : isWordChar c = true := by
  -- The tables of letters and numbers have three ranges in ASCII.
  have hranges : ∀ range ∈ Charset.alphabetic ++ Charset.numeric, range.1 < 0x80 →
      range ∈ [(0x41, 0x5a), (0x61, 0x7a), (0x30, 0x39)] := by decide +kernel
  have hascii : ∀ range ∈ [(0x41, 0x5a), (0x61, 0x7a), (0x30, 0x39)],
      Charset.inRange c.toNat range = true → c.isAlphanum = true := by
    have halphanum : c.isAlphanum = (c.isUpper || c.isLower || c.isDigit) := rfl
    intro range hrange hin
    obtain ⟨hlow, hhigh⟩ : range.1 ≤ c.toNat ∧ c.toNat ≤ range.2 := by
      simpa [Charset.inRange] using hin
    simp only [List.mem_cons, List.not_mem_nil, or_false] at hrange
    rcases hrange with rfl | rfl | rfl
    · have hupper : c.isUpper = true := decide_eq_true ⟨hlow, hhigh⟩
      simp [halphanum, hupper]
    · have hlower : c.isLower = true := Bool.and_eq_true_iff.mpr
        ⟨decide_eq_true hlow, decide_eq_true hhigh⟩
      simp [halphanum, hlower]
    · have hdigit : c.isDigit = true := Bool.and_eq_true_iff.mpr
        ⟨decide_eq_true hlow, decide_eq_true hhigh⟩
      simp [halphanum, hdigit]
  have htable (range : Nat × Nat) (hrange : range ∈ Charset.alphabetic ++ Charset.numeric)
      (hin : Charset.inRange c.toNat range = true) : isWordChar c = true := by
    by_cases hlow : range.1 < 0x80
    · simp [isWordChar, hascii range (hranges range hrange hlow) hin]
    · have hcode : 0x80 ≤ c.toNat := by
        simp only [Charset.inRange, Bool.and_eq_true, decide_eq_true_eq] at hin
        omega
      simp [isWordChar, hcode]
  simp only [isNameChar, isLetter, isNumber, Charset.contains, Bool.or_eq_true, List.any_eq_true,
    decide_eq_true_eq] at h
  rcases h with (⟨range, hrange, hin⟩ | ⟨range, hrange, hin⟩) | rfl
  · exact htable range (List.mem_append_left _ hrange) hin
  · exact htable range (List.mem_append_right _ hrange) hin
  · rfl

theorem IsWord.of_isIdentifier {name : String} (h : isIdentifier name = true) : IsWord name := by
  obtain ⟨c, cs, hname, hdigit, hchars⟩ := isIdentifier_toList h
  exact ⟨⟨c, cs, hname, hdigit⟩, fun d hd => isWordChar_of_isNameChar (hchars d hd)⟩

/-- The kind is that of an expression. Its names are words, and none is `not`. A boolean
    operation has two operands or more, and a comparison has as many operators as
    comparators, and at least one. -/
def Kind.IsReadable : Kind → Prop
  | .name id => IsWord id ∧ id ≠ "not"
  | .attribute _ attr => IsWord attr
  | .call _ _ keywords => ∀ w ∈ keywords, ∀ arg ∈ w.arg, IsWord arg
  | .boolOp _ values => 2 ≤ values.length
  | .compare _ ops comparators => ops ≠ [] ∧ ops.length = comparators.length
  | .constant _ | .str _ | .unaryOp .. | .binOp .. => True
  | _ => False

/-- All nodes of the tree are readable expressions. -/
inductive Node.Readable : Node → Prop where
  | mk {n : Node} (hkind : n.kind.IsReadable) (hparts : ∀ m ∈ n.kind.parts, m.Readable) :
    n.Readable

/-- All nodes of the tree are readable expressions without positions. -/
inductive Node.Clean : Node → Prop where
  | mk {kind : Kind} (hkind : kind.IsReadable) (hparts : ∀ m ∈ kind.parts, m.Clean) :
    Node.Clean ⟨kind, none, none⟩

theorem Kind.IsReadable.isExpression (h : k.IsReadable) : k.isExpression = true := by
  cases k <;> first | rfl | exact h.elim

theorem Node.Readable.render_eq (h : n.Readable) : n.render = n.exprText := by
  obtain ⟨hkind, -⟩ := h
  rw [Node.render, if_pos hkind.isExpression]

/-! ## Plain form -/

theorem comparisonText_plain {ops : List CompareOperator} {ns : List Node}
    (h : ∀ n ∈ ns, n.plain.exprText = n.exprText) :
    comparisonText ops (ns.map Node.plain) = comparisonText ops ns := by
  induction ops generalizing ns with
  | nil => simp [comparisonText]
  | cons op ops ih =>
    cases ns with
    | nil => rfl
    | cons n ns =>
      rw [List.forall_mem_cons] at h
      rw [List.map_cons, comparisonText, comparisonText, h.1, ih h.2]

/-- A node and its plain form have one text in the place of an expression. -/
theorem exprText_plain (n : Node) : n.plain.exprText = n.exprText := by
  induction n using Node.parts_induction with
  | step n ih =>
    obtain ⟨kind, location, span⟩ := n
    have hnodes {ns : List Node} (hns : ∀ n ∈ ns, n ∈ kind.parts) :
        (ns.map Node.plain).map Node.exprText = ns.map Node.exprText := by
      rw [List.map_map]
      exact List.map_congr_left fun n hn => ih n (hns n hn)
    cases kind with
    | unaryOp op operand =>
      simp [Node.plain, Kind.plain, Node.exprText, Kind.exprText, ih operand (by simp [Kind.parts])]
    | binOp left op right =>
      simp [Node.plain, Kind.plain, Node.exprText, Kind.exprText, ih left (by simp [Kind.parts]),
        ih right (by simp [Kind.parts])]
    | boolOp op values =>
      have hvalues : (values.map Node.plain).map Node.exprText = values.map Node.exprText :=
        hnodes fun n hn => hn
      simp only [Node.plain, Kind.plain, Node.exprText, Kind.exprText, exprTexts_eq_map,
        plainNodes_eq_map, hvalues]
    | compare left ops comparators =>
      have hlinks : comparisonText ops (comparators.map Node.plain) =
          comparisonText ops comparators :=
        comparisonText_plain fun n hn => ih n (List.mem_cons_of_mem left hn)
      simp [Node.plain, Kind.plain, Node.exprText, Kind.exprText, hlinks,
        ih left (by simp [Kind.parts])]
    | call func args keywords =>
      have hargs : (args.map Node.plain).map Node.exprText = args.map Node.exprText :=
        hnodes fun n hn => by simp [Kind.parts, hn]
      have hkeywords : (keywords.map Keyword.plain).map Keyword.text =
          keywords.map Keyword.text := by
        rw [List.map_map]
        refine List.map_congr_left fun w hw => ?_
        have hvalue : w.value.plain.exprText = w.value.exprText :=
          ih w.value (by simpa [Kind.parts] using .inr (.inr ⟨w, hw, rfl⟩))
        simp only [Function.comp_apply, Keyword.text, Keyword.plain, hvalue]
      simp only [Node.plain, Kind.plain, Node.exprText, Kind.exprText, exprTexts_eq_map,
        plainNodes_eq_map, keywordTexts_eq_map, plainKeywords_eq_map, hargs, hkeywords,
        ih func (List.mem_cons_self ..)]
    | «attribute» value attr =>
      simp [Node.plain, Kind.plain, Node.exprText, Kind.exprText, ih value (by simp [Kind.parts])]
    | ret value => cases value <;> rfl
    | _ => rfl

theorem Kind.IsReadable.parts_plain (h : k.IsReadable) :
    k.plain.parts = k.parts.map Node.plain := by
  cases k <;> first | exact h.elim | simp [Kind.plain, Kind.parts, Keyword.plain, Function.comp_def]

theorem Kind.IsReadable.plain (h : k.IsReadable) : k.plain.IsReadable := by
  cases k <;>
    first
    | exact h.elim
    | trivial
    | simpa [Kind.plain, Kind.IsReadable, Keyword.plain] using h

/-- The plain form of a readable expression is the expression without positions. -/
theorem Node.Readable.plain_clean (h : n.Readable) : n.plain.Clean := by
  induction h with
  | @mk n hkind _ ih =>
    obtain ⟨kind, location, span⟩ := n
    refine .mk hkind.plain fun m hm => ?_
    rw [hkind.parts_plain] at hm
    obtain ⟨m', hm', rfl⟩ := List.mem_map.mp hm
    exact ih m' hm'

/-! ## Chains -/

/-- What joins two operands. -/
inductive Joint where
  | binary (op : BinaryOperator)
  | bool (op : BoolOperator)
  | compare (op : CompareOperator)
deriving DecidableEq

namespace Joint

/-- The text between the operands, without the blanks around it. -/
def text : Joint → String
  | .binary op => op.symbol
  | .bool op => op.keyword
  | .compare op => op.symbol

/-- The comparison. -/
def comparison? : Joint → Option CompareOperator
  | .compare op => some op
  | _ => none

/-- Everything that joins. -/
def all : List Joint :=
  BinaryOperator.all.map .binary ++ BoolOperator.all.map .bool ++ CompareOperator.all.map .compare

theorem mem_all (j : Joint) : j ∈ all := by
  cases j with
  | binary op => simp [all, op.mem_all]
  | bool op => simp [all, op.mem_all]
  | compare op => simp [all, op.mem_all]

end Joint

/-- An operand with what joins it to the one before. -/
structure Link where
  joint : Joint
  operand : Node

/-- The text of a link, which starts with a blank. -/
def Link.text (l : Link) : String := " " ++ l.joint.text ++ " " ++ l.operand.exprText

/-- The operation that joins operands. What joins the first two tells of which kind it is. -/
def Kind.ofChain (first : Node) (second : Link) (rest : List Link) : Kind :=
  match second.joint with
  | .binary op => .binOp first op second.operand
  | .bool op => .boolOp op (first :: second.operand :: rest.map Link.operand)
  | .compare op =>
    .compare first (op :: rest.filterMap (·.joint.comparison?))
      (second.operand :: rest.map Link.operand)

/-! ## Phrases -/

/-- What a phrase starts with. -/
inductive Head where
  | number (value : Int64)
  | str (value : String)
  | word (id : String)
  | unary (op : UnaryOperator) (operand : Node)
  | chain (first : Node) (second : Link) (rest : List Link)

namespace Head

/-- The kind of the node that is the head. -/
def kind : Head → Kind
  | .number value => .constant value
  | .str value => .str value
  | .word id => .name id
  | .unary op operand => .unaryOp op operand
  | .chain first second rest => .ofChain first second rest

/-- The text of the head. -/
def text : Head → String
  | .number value => toString value
  | .str value => quoted value
  | .word id => id
  | .unary op operand => "(" ++ op.symbol ++ operand.exprText ++ ")"
  | .chain first second rest =>
    "(" ++ first.exprText ++ String.join ((second :: rest).map Link.text) ++ ")"

/-- The head is readable, and its operands are among some nodes. -/
def Over (S : Node → Prop) : Head → Prop
  | .number _ | .str _ => True
  | .word id => IsWord id ∧ id ≠ "not"
  | .unary _ operand => S operand
  | .chain first second rest => S first ∧ ∀ l ∈ second :: rest, S l.operand

end Head

/-- What a phrase is followed by. -/
inductive Trailer where
  | call (args : List Node) (keywords : List Keyword)
  | member (attr : String)

namespace Trailer

/-- The node with the trailer behind it. -/
def on (n : Node) : Trailer → Node
  | .call args keywords => ⟨.call n args keywords, none, none⟩
  | .member attr => ⟨.attribute n attr, none, none⟩

/-- The text of the trailer. -/
def text : Trailer → String
  | .call args keywords =>
    "(" ++ ", ".intercalate (args.map Node.exprText ++ keywords.map Keyword.text) ++ ")"
  | .member attr => "." ++ attr

/-- The trailer is readable, and its arguments are among some nodes. -/
def Over (S : Node → Prop) : Trailer → Prop
  | .call args keywords =>
    (∀ n ∈ args, S n) ∧ ∀ w ∈ keywords, S w.value ∧ ∀ arg ∈ w.arg, IsWord arg
  | .member attr => IsWord attr

theorem on_text (n : Node) (t : Trailer) : (t.on n).exprText = n.exprText ++ t.text := by
  cases t with
  | call args keywords =>
    simp [on, text, Node.exprText, Kind.exprText, String.append_assoc]
  | member attr => simp [on, text, Node.exprText, Kind.exprText, String.append_assoc]

end Trailer

/-- A head with trailers behind it. -/
structure Phrase where
  head : Head
  trailers : List Trailer

namespace Phrase

/-- The node that the phrase describes. -/
def node (p : Phrase) : Node := p.trailers.foldl Trailer.on ⟨p.head.kind, none, none⟩

/-- The text of the phrase. -/
def text (p : Phrase) : String := p.head.text ++ String.join (p.trailers.map Trailer.text)

/-- The phrase is readable, and the nodes that it mentions are among some nodes. -/
structure Over (S : Node → Prop) (p : Phrase) : Prop where
  head : p.head.Over S
  trailers : ∀ t ∈ p.trailers, t.Over S

end Phrase

/-- A node is described by a phrase over some nodes. -/
def Node.PhrasedOver (S : Node → Prop) (n : Node) : Prop :=
  ∃ p : Phrase, p.Over S ∧ p.node = n ∧ p.text = n.exprText

theorem Head.phrased (h : Head) (hkind : h.kind = k) (htext : h.text = k.exprText)
    (hS : h.Over S) : Node.PhrasedOver S ⟨k, none, none⟩ :=
  ⟨⟨h, []⟩, ⟨hS, nofun⟩, by rw [← hkind]; rfl, by simp [Phrase.text, htext, Node.exprText]⟩

theorem Trailer.phrased (t : Trailer) (hS : t.Over S) (hn : n.PhrasedOver S) :
    (t.on n).PhrasedOver S := by
  obtain ⟨⟨head, trailers⟩, ⟨hhead, htrailers⟩, rfl, htext⟩ := hn
  refine ⟨⟨head, trailers ++ [t]⟩, ⟨hhead, ?_⟩, ?_, ?_⟩
  · rw [List.forall_mem_append]
    exact ⟨htrailers, by simpa using hS⟩
  · simp [Phrase.node]
  · rw [on_text, ← htext]
    simp [Phrase.text, String.append_assoc]

theorem binOp_phrased {left right : Node} {op : BinaryOperator} (hleft : S left)
    (hright : S right) : Node.PhrasedOver S ⟨.binOp left op right, none, none⟩ := by
  refine Head.phrased (.chain left ⟨.binary op, right⟩ []) rfl ?_ ⟨hleft, by simpa using hright⟩
  simp [Head.text, Link.text, Joint.text, Kind.exprText, String.append_assoc]

theorem boolOp_phrased {op : BoolOperator} {values : List Node} (h : 2 ≤ values.length)
    (hvalues : ∀ n ∈ values, S n) : Node.PhrasedOver S ⟨.boolOp op values, none, none⟩ := by
  obtain ⟨first, second, rest, rfl⟩ : ∃ first second rest, values = first :: second :: rest := by
    match values, h with
    | first :: second :: rest, _ => exact ⟨first, second, rest, rfl⟩
  let links : List Link := rest.map (⟨.bool op, ·⟩)
  have hoperands : links.map Link.operand = rest := by simp [links, Function.comp_def]
  refine Head.phrased (.chain first ⟨.bool op, second⟩ links) ?_ ?_ ?_
  · rw [Head.kind, Kind.ofChain, hoperands]
  · simp only [Head.text, Kind.exprText, exprTexts_eq_map, Separable.intercalate_cons]
    simp [links, Link.text, Joint.text, Function.comp_def, String.append_assoc]
  · simpa [Head.Over, links] using hvalues

theorem compare_phrased {left : Node} {ops : List CompareOperator} {comparators : List Node}
    (hops : ops ≠ []) (hlength : ops.length = comparators.length) (hleft : S left)
    (hcomparators : ∀ n ∈ comparators, S n) :
    Node.PhrasedOver S ⟨.compare left ops comparators, none, none⟩ := by
  obtain ⟨op, ops, rfl⟩ := List.exists_cons_of_ne_nil hops
  obtain ⟨second, rest, rfl⟩ : ∃ second rest, comparators = second :: rest :=
    List.exists_cons_of_length_eq_add_one hlength.symm
  have hlength : ops.length = rest.length := by simpa using hlength
  let links : List Link := (ops.zip rest).map fun (op, n) => ⟨.compare op, n⟩
  have hoperands : links.map Link.operand = rest := by
    simpa [links, Function.comp_def] using List.map_snd_zip (Nat.le_of_eq hlength.symm)
  have hcomparisons : links.filterMap (·.joint.comparison?) = ops := by
    simpa [links, List.filterMap_map, Function.comp_def, Joint.comparison?] using
      List.map_fst_zip (Nat.le_of_eq hlength)
  refine Head.phrased (.chain left ⟨.compare op, second⟩ links) ?_ ?_ ?_
  · rw [Head.kind, Kind.ofChain, hoperands, hcomparisons]
  · simp only [Head.text, Kind.exprText, comparisonText_eq_join]
    simp [links, Link.text, Joint.text, Function.comp_def, String.append_assoc]
  · rw [← hoperands] at hcomparators
    simpa [Head.Over, hleft] using hcomparators

/-- A readable expression is described by a phrase over its parts and what is below them. -/
theorem Node.Clean.phrased (hS : ∀ n, S n → ∀ m ∈ n.kind.parts, S m) (h : n.Clean)
    (hparts : ∀ m ∈ n.kind.parts, S m) : n.PhrasedOver S := by
  induction h with
  | @mk kind hkind _ ih =>
    cases kind with
    | constant value => exact Head.phrased (.number value) rfl rfl trivial
    | str value => exact Head.phrased (.str value) rfl rfl trivial
    | name id => exact Head.phrased (.word id) rfl rfl hkind
    | unaryOp op operand =>
      exact Head.phrased (.unary op operand) rfl rfl (hparts operand (by simp [Kind.parts]))
    | binOp left op right =>
      exact binOp_phrased (hparts left (by simp [Kind.parts])) (hparts right (by simp [Kind.parts]))
    | boolOp op values => exact boolOp_phrased hkind hparts
    | compare left ops comparators =>
      obtain ⟨hleft, hcomparators⟩ := List.forall_mem_cons.mp hparts
      exact compare_phrased hkind.1 hkind.2 hleft hcomparators
    | call func args keywords =>
      simp only [Kind.parts, List.forall_mem_cons, List.forall_mem_append, List.forall_mem_map]
        at hparts
      obtain ⟨hfunc, hargs, hkeywords⟩ := hparts
      exact Trailer.phrased (.call args keywords) ⟨hargs, fun w hw => ⟨hkeywords w hw, hkind w hw⟩⟩
        (ih func (List.mem_cons_self ..) (hS func hfunc))
    | «attribute» value attr =>
      have hvalue : S value := hparts value (by simp [Kind.parts])
      exact Trailer.phrased (.member attr) hkind (ih value (by simp [Kind.parts]) (hS value hvalue))
    | _ => exact hkind.elim

end Blockform
