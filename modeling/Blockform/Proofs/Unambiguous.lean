-- SUMMARY: Readable expressions with one text are one expression up to positions (`Node.render_unambiguous`).
import Blockform.Proofs.Phrases
import Blockform.Proofs.Quoting
import Blockform.Proofs.Spelling

/-!
# Unambiguous source text

Expressions are told by their texts. The proof reads two phrases with one text side by side
from the left, and at each place the characters so far leave one way to go on. The first
character of a head tells its form, but for two of them: behind an opening bracket stands an
operator or the first operand of a chain, and a minus may belong to either, as may the word
`not` to a name. A number behind the minus ends in both readings where its digits do, and so
the trailers behind it are the same; but then a bracket closes in the one and a blank follows
in the other. No name is `not`. A joint is told by its text, except that behind `is` the word
`not` could start an operand, which again none does.

Operands and arguments are told by an induction on the size of the expressions: all lemmas
are about a family of expressions that are told by their texts (`Told`), and lead to the
expressions whose parts are in it.
-/

namespace Blockform

variable {n m : Node} {S : Node → Prop} {s s' r r' x x' : String}

/-! ## What follows -/

/-- An expression may be followed by this: nothing, or a blank, a comma or a bracket that
    closes. -/
def AfterExpr (r : String) : Prop := ∀ c ∈ r.toList.head?, c ∈ [' ', ',', ')']

/-- A head or a trailer may be followed by this: the same, or another trailer. -/
def AfterPiece (r : String) : Prop := ∀ c ∈ r.toList.head?, c ∈ [' ', ',', ')', '(', '.']

/-- The last expression of a list is followed by this: a bracket that closes. -/
def AfterLast (r : String) : Prop := r.toList.head? = some ')'

theorem afterLast_bracket (r : String) : AfterLast (")" ++ r) := by simp [AfterLast]

theorem afterExpr_blank (r : String) : AfterExpr (" " ++ r) := by simp [AfterExpr]

theorem AfterLast.expr (h : AfterLast r) : AfterExpr r := by
  unfold AfterLast at h
  simp [AfterExpr, h]

theorem AfterExpr.piece (h : AfterExpr r) : AfterPiece r := fun c hc =>
  List.mem_append_left ['(', '.'] (h c hc)

theorem AfterPiece.stops {P : Char → Bool} (h : AfterPiece r)
    (hP : [' ', ',', ')', '(', '.'].any P = false) : ∀ c ∈ r.toList.head?, P c = false := by
  intro c hc
  have hnone := List.any_eq_false.mp hP c (h c hc)
  simpa using hnone

/-! ## Words -/

/-- A word is told by its characters from what follows it. -/
theorem IsWord.unique (hs : IsWord s) (hs' : IsWord s')
    (hr : ∀ c ∈ r.toList.head?, isWordChar c = false)
    (hr' : ∀ c ∈ r'.toList.head?, isWordChar c = false) (h : s ++ r = s' ++ r') :
    s = s' ∧ r = r' :=
  span_text_unique hs.chars hs'.chars hr hr' h

theorem AfterPiece.no_word (h : AfterPiece r) : ∀ c ∈ r.toList.head?, isWordChar c = false :=
  h.stops (by decide)

/-! ## Numbers -/

/-- May the character stand in a number? -/
def isNumberChar (c : Char) : Bool := c = '-' || c.isDigit

theorem number_chars (v : Int64) : ∀ c ∈ (toString v).toList, isNumberChar c = true := by
  intro c hc
  have hchar : c = '-' ∨ c.isDigit = true := minus_or_isDigit_int (n := v.toInt) hc
  simpa [isNumberChar] using hchar

theorem toString_number_inj {v v' : Int64} (h : toString v = toString v') : v = v' :=
  Int64.toInt_inj.mp (Int.repr_injective h)

/-- A minus alone is no number. -/
theorem toString_ne_minus (v : Int64) : toString v ≠ "-" := by
  intro h
  have hchars : (toString v.toInt).toList = ['-'] := congrArg String.toList h
  cases hv : v.toInt with
  | ofNat m =>
    rw [hv] at hchars
    have hminus : '-' ∈ (toString m).toList := by
      rw [show (toString m).toList = ['-'] from hchars]
      exact List.mem_singleton_self _
    cases isDigit_of_mem_toString hminus
  | negSucc m =>
    rw [hv, Reader.toList_toString_negSucc] at hchars
    exact Nat.toDigits_ne_nil (List.tail_eq_of_cons_eq hchars)

/-! ## First characters -/

/-- What the first character of a text tells about it. -/
inductive Lead where
  | number
  | quote
  | word
  | bracket
  | other
deriving DecidableEq

/-- What a text starts with. -/
def leadOf (c : Char) : Lead :=
  if isNumberChar c then .number
  else if c = '"' then .quote
  else if c = '(' then .bracket
  else if isWordChar c then .word
  else .other

/-- The text starts with a character that tells so. -/
def Leads (s : String) (lead : Lead) : Prop := ∃ c cs, s.toList = c :: cs ∧ leadOf c = lead

theorem Leads.append {lead : Lead} (h : Leads s lead) (r : String) : Leads (s ++ r) lead := by
  obtain ⟨c, cs, hc, hlead⟩ := h
  exact ⟨c, cs ++ r.toList, by rw [String.toList_append, hc, List.cons_append], hlead⟩

theorem Leads.unique {lead lead' : Lead} (h : Leads s lead) (h' : Leads s lead') :
    lead = lead' := by
  obtain ⟨c, cs, hc, rfl⟩ := h
  obtain ⟨c', cs', hc', rfl⟩ := h'
  rw [(List.cons.inj (hc.symm.trans hc')).1]

theorem Leads.not_number {lead : Lead} (h : Leads s lead) (hlead : lead ≠ .number) :
    ∀ c ∈ s.toList.head?, isNumberChar c = false := by
  obtain ⟨c, cs, hc, rfl⟩ := h
  rw [hc]
  intro d hd
  obtain rfl : c = d := Option.some.inj hd
  cases hnumber : isNumberChar c with
  | false => rfl
  | true => exact absurd (if_pos hnumber) hlead

theorem IsWord.leads (h : IsWord s) : Leads s .word := by
  obtain ⟨⟨c, cs, hc, hdigit⟩, hchars⟩ := h
  have hword : isWordChar c = true := hchars c (hc ▸ List.mem_cons_self ..)
  have hne (d : Char) (hd : isWordChar d = false) : c ≠ d := by
    rintro rfl
    simp [hword] at hd
  refine ⟨c, cs, hc, ?_⟩
  simp [leadOf, isNumberChar, hdigit, hword, hne '-' (by decide), hne '"' (by decide),
    hne '(' (by decide)]

/-- What the text of a head starts with. -/
def Head.lead : Head → Lead
  | .number _ => .number
  | .str _ => .quote
  | .word _ => .word
  | .unary .. | .chain .. => .bracket

theorem Head.leads {h : Head} (hS : h.Over S) : Leads h.text h.lead := by
  cases h with
  | number v =>
    obtain ⟨c, cs, hc, hnumber⟩ := Reader.toString_head v.toInt
    exact ⟨c, cs, hc, by rw [leadOf, isNumberChar, if_pos hnumber]; rfl⟩
  | str v => exact ⟨'"', _, by simp [text, quoted]; rfl, rfl⟩
  | word id => exact hS.1.leads
  | unary op operand => exact ⟨'(', _, by simp [text]; rfl, rfl⟩
  | chain first second rest => exact ⟨'(', _, by simp [text]; rfl, rfl⟩

/-! ## Families of expressions -/

/-- Expressions that have their parts among them and are told by their texts. -/
structure Told (S : Node → Prop) : Prop where
  clean : ∀ {n}, S n → n.Clean
  part : ∀ n, S n → ∀ m ∈ n.kind.parts, S m
  unique : ∀ {n m r r'}, S n → S m → AfterExpr r → AfterExpr r' →
    n.exprText ++ r = m.exprText ++ r' → n = m ∧ r = r'

namespace Told

theorem phrased (hS : Told S) (hn : S n) : n.PhrasedOver S :=
  (hS.clean hn).phrased hS.part (hS.part n hn)

/-- The text of an expression has that of a head in front. -/
theorem exists_head (hS : Told S) (hn : S n) (r : String) :
    ∃ (h : Head) (ts : List Trailer), h.Over S ∧ (∀ t ∈ ts, t.Over S) ∧
      n.exprText ++ r = h.text ++ (String.join (ts.map Trailer.text) ++ r) := by
  obtain ⟨⟨h, ts⟩, ⟨hhead, hts⟩, -, htext⟩ := hS.phrased hn
  exact ⟨h, ts, hhead, hts, by rw [← htext, Phrase.text, String.append_assoc]⟩

/-- An expression starts as one of the four forms of heads. -/
theorem leads (hS : Told S) (hn : S n) : ∃ lead, lead ≠ .other ∧ Leads n.exprText lead := by
  obtain ⟨p, ⟨hhead, -⟩, -, htext⟩ := hS.phrased hn
  refine ⟨p.head.lead, ?_, htext ▸ (Head.leads hhead).append _⟩
  cases p.head <;> exact Lead.noConfusion

theorem ne_of_other (hS : Told S) (hn : S n) (h : Leads s .other) : n.exprText ++ r ≠ s ++ r' := by
  obtain ⟨lead, hlead, hleads⟩ := hS.leads hn
  exact fun heq => hlead ((hleads.append r).unique (heq ▸ h.append r'))

end Told

/-! ## Trailers behind a head -/

theorem Trailer.text_follows (t : Trailer) (r : String) : AfterPiece (t.text ++ r) := by
  cases t <;> simp [AfterPiece, text]

theorem trailers_follow (ts : List Trailer) (hr : AfterExpr r) :
    AfterPiece (String.join (ts.map Trailer.text) ++ r) := by
  cases ts with
  | nil => simpa using hr.piece
  | cons t ts => simpa [String.append_assoc] using t.text_follows _

/-- An expression that starts with a word has that word as its head. -/
theorem Told.word_eq (hS : Told S) (hn : S n) (hr : AfterExpr r) (hs : IsWord s)
    (hr' : ∀ c ∈ r'.toList.head?, isWordChar c = false) (h : n.exprText ++ r = s ++ r') :
    s ≠ "not" ∧ AfterPiece r' := by
  obtain ⟨head, ts, hhead, -, htext⟩ := hS.exists_head hn r
  rw [htext] at h
  have hlead : head.lead = .word :=
    ((Head.leads hhead).append _).unique (h ▸ hs.leads.append _)
  cases head with
  | word id =>
    have hfollows := trailers_follow ts hr
    obtain ⟨rfl, rfl⟩ := hhead.1.unique hs hfollows.no_word hr' h
    exact ⟨hhead.2, hfollows⟩
  | _ => cases hlead

/-! ## Arguments -/

/-- The text of an argument, by its place or by its name. -/
def argumentText : Node ⊕ Keyword → String := Sum.elim Node.exprText Keyword.text

/-- The argument is readable and its value is among some nodes. -/
def ArgumentOver (S : Node → Prop) : Node ⊕ Keyword → Prop :=
  Sum.elim S fun w => S w.value ∧ ∀ arg ∈ w.arg, IsWord arg

theorem leads_stars : Leads "**" .other := ⟨'*', ['*'], by decide, by decide⟩

theorem equals_no_word (x : String) : ∀ c ∈ ("=" ++ x).toList.head?, isWordChar c = false := by
  simp [isWordChar]

namespace Told

theorem keyword_unique (hS : Told S) {w w' : Keyword} (hw : ArgumentOver S (.inr w))
    (hw' : ArgumentOver S (.inr w')) (hr : AfterExpr r) (hr' : AfterExpr r')
    (h : w.text ++ r = w'.text ++ r') : w = w' ∧ r = r' := by
  obtain ⟨arg, value⟩ := w
  obtain ⟨arg', value'⟩ := w'
  obtain ⟨hvalue, harg⟩ := hw
  obtain ⟨hvalue', harg'⟩ := hw'
  cases arg with
  | some a =>
    cases arg' with
    | some a' =>
      simp only [Keyword.text, String.append_assoc] at h
      obtain ⟨rfl, hvalues⟩ :=
        (harg a rfl).unique (harg' a' rfl) (equals_no_word _) (equals_no_word _) h
      obtain ⟨rfl, hrest⟩ :=
        hS.unique hvalue hvalue' hr hr' ((String.append_right_inj _).mp hvalues)
      exact ⟨rfl, hrest⟩
    | none =>
      simp only [Keyword.text, String.append_assoc] at h
      cases ((harg a rfl).leads.append _).unique (h ▸ leads_stars.append _)
  | none =>
    cases arg' with
    | some a' =>
      simp only [Keyword.text, String.append_assoc] at h
      cases (leads_stars.append _).unique (h ▸ (harg' a' rfl).leads.append _)
    | none =>
      simp only [Keyword.text, String.append_assoc, String.append_right_inj] at h
      obtain ⟨rfl, hrest⟩ := hS.unique hvalue hvalue' hr hr' h
      exact ⟨rfl, hrest⟩

/-- No expression is an argument that is passed by name. -/
theorem ne_keyword (hS : Told S) (hn : S n) {w : Keyword} (hw : ArgumentOver S (.inr w))
    (hr : AfterExpr r) : n.exprText ++ r ≠ w.text ++ r' := by
  obtain ⟨arg, value⟩ := w
  obtain ⟨-, harg⟩ := hw
  intro h
  cases arg with
  | some a =>
    simp only [Keyword.text, String.append_assoc] at h
    obtain ⟨-, hfollows⟩ := hS.word_eq hn hr (harg a rfl) (equals_no_word _) h
    simp [AfterPiece] at hfollows
  | none =>
    simp only [Keyword.text, String.append_assoc] at h
    exact hS.ne_of_other hn leads_stars h

theorem separable_arguments (hS : Told S) :
    Separable ", " argumentText (ArgumentOver S) AfterExpr AfterLast where
  item {a a' r r'} ha ha' hr hr' h := by
    cases a with
    | inl n =>
      cases a' with
      | inl m =>
        obtain ⟨rfl, hrest⟩ := hS.unique ha ha' hr hr' h
        exact ⟨rfl, hrest⟩
      | inr w => exact absurd h (hS.ne_keyword ha ha' hr)
    | inr w =>
      cases a' with
      | inl m => exact absurd h.symm (hS.ne_keyword ha' ha hr')
      | inr w' =>
        obtain ⟨rfl, hrest⟩ := hS.keyword_unique ha ha' hr hr' h
        exact ⟨rfl, hrest⟩
  separator r := by simp [AfterExpr]
  stop hr := hr.expr
  diff r' hr := by
    rintro rfl
    simp [AfterLast] at hr

/-- No argument can be taken for the end of the list. -/
theorem argument_ne_stop (hS : Told S) {a : Node ⊕ Keyword} (ha : ArgumentOver S a)
    (hr : AfterLast r) : r ≠ argumentText a ++ r' := by
  have hbracket : Leads r .other := by
    obtain ⟨cs, hcs⟩ := List.head?_eq_some_iff.mp hr
    exact ⟨')', cs, hcs, by decide⟩
  rintro rfl
  match a with
  | .inl n =>
    obtain ⟨lead, hlead, hleads⟩ := hS.leads ha
    exact hlead ((hleads.append r').unique hbracket)
  | .inr ⟨some arg, value⟩ =>
    have hword : Leads (arg ++ ("=" ++ value.exprText ++ r')) .word := (ha.2 arg rfl).leads.append _
    simp only [argumentText, Sum.elim_inr, Keyword.text, String.append_assoc] at hbracket hword
    cases hword.unique hbracket
  | .inr ⟨none, value⟩ => simp [AfterLast, argumentText, Keyword.text] at hr

/-! ## Trailers -/

/-- The arguments of a call in the order of its text. -/
def arguments (args : List Node) (keywords : List Keyword) : List (Node ⊕ Keyword) :=
  args.map .inl ++ keywords.map .inr

theorem arguments_inj {args args' : List Node} {keywords keywords' : List Keyword}
    (h : arguments args keywords = arguments args' keywords') :
    args = args' ∧ keywords = keywords' := by
  have hargs := congrArg (List.filterMap Sum.getLeft?) h
  have hkeywords := congrArg (List.filterMap Sum.getRight?) h
  simp only [arguments, List.filterMap_append, List.filterMap_map] at hargs hkeywords
  simpa [Function.comp_def] using And.intro hargs hkeywords

theorem trailer_unique (hS : Told S) {t t' : Trailer} (ht : t.Over S) (ht' : t'.Over S)
    (hr : AfterPiece r) (hr' : AfterPiece r') (h : t.text ++ r = t'.text ++ r') :
    t = t' ∧ r = r' := by
  have htext (args : List Node) (keywords : List Keyword) (r : String) :
      (Trailer.call args keywords).text ++ r =
        "(" ++ (", ".intercalate ((arguments args keywords).map argumentText) ++ (")" ++ r)) := by
    simp [Trailer.text, arguments, argumentText, Function.comp_def, String.append_assoc]
  have hover {args : List Node} {keywords : List Keyword}
      (h : (Trailer.call args keywords).Over S) :
      ∀ a ∈ arguments args keywords, ArgumentOver S a := by
    rw [arguments, List.forall_mem_append, List.forall_mem_map, List.forall_mem_map]
    exact h
  have hdot (x x' : String) : "(" ++ x ≠ "." ++ x' := fun h => by
    simpa using congrArg (·.toList.head?) h
  cases t with
  | call args keywords =>
    cases t' with
    | call args' keywords' =>
      rw [htext, htext, String.append_right_inj] at h
      obtain ⟨hlist, hrest⟩ := hS.separable_arguments.intercalate_unique
        (fun _ => hS.argument_ne_stop) (hover ht) (hover ht') (afterLast_bracket r)
        (afterLast_bracket r') h
      obtain ⟨rfl, rfl⟩ := arguments_inj hlist
      exact ⟨rfl, (String.append_right_inj _).mp hrest⟩
    | member attr =>
      rw [htext, Trailer.text, String.append_assoc] at h
      exact absurd h (hdot _ _)
  | member attr =>
    cases t' with
    | call args' keywords' =>
      rw [htext, Trailer.text, String.append_assoc] at h
      exact absurd h.symm (hdot _ _)
    | member attr' =>
      simp only [Trailer.text, String.append_assoc, String.append_right_inj] at h
      obtain ⟨rfl, hrest⟩ := IsWord.unique ht ht' hr.no_word hr'.no_word h
      exact ⟨rfl, hrest⟩

theorem adjacent_trailers (hS : Told S) :
    Adjacent Trailer.text (Trailer.Over S) AfterPiece AfterExpr where
  item ht ht' hr hr' h := hS.trailer_unique ht ht' hr hr' h
  next r _ := Trailer.text_follows _ r
  stop hr := hr.piece
  diff {t r} r' _ hr h := by
    subst h
    cases t <;> simp [AfterExpr, Trailer.text] at hr

/-! ## Behind an opening bracket -/

/-- A negative number behind a minus ends where the number behind the minus does. -/
theorem minus_unique (hS : Told S) (hn : S n) (hm : S m) (hr : AfterExpr r) (hr' : AfterExpr r')
    (h : n.exprText ++ r = "-" ++ (m.exprText ++ r')) : r = r' := by
  obtain ⟨head, ts, hhead, hts, htext⟩ := hS.exists_head hn r
  obtain ⟨head', ts', hhead', hts', htext'⟩ := hS.exists_head hm r'
  rw [htext, htext'] at h
  have hminus : Leads "-" .number := ⟨'-', [], rfl, rfl⟩
  have hlead : head.lead = .number := ((Head.leads hhead).append _).unique (h ▸ hminus.append _)
  have hfollows := (trailers_follow ts hr).stops (P := isNumberChar) (by decide)
  have hfollows' := (trailers_follow ts' hr').stops (P := isNumberChar) (by decide)
  cases head with
  | number v =>
    cases hlead' : head'.lead with
    | number =>
      obtain ⟨v', rfl⟩ : ∃ v', head' = .number v' := by
        cases head' <;> first | exact ⟨_, rfl⟩ | cases hlead'
      have hchars : ∀ c ∈ ("-" ++ toString v').toList, isNumberChar c = true := by
        rw [String.toList_append, List.forall_mem_append]
        exact ⟨List.all_eq_true.mp (by decide), number_chars v'⟩
      obtain ⟨-, hrest⟩ := span_text_unique (number_chars v) hchars hfollows hfollows'
        (h.trans (String.append_assoc ..).symm)
      exact (hS.adjacent_trailers.join_unique hts hts' hr hr' hrest).2
    | quote | word | bracket | other =>
      have hleads := (Head.leads hhead').append (String.join (ts'.map Trailer.text) ++ r')
      have hchars : ∀ c ∈ "-".toList, isNumberChar c = true :=
        List.all_eq_true.mp (by decide)
      obtain ⟨hminus, -⟩ := span_text_unique (number_chars v) hchars hfollows
        (hleads.not_number (by rw [hlead']; decide)) h
      exact absurd hminus (toString_ne_minus v)
  | _ => cases hlead

/-- No expression starts with the operator `not`. -/
theorem ne_not (hS : Told S) (hn : S n) (hr : AfterExpr r) : n.exprText ++ r ≠ "not " ++ x := by
  intro h
  have hword : IsWord "not" := ⟨⟨'n', _, rfl, by decide⟩, List.all_eq_true.mp (by decide)⟩
  have hblank : ∀ c ∈ (" " ++ x).toList.head?, isWordChar c = false := by simp [isWordChar]
  have hsplit : "not " ++ x = "not" ++ (" " ++ x) := by
    rw [← String.append_assoc]
    rfl
  exact (hS.word_eq hn hr hword hblank (h.trans hsplit)).1 rfl

/-- What stands behind an opening bracket tells an operand behind an operator from a chain. -/
theorem unary_ne_chain (hS : Told S) {op : UnaryOperator} (hn : S n) (hm : S m) :
    op.symbol ++ (n.exprText ++ (")" ++ r)) ≠ m.exprText ++ (" " ++ r') := by
  intro h
  cases op with
  | uSub =>
    have hrest :=
      hS.minus_unique hm hn (afterExpr_blank r') (afterLast_bracket r).expr h.symm
    simpa using congrArg (·.toList.head?) hrest
  | uAdd => exact hS.ne_of_other hm ⟨'+', [], rfl, by decide⟩ h.symm
  | not => exact hS.ne_not hm (afterExpr_blank r') h.symm
  | invert => exact hS.ne_of_other hm ⟨'~', [], rfl, by decide⟩ h.symm

end Told

theorem UnaryOperator.symbol_unique {op op' : UnaryOperator}
    (h : op.symbol ++ x = op'.symbol ++ x') : op = op' := by
  have hfirst := congrArg (·.toList.head?) h
  cases op <;> cases op' <;> first | rfl | simp [symbol] at hfirst

/-! ## Chains -/

/-- Of two joints, the text of one starts with that of the other only if one of them is `is`
    and the other `is not`. -/
theorem Joint.text_start : ∀ j ∈ all, ∀ j' ∈ all,
    (j.text ++ " ").toList <+: (j'.text ++ " ").toList →
      j = j' ∨ j'.text ++ " " = j.text ++ " " ++ "not " := by
  decide +kernel

/-- A joint is told by its text, if no operand starts with `not`. -/
theorem Joint.unique {j j' : Joint} (hx : ∀ y, x ≠ "not " ++ y) (hx' : ∀ y, x' ≠ "not " ++ y)
    (h : j.text ++ " " ++ x = j'.text ++ " " ++ x') : j = j' ∧ x = x' := by
  have hstart {j j' : Joint} {x x' : String} (hx : ∀ y, x ≠ "not " ++ y)
      (h : j.text ++ " " ++ x = j'.text ++ " " ++ x')
      (hpre : (j.text ++ " ").toList <+: (j'.text ++ " ").toList) : j = j' := by
    rcases text_start j j.mem_all j' j'.mem_all hpre with heq | hnot
    · exact heq
    · rw [hnot] at h
      exact absurd ((String.append_right_inj _).mp (h.trans String.append_assoc)) (hx x')
  have htext : (j.text ++ " ").toList <+: (j.text ++ " " ++ x).toList :=
    ⟨x.toList, String.toList_append.symm⟩
  have htext' : (j'.text ++ " ").toList <+: (j.text ++ " " ++ x).toList :=
    h ▸ ⟨x'.toList, String.toList_append.symm⟩
  obtain rfl : j = j' := by
    rcases List.prefix_or_prefix_of_prefix htext htext' with hpre | hpre
    · exact hstart hx h hpre
    · exact (hstart hx' h.symm hpre).symm
  exact ⟨rfl, (String.append_right_inj _).mp h⟩

namespace Told

theorem adjacent_links (hS : Told S) :
    Adjacent Link.text (fun l => S l.operand) AfterExpr AfterLast where
  item {l l' r r'} hl hl' hr hr' h := by
    obtain ⟨joint, operand⟩ := l
    obtain ⟨joint', operand'⟩ := l'
    have hjoint : joint.text ++ " " ++ (operand.exprText ++ r) =
        joint'.text ++ " " ++ (operand'.exprText ++ r') := by
      simpa [Link.text, String.append_assoc] using h
    obtain ⟨rfl, hoperand⟩ :=
      Joint.unique (fun _ => hS.ne_not hl hr) (fun _ => hS.ne_not hl' hr') hjoint
    obtain ⟨rfl, hrest⟩ := hS.unique hl hl' hr hr' hoperand
    exact ⟨rfl, hrest⟩
  next r _ := by simp [AfterExpr, Link.text]
  stop hr := hr.expr
  diff {l r} r' _ hr h := by
    subst h
    simp [AfterLast, Link.text] at hr

/-! ## Heads -/

theorem head_unique (hS : Told S) {h h' : Head} (hh : h.Over S) (hh' : h'.Over S)
    (hr : AfterPiece r) (hr' : AfterPiece r') (heq : h.text ++ r = h'.text ++ r') :
    h = h' ∧ r = r' := by
  have hlead : h.lead = h'.lead :=
    ((Head.leads hh).append r).unique (heq ▸ (Head.leads hh').append r')
  cases h with
  | number v =>
    cases h' with
    | number v' =>
      obtain ⟨hnumber, hrest⟩ := span_text_unique (number_chars v) (number_chars v')
        (hr.stops (by decide)) (hr'.stops (by decide)) heq
      exact ⟨congrArg Head.number (toString_number_inj hnumber), hrest⟩
    | _ => cases hlead
  | str v =>
    cases h' with
    | str v' =>
      obtain ⟨rfl, hrest⟩ := quoted_unique heq
      exact ⟨rfl, hrest⟩
    | _ => cases hlead
  | word id =>
    cases h' with
    | word id' =>
      obtain ⟨rfl, hrest⟩ := hh.1.unique hh'.1 hr.no_word hr'.no_word heq
      exact ⟨rfl, hrest⟩
    | _ => cases hlead
  | unary op operand =>
    cases h' with
    | unary op' operand' =>
      simp only [Head.text, String.append_assoc, String.append_right_inj] at heq
      obtain rfl := UnaryOperator.symbol_unique heq
      obtain ⟨rfl, hrest⟩ :=
        hS.unique hh hh' (afterLast_bracket r).expr (afterLast_bracket r').expr
          ((String.append_right_inj _).mp heq)
      exact ⟨rfl, (String.append_right_inj _).mp hrest⟩
    | chain first second rest =>
      simp only [Head.text, List.map_cons, String.join_cons, Link.text, String.append_assoc,
        String.append_right_inj] at heq
      exact absurd heq (hS.unary_ne_chain hh hh'.1)
    | _ => cases hlead
  | chain first second rest =>
    cases h' with
    | unary op' operand' =>
      simp only [Head.text, List.map_cons, String.join_cons, Link.text, String.append_assoc,
        String.append_right_inj] at heq
      exact absurd heq.symm (hS.unary_ne_chain hh' hh.1)
    | chain first' second' rest' =>
      simp only [Head.text, String.append_assoc, String.append_right_inj] at heq
      have hend := afterLast_bracket r
      have hend' := afterLast_bracket r'
      obtain ⟨rfl, hlinks⟩ := hS.unique hh.1 hh'.1 (hS.adjacent_links.follow hh.2 hend)
        (hS.adjacent_links.follow hh'.2 hend') heq
      obtain ⟨hlinks, hrest⟩ := hS.adjacent_links.join_unique hh.2 hh'.2 hend hend' hlinks
      obtain ⟨rfl, rfl⟩ := List.cons.inj hlinks
      exact ⟨rfl, (String.append_right_inj _).mp hrest⟩
    | _ => cases hlead

/-! ## Expressions -/

/-- A phrase is told by its text. -/
theorem phrase_unique (hS : Told S) {p p' : Phrase} (hp : p.Over S) (hp' : p'.Over S)
    (hr : AfterExpr r) (hr' : AfterExpr r') (h : p.text ++ r = p'.text ++ r') :
    p = p' ∧ r = r' := by
  obtain ⟨head, ts⟩ := p
  obtain ⟨head', ts'⟩ := p'
  simp only [Phrase.text, String.append_assoc] at h
  obtain ⟨rfl, htrailers⟩ := hS.head_unique hp.head hp'.head (trailers_follow ts hr)
    (trailers_follow ts' hr') h
  obtain ⟨rfl, hrest⟩ :=
    hS.adjacent_trailers.join_unique hp.trailers hp'.trailers hr hr' htrailers
  exact ⟨rfl, hrest⟩

/-- From a family to the expressions whose parts are in it. -/
theorem unique_of_parts (hS : Told S) (hn : n.Clean) (hm : m.Clean)
    (hnparts : ∀ p ∈ n.kind.parts, S p) (hmparts : ∀ p ∈ m.kind.parts, S p)
    (hr : AfterExpr r) (hr' : AfterExpr r') (h : n.exprText ++ r = m.exprText ++ r') :
    n = m ∧ r = r' := by
  obtain ⟨p, hp, rfl, hptext⟩ := hn.phrased hS.part hnparts
  obtain ⟨p', hp', rfl, hptext'⟩ := hm.phrased hS.part hmparts
  rw [← hptext, ← hptext'] at h
  obtain ⟨rfl, hrest⟩ := hS.phrase_unique hp hp' hr hr' h
  exact ⟨rfl, hrest⟩

/-- The expressions below a size are told by their texts. -/
theorem below (size : Nat) : Told fun n => n.Clean ∧ sizeOf n < size := by
  have hpart {n m : Node} (hn : n.Clean) (hm : m ∈ n.kind.parts) :
      m.Clean ∧ sizeOf m < sizeOf n := by
    obtain ⟨-, hparts⟩ := hn
    have hsize := Kind.sizeOf_parts hm
    exact ⟨hparts m hm, by simp at hsize ⊢; omega⟩
  induction size with
  | zero => exact ⟨And.left, fun _ hn => absurd hn.2 (Nat.not_lt_zero _),
      fun hn => absurd hn.2 (Nat.not_lt_zero _)⟩
  | succ size ih =>
    have hbelow {n : Node} (hn : n.Clean ∧ sizeOf n < size + 1) :
        ∀ m ∈ n.kind.parts, m.Clean ∧ sizeOf m < size := fun m hm =>
      have ⟨hclean, hsize⟩ := hpart hn.1 hm
      ⟨hclean, by omega⟩
    refine ⟨And.left, fun n hn m hm => ?_, fun hn hm hr hr' h => ?_⟩
    · obtain ⟨hclean, hsize⟩ := hbelow hn m hm
      exact ⟨hclean, Nat.lt_succ_of_lt hsize⟩
    · exact ih.unique_of_parts hn.1 hm.1 (hbelow hn) (hbelow hm) hr hr' h

end Told

/-- Two readable expressions have one text exactly if they are equal up to the positions of
    their nodes: the plain form of an expression leaves out nothing else. -/
theorem Node.render_unambiguous (hn : n.Readable) (hm : m.Readable) :
    n.render = m.render ↔ n.plain = m.plain := by
  rw [hn.render_eq, hm.render_eq, ← exprText_plain n, ← exprText_plain m]
  refine ⟨fun h => ?_, fun h => by rw [h]⟩
  have htold := Told.below (max (sizeOf n.plain) (sizeOf m.plain) + 1)
  have hend : AfterExpr "" := by simp [AfterExpr]
  have hsizes : sizeOf n.plain < max (sizeOf n.plain) (sizeOf m.plain) + 1 ∧
      sizeOf m.plain < max (sizeOf n.plain) (sizeOf m.plain) + 1 := by omega
  exact (htold.unique ⟨hn.plain_clean, hsizes.1⟩ ⟨hm.plain_clean, hsizes.2⟩ hend hend
    (congrArg (· ++ "") h)).1

/-- A comparison whose second operand is a negation, written `(x is (not -5))`. -/
def negatedTree : Node := .compare (.name "x") .is (.unary .not (.int (-5)))

/-- The comparison is readable, and so it is with positions, which its text does not show. -/
theorem located_negation_unambiguous :
    let located : Node := negatedTree.withLocation ⟨"a.py", 3, 0⟩
    negatedTree.Readable ∧ located.Readable ∧ negatedTree.render = located.render ∧
      negatedTree.plain = located.plain := by
  intro located
  have hword : IsWord "x" := .of_isIdentifier (by decide +kernel)
  have hx : (Node.name "x").Readable := .mk ⟨hword, by decide⟩ nofun
  have hnumber : (Node.int (-5)).Readable := .mk trivial nofun
  have hnot : (Node.unary .not (.int (-5))).Readable :=
    .mk trivial (List.forall_mem_singleton.mpr hnumber)
  have hparts : ∀ m ∈ negatedTree.kind.parts, m.Readable :=
    List.forall_mem_cons.mpr ⟨hx, List.forall_mem_singleton.mpr hnot⟩
  have hkind : negatedTree.kind.IsReadable := by
    simp [negatedTree, Node.compare, Node.compareChain, Node.ofKind, Kind.IsReadable]
  have hn : negatedTree.Readable := .mk hkind hparts
  have hm : located.Readable := .mk hkind hparts
  exact ⟨hn, hm, rfl, (Node.render_unambiguous hn hm).mp rfl⟩

end Blockform
