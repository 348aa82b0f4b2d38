-- SUMMARY: Texts that can be taken apart in one way only: solid pieces between gaps (`Solid.unique`), lists side by side (`Adjacent.join_unique`) and lists with a separator (`Separable.intercalate_unique`).
import Blockform.Text.Letter
import Std.Data.String.ToInt

/-!
# Taking texts apart

A text that was put together from pieces does not tell the pieces, unless
something tells where each of them ends. Here a piece without a gap ends at the
next gap, and a list ends where neither a separator nor another item follows. All
statements are about a text with something behind it, so that they can be used
one after the other from the left.
-/

namespace Blockform

/-! ## Spans -/

/-- A list is told from what follows it by the first member that does not belong
    to it. -/
theorem span_unique {α : Type} {P : α → Bool} {xs xs' rs rs' : List α}
    (hxs : ∀ a ∈ xs, P a = true) (hxs' : ∀ a ∈ xs', P a = true)
    (hrs : ∀ a ∈ rs.head?, P a = false) (hrs' : ∀ a ∈ rs'.head?, P a = false)
    (h : xs ++ rs = xs' ++ rs') : xs = xs' ∧ rs = rs' := by
  have hstop (rs : List α) (hrs : ∀ a ∈ rs.head?, P a = false) : rs.takeWhile P = [] := by
    cases rs with
    | nil => rfl
    | cons a rest => simp [hrs a (by simp)]
  have hspan := congrArg (List.takeWhile P) h
  rw [List.takeWhile_append_of_pos hxs, List.takeWhile_append_of_pos hxs', hstop rs hrs,
    hstop rs' hrs', List.append_nil, List.append_nil] at hspan
  subst hspan
  exact ⟨rfl, List.append_cancel_left h⟩

/-- A text is told from what follows it by the first character that does not belong to it. -/
theorem span_text_unique {P : Char → Bool} {s s' r r' : String}
    (hs : ∀ c ∈ s.toList, P c = true) (hs' : ∀ c ∈ s'.toList, P c = true)
    (hr : ∀ c ∈ r.toList.head?, P c = false) (hr' : ∀ c ∈ r'.toList.head?, P c = false)
    (h : s ++ r = s' ++ r') : s = s' ∧ r = r' := by
  have hlist := congrArg String.toList h
  rw [String.toList_append, String.toList_append] at hlist
  obtain ⟨htext, hrest⟩ := span_unique hs hs' hr hr' hlist
  exact ⟨String.toList_inj.mp htext, String.toList_inj.mp hrest⟩

/-! ## Solid pieces -/

/-- Does the character stand between pieces? -/
def isGap (c : Char) : Bool :=
  c = ' ' || c = ',' || c = ':' || c = '(' || c = ')' || c = '}' || c = '\n'

/-- A character with a property that no gap has is no gap. -/
theorem isGap_eq_false {P : Char → Bool} {c : Char}
    (hgaps : [' ', ',', ':', '(', ')', '}', '\n'].any P = false) (h : P c = true) :
    isGap c = false := by
  cases hgap : isGap c with
  | false => rfl
  | true =>
    have hmem : c ∈ [' ', ',', ':', '(', ')', '}', '\n'] := by
      simpa [isGap, or_assoc] using hgap
    exact absurd h (List.any_eq_false.mp hgaps c hmem)

/-- A text without a gap. -/
def Solid (s : String) : Prop := ∀ c ∈ s.toList, isGap c = false

/-- A text that starts with a gap, if it is not empty. -/
def Breaks (s : String) : Prop := ∀ c ∈ s.toList.head?, isGap c = true

instance (s : String) : Decidable (Solid s) := List.decidableBAll _ _

instance (s : String) : Decidable (Breaks s) :=
  decidable_of_iff (s.toList.head?.all isGap = true) (by simp [Breaks, Option.all_eq_true])

namespace Solid

variable {x x' r r' : String}

theorem append (hx : Solid x) (hr : Solid r) : Solid (x ++ r) := by
  intro c hc
  rw [String.toList_append, List.mem_append] at hc
  exact hc.elim (hx c) (hr c)

/-- A piece does not start with a gap. -/
theorem head?_append_ne (hx : Solid x) {c : Char} (hc : isGap c = true)
    (hr : r.toList.head? ≠ some c) : (x ++ r).toList.head? ≠ some c := by
  unfold Solid at hx
  rw [String.toList_append]
  cases hchars : x.toList with
  | nil => exact hr
  | cons d ds =>
    rw [hchars, List.forall_mem_cons] at hx
    rintro heq
    cases heq
    exact absurd hx.1 (by simp [hc])

/-- A piece ends where the next gap is. -/
theorem unique (hx : Solid x) (hx' : Solid x') (hr : Breaks r) (hr' : Breaks r')
    (h : x ++ r = x' ++ r') : x = x' ∧ r = r' := by
  have hsolid {x : String} (hx : Solid x) : ∀ c ∈ x.toList, (!isGap c) = true := by
    simpa [Solid] using hx
  have hbreaks {r : String} (hr : Breaks r) : ∀ c ∈ r.toList.head?, (!isGap c) = false := by
    simpa [Breaks] using hr
  exact span_text_unique (hsolid hx) (hsolid hx') (hbreaks hr) (hbreaks hr') h

end Solid

theorem breaks_append {x : String} (hx : x.toList.head?.any isGap = true) (r : String) :
    Breaks (x ++ r) := by
  obtain ⟨c, hc, hgap⟩ := (Option.any_eq_true ..).mp hx
  have hhead : (x ++ r).toList.head? = some c := by simp [List.head?_append, hc]
  rintro d hd
  cases hhead.symm.trans hd
  exact hgap

/-! ## Lines -/

/-- A text within one line. -/
def Unbroken (s : String) : Prop := ∀ c ∈ s.toList, (c != '\n') = true

instance (s : String) : Decidable (Unbroken s) := List.decidableBAll _ _

theorem Solid.unbroken {s : String} (h : Solid s) : Unbroken s := by
  intro c hc
  refine bne_iff_ne.mpr ?_
  rintro rfl
  exact absurd (h _ hc) (by decide)

namespace Unbroken

variable {s s' r r' : String}

theorem append_iff : Unbroken (s ++ s') ↔ Unbroken s ∧ Unbroken s' := by
  simp only [Unbroken, String.toList_append, List.forall_mem_append]

theorem intercalate {sep : String} (hsep : Unbroken sep) {ts : List String}
    (hts : ∀ t ∈ ts, Unbroken t) : Unbroken (sep.intercalate ts) := by
  induction ts with
  | nil => exact nofun
  | cons t ts ih =>
    rw [List.forall_mem_cons] at hts
    cases ts with
    | nil => simpa using hts.1
    | cons t' ts =>
      rw [String.intercalate_cons_cons]
      exact append_iff.mpr ⟨append_iff.mpr ⟨hts.1, hsep⟩, ih hts.2⟩

/-- A line ends where the next one begins. -/
theorem unique (hs : Unbroken s) (hs' : Unbroken s') (h : s ++ ("\n" ++ r) = s' ++ ("\n" ++ r')) :
    s = s' ∧ r = r' := by
  have hnewline (r : String) : ∀ c ∈ ("\n" ++ r).toList.head?, (c != '\n') = false := by simp
  obtain ⟨hline, hrest⟩ := span_text_unique hs hs' (hnewline r) (hnewline r') h
  exact ⟨hline, (String.append_right_inj _).mp hrest⟩

end Unbroken

/-! ## Numbers -/

theorem isGap_of_isDigit {c : Char} (h : c.isDigit = true) : isGap c = false :=
  isGap_eq_false (P := Char.isDigit) (by decide) h

/-- A natural number is written with digits alone. -/
theorem isDigit_of_mem_toString {n : Nat} {c : Char} (h : c ∈ (toString n).toList) :
    c.isDigit = true := by
  rw [Nat.toString_eq_ofList_toDigits, String.toList_ofList] at h
  exact Nat.isDigit_of_mem_toDigits (by decide) (by decide) h

/-- A number starts with a digit. -/
theorem exists_digit (n : Nat) : ∃ c cs, (toString n).toList = c :: cs ∧ c.isDigit = true := by
  have hne : (toString n).toList ≠ [] := by
    rw [Nat.toString_eq_ofList_toDigits, String.toList_ofList]
    exact Nat.toDigits_ne_nil
  obtain ⟨c, cs, hchars⟩ := List.exists_cons_of_ne_nil hne
  exact ⟨c, cs, hchars, isDigit_of_mem_toString (hchars ▸ List.mem_cons_self ..)⟩

theorem solid_toString (n : Nat) : Solid (toString n) := fun _ hc =>
  isGap_of_isDigit (isDigit_of_mem_toString hc)

/-- An integer is written with digits, behind a minus sign if it is negative. -/
theorem minus_or_isDigit_int {n : Int} {c : Char} (h : c ∈ (toString n).toList) :
    c = '-' ∨ c.isDigit = true := by
  cases n with
  | ofNat m => exact .inr (isDigit_of_mem_toString (n := m) h)
  | negSucc m =>
    have hminus : toString (Int.negSucc m) = "-" ++ toString (m + 1) := rfl
    rw [hminus, String.toList_append, List.mem_append] at h
    refine h.imp (fun hc => ?_) isDigit_of_mem_toString
    simpa using hc

/-- A word is written as an integer is. -/
theorem minus_or_isDigit {n : Int32} {c : Char} (h : c ∈ (toString n).toList) :
    c = '-' ∨ c.isDigit = true :=
  minus_or_isDigit_int (n := n.toInt) h

theorem solid_word (n : Int32) : Solid (toString n) := by
  intro c hc
  rcases minus_or_isDigit hc with rfl | hdigit
  · rfl
  · exact isGap_of_isDigit hdigit

theorem toString_word_inj {m n : Int32} (h : toString m = toString n) : m = n :=
  Int32.toInt_inj.mp (Int.repr_injective h)

/-! ## Lists -/

/-- Items that stand side by side, whose text ends where another item or what stands behind
    the last of them follows. -/
structure Adjacent {α : Type} (text : α → String) (Item : α → Prop)
    (Follow Stop : String → Prop) : Prop where
  item : ∀ {a a' : α} {r r' : String}, Item a → Item a' → Follow r → Follow r' →
    text a ++ r = text a' ++ r' → a = a' ∧ r = r'
  next : ∀ {a} r, Item a → Follow (text a ++ r)
  stop : ∀ {r}, Stop r → Follow r
  diff : ∀ {a r} r', Item a → Stop r → r ≠ text a ++ r'

namespace Adjacent

variable {α : Type} {text : α → String} {Item : α → Prop} {Follow Stop : String → Prop}
  {as as' : List α} {r r' : String}

/-- What follows an item of a list. -/
theorem follow (h : Adjacent text Item Follow Stop) (has : ∀ a ∈ as, Item a) (hr : Stop r) :
    Follow (String.join (as.map text) ++ r) := by
  cases as with
  | nil => simpa using h.stop hr
  | cons a as => simpa [String.append_assoc] using h.next _ (List.forall_mem_cons.mp has).1

/-- Items side by side are told by their text. -/
theorem join_unique (h : Adjacent text Item Follow Stop) (has : ∀ a ∈ as, Item a)
    (has' : ∀ a ∈ as', Item a) (hr : Stop r) (hr' : Stop r')
    (heq : String.join (as.map text) ++ r = String.join (as'.map text) ++ r') :
    as = as' ∧ r = r' := by
  induction as generalizing as' with
  | nil =>
    cases as' with
    | nil => exact ⟨rfl, by simpa using heq⟩
    | cons a' as' =>
      refine absurd ?_ (h.diff (String.join (as'.map text) ++ r') (has' a' (by simp)) hr)
      simpa [String.append_assoc] using heq
  | cons a as ih =>
    cases as' with
    | nil =>
      refine absurd ?_ (h.diff (String.join (as.map text) ++ r) (has a (by simp)) hr')
      simpa [String.append_assoc] using heq.symm
    | cons a' as' =>
      rw [List.forall_mem_cons] at has has'
      have htail : text a ++ (String.join (as.map text) ++ r) =
          text a' ++ (String.join (as'.map text) ++ r') := by
        simpa [String.append_assoc] using heq
      obtain ⟨rfl, hrest⟩ :=
        h.item has.1 has'.1 (h.follow has.2 hr) (h.follow has'.2 hr') htail
      obtain ⟨rfl, hend⟩ := ih has.2 has'.2 hrest
      exact ⟨rfl, hend⟩

end Adjacent

/-- Items whose text ends where something may follow: a separator, or what stands
    behind the last of them. -/
structure Separable {α : Type} (sep : String) (text : α → String) (Item : α → Prop)
    (Follow Stop : String → Prop) : Prop where
  item : ∀ {a a' : α} {r r' : String}, Item a → Item a' → Follow r → Follow r' →
    text a ++ r = text a' ++ r' → a = a' ∧ r = r'
  separator : ∀ r, Follow (sep ++ r)
  stop : ∀ {r}, Stop r → Follow r
  diff : ∀ {r} r', Stop r → r ≠ sep ++ r'

namespace Separable

variable {α : Type} {sep : String} {text : α → String} {Item : α → Prop}
  {Follow Stop : String → Prop} {as as' : List α} {r r' : String}

/-- A separator and the item behind it stand beside the next ones. -/
theorem adjacent (h : Separable sep text Item Follow Stop) :
    Adjacent (fun a => sep ++ text a) Item Follow Stop where
  item ha ha' hr hr' heq := by
    rw [String.append_assoc, String.append_assoc, String.append_right_inj] at heq
    exact h.item ha ha' hr hr' heq
  next r _ := by
    rw [String.append_assoc]
    exact h.separator _
  stop := h.stop
  diff r' _ hr := by
    rw [String.append_assoc]
    exact h.diff _ hr

theorem intercalate_cons (sep : String) (text : α → String) (a : α) (as : List α) :
    sep.intercalate ((a :: as).map text) =
      text a ++ String.join (as.map fun a => sep ++ text a) := by
  induction as generalizing a with
  | nil => simp
  | cons a' as ih =>
    rw [List.map_cons, List.map_cons, String.intercalate_cons_cons, ← List.map_cons, ih]
    simp [String.append_assoc]

/-- Items with a separator between them are told by their text, if no item can be
    taken for the end of the list. -/
theorem intercalate_unique (h : Separable sep text Item Follow Stop)
    (hitem : ∀ {a r} r', Item a → Stop r → r ≠ text a ++ r') (has : ∀ a ∈ as, Item a)
    (has' : ∀ a ∈ as', Item a) (hr : Stop r) (hr' : Stop r')
    (heq : sep.intercalate (as.map text) ++ r = sep.intercalate (as'.map text) ++ r') :
    as = as' ∧ r = r' := by
  cases as with
  | nil =>
    cases as' with
    | nil => exact ⟨rfl, by simpa using heq⟩
    | cons a' as' =>
      rw [intercalate_cons, String.append_assoc, List.map_nil, String.intercalate_nil,
        String.empty_append] at heq
      exact absurd heq (hitem _ (has' a' (List.mem_cons_self ..)) hr)
  | cons a as =>
    rw [intercalate_cons, String.append_assoc] at heq
    cases as' with
    | nil =>
      rw [List.map_nil, String.intercalate_nil, String.empty_append] at heq
      exact absurd heq.symm (hitem _ (has a (List.mem_cons_self ..)) hr')
    | cons a' as' =>
      rw [intercalate_cons, String.append_assoc] at heq
      rw [List.forall_mem_cons] at has has'
      obtain ⟨rfl, hrest⟩ := h.item has.1 has'.1 (h.adjacent.follow has.2 hr)
        (h.adjacent.follow has'.2 hr') heq
      obtain ⟨rfl, hend⟩ := h.adjacent.join_unique has.2 has'.2 hr hr' hrest
      exact ⟨rfl, hend⟩

end Separable

end Blockform
