-- SUMMARY: A string is told by its quoted form, whatever follows it (`quoted_unique`).
import Blockform.Proofs.Pieces
import Blockform.Text.Quoted

/-!
# Quoted strings

Between double quotes a character is written in one of three ways: as itself, as a letter
behind a backslash, or by its code in braces. The first character and the one behind a
backslash tell which, and a code ends at its brace. So the quoted form of a string tells the
string, and also where it ends: no character is written with a double quote in front.
-/

namespace Blockform

/-! ## Hexadecimal digits -/

/-- The value of a hexadecimal digit. -/
def digitValue (c : Char) : Nat := ((List.range 16).map Nat.digitChar).idxOf c

theorem digitValue_digitChar {d : Nat} (hd : d < 16) : digitValue (Nat.digitChar d) = d := by
  revert d
  decide

theorem value_toDigits (n : Nat) :
    (Nat.toDigits 16 n).foldl (fun v c => 16 * v + digitValue c) 0 = n := by
  induction n using Nat.strongRecOn with
  | ind n ih =>
    by_cases hn : n < 16
    · simp [Nat.toDigits_of_lt_base hn, digitValue_digitChar hn]
    · have hdigit : digitValue (Nat.digitChar (n % 16)) = n % 16 :=
        digitValue_digitChar (Nat.mod_lt n (by decide))
      rw [Nat.toDigits_of_base_le (by decide) (Nat.le_of_not_lt hn), List.foldl_append,
        ih (n / 16) (by omega)]
      simp only [List.foldl_cons, List.foldl_nil, hdigit]
      omega

theorem toDigits_inj {n n' : Nat} (h : Nat.toDigits 16 n = Nat.toDigits 16 n') : n = n' := by
  rw [← value_toDigits n, h, value_toDigits]

theorem brace_not_mem_toDigits (n : Nat) : '\x7d' ∉ Nat.toDigits 16 n := by
  induction n using Nat.strongRecOn with
  | ind n ih =>
    have hdigit {d : Nat} (hd : d < 16) : '\x7d' ≠ Nat.digitChar d := by
      revert d
      decide
    by_cases hn : n < 16
    · simp [Nat.toDigits_of_lt_base hn, hdigit hn]
    · rw [Nat.toDigits_of_base_le (by decide) (Nat.le_of_not_lt hn), List.mem_append]
      simp [ih (n / 16) (by omega), hdigit (Nat.mod_lt n (by decide : 16 > 0))]

/-! ## Characters -/

/-- The characters that are written as a letter behind a backslash, with that letter. -/
def escapes : List (Char × Char) :=
  [('"', '"'), ('\\', '\\'), ('\n', 'n'), ('\r', 'r'), ('\t', 't'), ('\x00', '0')]

/-- The ways in which a character is written. -/
inductive Quoted (c : Char) : List Char → Prop where
  | letter (e : Char) (h : (c, e) ∈ escapes) : Quoted c ['\\', e]
  | code : Quoted c ('\\' :: 'u' :: '\x7b' :: (Nat.toDigits 16 c.toNat ++ ['\x7d']))
  | itself (hquote : c ≠ '"') (hbackslash : c ≠ '\\') : Quoted c [c]

theorem quotedChar_quoted (c : Char) : Quoted c (quotedChar c).toList := by
  unfold quotedChar
  split
  · exact .letter '"' (by decide)
  · exact .letter '\\' (by decide)
  · exact .letter 'n' (by decide)
  · exact .letter 'r' (by decide)
  · exact .letter 't' (by decide)
  · exact .letter '0' (by decide)
  · rename_i hquote hbackslash _ _ _ _
    split
    · have hcode : ("\\u\x7b" ++ hexDigits c.toNat ++ "\x7d").toList =
          '\\' :: 'u' :: '\x7b' :: (Nat.toDigits 16 c.toNat ++ ['\x7d']) := by simp [hexDigits]
      rw [hcode]
      exact .code
    · rw [show c.toString.toList = [c] by simp [Char.toString]]
      exact .itself hquote hbackslash

/-- No letter behind a backslash is that of a code. -/
theorem escape_ne_code {c e : Char} (h : (c, e) ∈ escapes) : e ≠ 'u' := by
  rintro rfl
  revert h
  simp [escapes]

theorem escape_inj {c c' e : Char} (h : (c, e) ∈ escapes) (h' : (c', e) ∈ escapes) : c = c' := by
  simp only [escapes, List.mem_cons, Prod.mk.injEq, List.not_mem_nil, or_false] at h h'
  grind

/-- A code ends at its brace. -/
theorem code_unique {n n' : Nat} {rs rs' : List Char}
    (h : Nat.toDigits 16 n ++ '\x7d' :: rs = Nat.toDigits 16 n' ++ '\x7d' :: rs') :
    n = n' ∧ rs = rs' := by
  have hdigits (n : Nat) : ∀ c ∈ Nat.toDigits 16 n, (c != '\x7d') = true := fun c hc =>
    bne_iff_ne.mpr fun hbrace => brace_not_mem_toDigits n (hbrace ▸ hc)
  have hbrace (rs : List Char) : ∀ c ∈ ('\x7d' :: rs).head?, (c != '\x7d') = false := by simp
  obtain ⟨hnumber, hrest⟩ := span_unique (hdigits n) (hdigits n') (hbrace rs) (hbrace rs') h
  exact ⟨toDigits_inj hnumber, List.tail_eq_of_cons_eq hrest⟩

/-- A character is told by how it is written. -/
theorem Quoted.unique {c c' : Char} {cs cs' rs rs' : List Char} (h : Quoted c cs)
    (h' : Quoted c' cs') (heq : cs ++ rs = cs' ++ rs') : c = c' ∧ rs = rs' := by
  cases h with
  | letter e he =>
    cases h' with
    | letter e' he' =>
      obtain ⟨rfl, rfl⟩ : e = e' ∧ rs = rs' := by simpa using heq
      exact ⟨escape_inj he he', rfl⟩
    | code => exact absurd (List.cons.inj (List.tail_eq_of_cons_eq heq)).1 (escape_ne_code he)
    | itself _ hbackslash => exact absurd (List.cons.inj heq).1.symm hbackslash
  | code =>
    cases h' with
    | letter e' he' =>
      exact absurd (List.cons.inj (List.tail_eq_of_cons_eq heq)).1.symm (escape_ne_code he')
    | code =>
      obtain ⟨hcode, hrest⟩ := code_unique (by simpa using heq)
      exact ⟨Char.toNat_inj.mp hcode, hrest⟩
    | itself _ hbackslash => exact absurd (List.cons.inj heq).1.symm hbackslash
  | itself _ hbackslash =>
    cases h' with
    | letter e' he' => exact absurd (List.cons.inj heq).1 hbackslash
    | code => exact absurd (List.cons.inj heq).1 hbackslash
    | itself => exact List.cons.inj heq

/-- No character is written with a double quote in front. -/
theorem Quoted.head {c : Char} {cs : List Char} (h : Quoted c cs) :
    ∃ d ds, cs = d :: ds ∧ d ≠ '"' := by
  cases h with
  | letter | code => exact ⟨_, _, rfl, by decide⟩
  | itself hquote => exact ⟨c, [], rfl, hquote⟩

/-! ## Strings -/

theorem adjacent_quotedChars :
    Adjacent quotedChar (fun _ => True) (fun _ => True) (·.toList.head? = some '"') where
  item {c c' r r'} _ _ _ _ heq := by
    have hlist := congrArg String.toList heq
    rw [String.toList_append, String.toList_append] at hlist
    obtain ⟨hchar, hrest⟩ := (quotedChar_quoted c).unique (quotedChar_quoted c') hlist
    exact ⟨hchar, String.toList_inj.mp hrest⟩
  next _ _ := trivial
  stop _ := trivial
  diff {c r} r' _ hr heq := by
    obtain ⟨d, ds, hchars, hd⟩ := (quotedChar_quoted c).head
    rw [heq, String.toList_append, hchars] at hr
    exact hd (Option.some.inj hr)

/-- A string is told by its quoted form, and so is what follows it. -/
theorem quoted_unique {s s' r r' : String} (h : quoted s ++ r = quoted s' ++ r') :
    s = s' ∧ r = r' := by
  have hquote (r : String) : ("\"" ++ r).toList.head? = some '"' := by simp
  simp only [quoted, String.append_assoc, String.append_right_inj] at h
  obtain ⟨hchars, hrest⟩ := adjacent_quotedChars.join_unique (fun _ _ => trivial)
    (fun _ _ => trivial) (hquote r) (hquote r') h
  exact ⟨String.toList_inj.mp hchars, (String.append_right_inj _).mp hrest⟩

end Blockform
