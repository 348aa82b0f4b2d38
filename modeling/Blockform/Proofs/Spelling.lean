-- SUMMARY: Strings, numbers and names of operators are read back from their JSON text (`Reader.Reads`).
import Blockform.Proofs.Pieces
import Blockform.Reader.Record
import Blockform.Syntax.Json
import Mathlib.Data.List.Nodup

/-!
# Reading scalars back

A reader reads a value from a text if it takes all of the text and stops behind
it, whatever follows there (`Reader.Reads`). What may follow a value is the end,
a comma or a closing bracket; a number needs that, as its last digit is told by
what comes next. Places are of no concern here: they matter to failures alone.
-/

namespace Blockform

namespace Reader

variable {α : Type} {read : List Char} {cs rest : List Char} {c : Char} {p : Place}

/-! ## Readers and texts -/

/-- What may stand behind a value: nothing, or what goes on with the list or
    object around it. -/
def Closes (rest : List Char) : Prop := ∀ c ∈ rest.head?, c = ',' ∨ c = ']' ∨ c = '\x7d'

/-- The reader takes the text for the value, and stops behind it. -/
def Reads (read : Read α) (text : List Char) (v : α) : Prop :=
  ∀ rest p, Closes rest → ∃ p', read ⟨text ++ rest, p⟩ = .ok (v, ⟨rest, p'⟩)

/-- What is read next goes on from what has been read. -/
theorem ok_bind {ε α β : Type} (a : α) (f : α → Except ε β) : (Except.ok a >>= f) = f a := rfl

theorem Closes.cases (h : Closes rest) :
    rest = [] ∨ (∃ cs, rest = ',' :: cs) ∨ (∃ cs, rest = ']' :: cs) ∨
      ∃ cs, rest = '\x7d' :: cs := by
  cases rest with
  | nil => exact .inl rfl
  | cons c cs => rcases h c rfl with rfl | rfl | rfl <;> simp

theorem skipBlanks_of_not_blank (h : Cursor.isBlank c = false) :
    (⟨c :: cs, p⟩ : Cursor).skipBlanks = ⟨c :: cs, p⟩ := by
  unfold Cursor.skipBlanks Cursor.skipBlanks.go
  simp [h]

/-! ## Strings -/

theorem stringRest_plain (hquote : c ≠ '"') (hbackslash : c ≠ '\\') (hprints : ¬ c.toNat < 0x20) :
    stringRest read (c :: cs) p = stringRest (c :: read) cs (p.after c) := by
  rw [stringRest]
  · exact if_neg hprints
  all_goals simp_all

/-- Control characters are written by their number. -/
theorem stringRest_control (n : Fin 0x20) (read cs : List Char) (p : Place) : ∃ p',
    stringRest read
      ('\\' :: 'u' :: '0' :: '0' :: Json.hexDigit (n / 16) :: Json.hexDigit n :: cs) p =
      stringRest (Char.ofNat n :: read) cs p' := by
  have hdigits : ∀ n : Fin 0x20,
      hexUnit? '0' '0' (Json.hexDigit (n / 16)) (Json.hexDigit n) = some n.val := by decide
  have hunit : ∀ n : Fin 0x20, isLowUnit n = false ∧ isHighUnit n = false := by decide
  refine ⟨{ p.nextByte.nextByte with column := p.nextByte.nextByte.column + 4 }, ?_⟩
  rw [stringRest, hdigits]
  simp [hunit]

theorem stringRest_escapeChar (c : Char) (read cs : List Char) (p : Place) :
    ∃ p', stringRest read (Json.escapeChar c ++ cs) p = stringRest (c :: read) cs p' := by
  unfold Json.escapeChar
  split
  · exact ⟨_, rfl⟩
  · exact ⟨_, rfl⟩
  · exact ⟨_, rfl⟩
  · exact ⟨_, rfl⟩
  · exact ⟨_, rfl⟩
  · exact ⟨_, rfl⟩
  · exact ⟨_, rfl⟩
  · rename_i hquote hbackslash _ _ _ _ _
    split
    · rename_i hcontrol
      obtain ⟨p', h⟩ := stringRest_control ⟨c.toNat, hcontrol⟩ read cs p
      rw [Char.ofNat_toNat] at h
      exact ⟨p', h⟩
    · rename_i hprints
      exact ⟨_, stringRest_plain (by simpa using hquote) (by simpa using hbackslash) hprints⟩

theorem stringRest_escaped (text read rest : List Char) (p : Place) : ∃ p',
    stringRest read (text.flatMap Json.escapeChar ++ '"' :: rest) p =
      .ok (String.ofList (read.reverse ++ text), ⟨rest, p'⟩) := by
  induction text generalizing read p with
  | nil => exact ⟨p.nextByte, by rw [List.append_nil]; rfl⟩
  | cons c text ih =>
    obtain ⟨p₁, hc⟩ :=
      stringRest_escapeChar c read (text.flatMap Json.escapeChar ++ '"' :: rest) p
    obtain ⟨p', htext⟩ := ih (c :: read) p₁
    refine ⟨p', ?_⟩
    rw [List.flatMap_cons, List.append_assoc, hc, htext]
    simp

theorem quote_toList (s : String) :
    (Json.quote s).toList = '"' :: (s.toList.flatMap Json.escapeChar ++ ['"']) := by
  simp [Json.quote]

/-- A quoted string is read back, whatever follows. -/
theorem string_quote (s : String) (rest : List Char) (p : Place) :
    ∃ p', string ⟨(Json.quote s).toList ++ rest, p⟩ = .ok (s, ⟨rest, p'⟩) := by
  have htext : (Json.quote s).toList ++ rest =
      '"' :: (s.toList.flatMap Json.escapeChar ++ '"' :: rest) := by simp [quote_toList]
  rw [htext]
  obtain ⟨p', h⟩ := stringRest_escaped s.toList [] rest (p.after '"')
  exact ⟨p', by simpa [string, Cursor.bump] using h⟩

theorem text_reads (s : String) : Reads Reader.text (Json.quote s).toList s := by
  intro rest p _
  obtain ⟨p', h⟩ := string_quote s rest p
  refine ⟨p', ?_⟩
  rw [← h]
  rw [quote_toList]
  rfl

/-! ## Numbers -/

/-- Digits that fit a word are all taken. -/
theorem absorb_of_fits {ds : List Char} {significand : Nat}
    (h : Nat.ofDigitChars 10 ds significand < UInt64.size) :
    absorb significand ds = (Nat.ofDigitChars 10 ds significand, ds.length, 0) := by
  induction ds generalizing significand with
  | nil => rfl
  | cons d ds ih =>
    rw [Nat.ofDigitChars_cons, Nat.mul_comm] at h
    have hnext : significand * 10 + (d.toNat - '0'.toNat) < UInt64.size := by
      rw [Nat.ofDigitChars_eq_ofDigitChars_zero] at h
      have hpow : 0 < 10 ^ ds.length := Nat.pow_pos (by decide)
      have := Nat.le_mul_of_pos_left (significand * 10 + (d.toNat - '0'.toNat)) hpow
      omega
    rw [Nat.ofDigitChars_cons, Nat.mul_comm, absorb]
    simp only [hnext, if_true, ih h, List.length_cons]

/-- Only zero is written with a zero in front. -/
theorem head_toDigits {n : Nat} (hn : n ≠ 0) : (Nat.toDigits 10 n).head? ≠ some '0' := by
  induction n using Nat.strongRecOn with
  | ind n ih =>
    by_cases hlt : n < 10
    · rw [Nat.toDigits_of_lt_base hlt]
      have hdigit : ∀ d : Fin 10, d.val ≠ 0 → Nat.digitChar d ≠ '0' := by decide
      simpa using hdigit ⟨n, hlt⟩ hn
    · rw [Nat.toDigits_of_base_le (by decide) (by omega), List.head?_append]
      have hhead := ih (n / 10) (by omega) (by omega)
      cases h : (Nat.toDigits 10 (n / 10)).head? with
      | none => exact absurd (List.head?_eq_none_iff.mp h) Nat.toDigits_ne_nil
      | some d =>
        rw [h] at hhead
        simpa using hhead

/-- The digits of a number end where the text may end. -/
theorem digits_append {ds : List Char} (hds : ∀ d ∈ ds, d.isDigit = true) (hrest : Closes rest) :
    (⟨ds ++ rest, p⟩ : Cursor).digits =
      (ds, ⟨rest, { p with column := p.column + ds.length }⟩) := by
  have hstop : ∀ c ∈ rest.head?, c.isDigit = false := by
    intro c hc
    rcases hrest c hc with rfl | rfl | rfl <;> rfl
  have hnone : rest.takeWhile Char.isDigit = [] ∧ rest.dropWhile Char.isDigit = rest := by
    cases rest with
    | nil => exact ⟨rfl, rfl⟩
    | cons c cs => simp [hstop c rfl]
  unfold Cursor.digits
  simp only [List.takeWhile_append_of_pos hds, List.dropWhile_append_of_pos hds, hnone,
    List.append_nil]

/-- The digits of a number that fits a word, behind its sign. -/
theorem number_toDigits {n : Nat} (hn : n < UInt64.size) (hrest : Closes rest) (negative : Bool) :
    ∃ p', number ⟨(if negative then ['-'] else []) ++ (Nat.toDigits 10 n ++ rest), p⟩ =
      .ok (wholeNumber negative n, ⟨rest, p'⟩) := by
  obtain ⟨d, ds, hdigits⟩ := List.exists_cons_of_ne_nil (Nat.toDigits_ne_nil (n := n) (b := 10))
  have hall : ∀ d ∈ Nat.toDigits 10 n, d.isDigit = true := fun d hd =>
    Nat.isDigit_of_mem_toDigits (by decide) (by decide) hd
  have hd : d.isDigit = true := hall d (hdigits ▸ List.mem_cons_self ..)
  have hvalue : Nat.ofDigitChars 10 (Nat.toDigits 10 n) 0 = n := Nat.ofDigitChars_ten_toDigits
  have habsorb : absorb 0 (Nat.toDigits 10 n) = (n, (Nat.toDigits 10 n).length, 0) := by
    have hfits : Nat.ofDigitChars 10 (Nat.toDigits 10 n) 0 < UInt64.size := by rwa [hvalue]
    rw [absorb_of_fits hfits, hvalue]
  have hzero : ¬ (d = '0' ∧ 1 < (Nat.toDigits 10 n).length) := by
    rintro ⟨rfl, hlength⟩
    by_cases h : n = 0
    · rw [h, Nat.toDigits_zero] at hlength
      exact absurd hlength (by decide)
    · exact head_toDigits h (by rw [hdigits]; rfl)
  have hspan (p : Place) := digits_append (p := p) hall hrest
  have hminus : d ≠ '-' := by
    rintro rfl
    cases hd
  have hfirst : (decide (d = '0') && decide (1 < (Nat.toDigits 10 n).length)) = false := by
    simpa using fun h => Nat.not_lt.mp fun h' => hzero ⟨h, h'⟩
  have hrun (q : Place) : (⟨d :: (ds ++ rest), q⟩ : Cursor).digits =
      (Nat.toDigits 10 n, ⟨rest, { q with column := q.column + (Nat.toDigits 10 n).length }⟩) := by
    rw [← List.cons_append, ← hdigits]
    exact digits_append hall hrest
  let behind (q : Place) : Place := { q with column := q.column + (Nat.toDigits 10 n).length }
  rw [hdigits, List.cons_append]
  generalize ds ++ rest = tail at hrun ⊢
  -- What follows the digits is neither a point nor an exponent.
  cases negative with
  | true =>
    refine ⟨behind (p.after '-'), ?_⟩
    rcases hrest.cases with rfl | ⟨cs, rfl⟩ | ⟨cs, rfl⟩ | ⟨cs, rfl⟩ <;>
      simp [number, Cursor.bump, hd, hrun, habsorb, hfirst, behind]
  | false =>
    refine ⟨behind p, ?_⟩
    rcases hrest.cases with rfl | ⟨cs, rfl⟩ | ⟨cs, rfl⟩ | ⟨cs, rfl⟩ <;>
      simp [number, hd, hrun, habsorb, hfirst, hminus, behind]

theorem toList_toString_ofNat (m : Nat) : (toString (Int.ofNat m)).toList = Nat.toDigits 10 m := by
  change (toString m).toList = _
  rw [Nat.toString_eq_ofList_toDigits, String.toList_ofList]

theorem toList_toString_negSucc (m : Nat) :
    (toString (Int.negSucc m)).toList = '-' :: Nat.toDigits 10 (m + 1) := by
  change ("-" ++ toString (m + 1)).toList = _
  rw [Nat.toString_eq_ofList_toDigits, String.toList_append]
  simp

/-- An integer starts with its sign or with a digit. -/
theorem toString_head (n : Int) :
    ∃ c cs, (toString n).toList = c :: cs ∧ (c = '-' || c.isDigit) = true := by
  cases n with
  | ofNat m =>
    rw [toList_toString_ofNat]
    obtain ⟨d, ds, hdigits⟩ := List.exists_cons_of_ne_nil (Nat.toDigits_ne_nil (n := m) (b := 10))
    have hd : d.isDigit = true := Nat.isDigit_of_mem_toDigits (b := 10) (n := m) (by decide)
      (by decide) (hdigits ▸ List.mem_cons_self ..)
    exact ⟨d, ds, hdigits, by simp [hd]⟩
  | negSucc m => exact ⟨'-', _, toList_toString_negSucc m, rfl⟩

theorem isBlank_of_number (h : (c = '-' || c.isDigit) = true) : Cursor.isBlank c = false := by
  cases hblank : Cursor.isBlank c with
  | false => rfl
  | true =>
    simp only [Cursor.isBlank, Bool.or_eq_true, decide_eq_true_eq] at hblank
    rcases hblank with ((rfl | rfl) | rfl) | rfl <;> cases h

/-- An integer that fits a word of its sign. -/
theorem number_toString {n : Int} (hlow : Int64.minValue.toInt ≤ n) (hhigh : n < UInt64.size)
    (hrest : Closes rest) :
    ∃ p', number ⟨(toString n).toList ++ rest, p⟩ = .ok (.int n, ⟨rest, p'⟩) := by
  cases n with
  | ofNat m =>
    have hfits : (m : Int) < UInt64.size := hhigh
    rw [toList_toString_ofNat]
    exact number_toDigits (by omega) hrest false
  | negSucc m =>
    have hfits : -(2 ^ 63 : Int) ≤ Int.negSucc m := hlow
    have hsize : UInt64.size = 2 ^ 64 := rfl
    have hwhole : wholeNumber true (m + 1) = .int (Int.negSucc m) := by
      have hle : m + 1 ≤ Int64.minValue.toInt.natAbs := by
        have hmin : Int64.minValue.toInt.natAbs = 2 ^ 63 := rfl
        omega
      have hword : (decide (0 < m + 1) && decide (m + 1 ≤ Int64.minValue.toInt.natAbs)) = true := by
        rw [decide_eq_true hle, decide_eq_true (Nat.succ_pos m), Bool.and_self]
      rw [wholeNumber, if_pos rfl, if_pos hword]
      rfl
    rw [toList_toString_negSucc, ← hwhole]
    exact number_toDigits (by omega) hrest true

/-- An integer that fits a word of its sign is read back where it is accepted. -/
theorem integer_reads {expected : String} {accept : Int → Option α} {n : Int} {v : α}
    (hlow : Int64.minValue.toInt ≤ n) (hhigh : n < UInt64.size) (hv : accept n = some v) :
    Reads (integer expected accept) (toString n).toList v := by
  intro rest p hrest
  obtain ⟨p', hnumber⟩ := number_toString (p := p) hlow hhigh hrest
  obtain ⟨c, cs, htext, hc⟩ := toString_head n
  refine ⟨p', ?_⟩
  rw [htext, List.cons_append] at hnumber ⊢
  unfold integer
  rw [skipBlanks_of_not_blank (isBlank_of_number hc)]
  simp only [hc, if_true, hnumber, hv]

theorem int64_reads (n : Int64) : Reads int64 (toString n.toInt).toList n := by
  have hlow : Int64.minValue.toInt ≤ n.toInt := Int64.le_toInt n
  have hhigh : n.toInt ≤ Int64.maxValue.toInt := Int64.toInt_le n
  refine integer_reads hlow ?_ ?_
  · exact Int.lt_of_le_of_lt hhigh (by decide)
  · rw [if_pos ⟨hlow, hhigh⟩, Int64.ofInt_toInt]

theorem size_reads (n : UInt64) : Reads size (toString (n.toNat : Int)).toList n := by
  have hsize : n.toNat < UInt64.size := n.toNat_lt_size
  refine integer_reads (Int.le_trans (by decide) (Int.natCast_nonneg _)) (by omega) ?_
  rw [if_pos (Int.natCast_nonneg _), Int.toNat_natCast]
  simp

/-! ## Operators -/

/-- A name alone is read as the variant that bears it. -/
theorem bare_reads {below : List FormReader} {variants : List (Variant α)} {name : String} {v : α}
    (h : variants.find? (·.name = name) = some (.bare name v)) :
    Reads (readVariant below variants) (Json.quote name).toList v := by
  intro rest p hrest
  obtain ⟨p', hname⟩ := string_quote name rest p
  refine ⟨p', ?_⟩
  have hquote : (Json.quote name).toList ++ rest =
      '"' :: (name.toList.flatMap Json.escapeChar ++ ['"'] ++ rest) := by
    rw [quote_toList, List.cons_append]
  rw [hquote] at hname ⊢
  have hvariant : variantNamed variants name ⟨rest, p'⟩ = .ok (.bare name v) := by
    unfold variantNamed
    rw [h]
  unfold readVariant
  rw [skipBlanks_of_not_blank rfl]
  simp only [hname, ok_bind, hvariant]

/-- An operator is read back from its name. -/
theorem operator_reads {below : List FormReader} {name : α → String} {all : List α} {op : α}
    (hnames : (all.map name).Nodup) (hop : op ∈ all) :
    Reads (readVariant below (operatorVariants name all)) (Json.quote (name op)).toList op := by
  refine bare_reads ?_
  have hfind : all.find? (fun a => name a = name op) = some op := by
    cases h : all.find? (fun a => name a = name op) with
    | none => exact absurd (List.find?_eq_none.mp h op hop) (by simp)
    | some a =>
      have hname : name a = name op := by simpa using List.find?_some h
      rw [List.inj_on_of_nodup_map hnames (List.mem_of_find?_eq_some h) hop hname]
  unfold operatorVariants
  rw [List.find?_map]
  exact congrArg (Option.map fun op => Variant.bare (name op) op) hfind

end Reader

end Blockform
