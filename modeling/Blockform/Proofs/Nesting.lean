-- SUMMARY: Lists, objects and variants are read back if what is in them is (`Reader.record_reads`).
import Blockform.Proofs.Spelling

/-!
# Reading lists and objects back

A list is read item by item, and an object field by field, in whichever order
its fields come. What an object still has to give (`Reader.Holds`) is said field
by field: a field that has been read has its value and comes no more, and any
other comes once with the text of its value, or not at all if it stands for that
value when it is left out.
-/

namespace Blockform

/-! ## Texts -/

namespace Json

/-- The characters of the text without blanks. -/
def chars (v : Json) : List Char := v.compact.toList

/-- The characters of a field. -/
def fieldChars (field : String × Json) : List Char :=
  (quote field.1).toList ++ ':' :: field.2.chars

/-- Texts with a comma in front of each. -/
def following (texts : List (List Char)) : List Char := texts.flatMap (',' :: ·)

theorem intercalate_cons (t : List Char) (texts : List (List Char)) :
    [','].intercalate (t :: texts) = t ++ following texts := by
  induction texts generalizing t with
  | nil => simp [following]
  | cons t' rest ih => rw [List.intercalate_cons_cons, ih]; simp [following]

theorem chars_arr (items : List Json) :
    (Json.arr items).chars = '[' :: ([','].intercalate (items.map chars) ++ [']']) := by
  have hitems : (compactItems items).map String.toList = items.map chars := by
    induction items with
    | nil => rfl
    | cons v rest ih => rw [compactItems, List.map_cons, ih]; rfl
  simp [chars, compact, hitems]

theorem chars_obj (fields : List (String × Json)) :
    (Json.obj fields).chars =
      '\x7b' :: ([','].intercalate (fields.map fieldChars) ++ ['\x7d']) := by
  have hfields : (compactFields fields).map String.toList = fields.map fieldChars := by
    induction fields with
    | nil => rfl
    | cons field rest ih =>
      rw [compactFields, List.map_cons, ih]
      simp [fieldChars, chars]
  simp [chars, compact, hfields]

/-- A value starts with a character that is neither blank nor a closing bracket. -/
theorem chars_head (v : Json) : ∃ c cs, v.chars = c :: cs ∧
    Reader.Cursor.isBlank c = false ∧ c ≠ ']' ∧ (c = 'n' → v = .null) := by
  cases v with
  | null => exact ⟨'n', _, rfl, rfl, by decide, fun _ => rfl⟩
  | bool b => cases b with
    | true => exact ⟨'t', _, rfl, rfl, by decide, fun h => nomatch h⟩
    | false => exact ⟨'f', _, rfl, rfl, by decide, fun h => nomatch h⟩
  | int n =>
    obtain ⟨c, cs, htext, hc⟩ := Reader.toString_head n
    refine ⟨c, cs, htext, Reader.isBlank_of_number hc, ?_, ?_⟩
    · rintro rfl
      cases hc
    · rintro rfl
      cases hc
  | str s => exact ⟨'"', _, Reader.quote_toList s, rfl, by decide, fun h => nomatch h⟩
  | arr items => exact ⟨'[', _, chars_arr items, rfl, by decide, fun h => nomatch h⟩
  | obj fields => exact ⟨'\x7b', _, chars_obj fields, rfl, by decide, fun h => nomatch h⟩

end Json

namespace Reader

open Json

variable {α : Type} {rest : List Char} {p : Place}

/-- What follows an item or a field goes on with the list or object. -/
theorem closes_following (texts : List (List Char)) {close : Char}
    (hclose : close = ']' ∨ close = '\x7d') : Closes (following texts ++ close :: rest) := by
  cases texts with
  | nil =>
    intro c hc
    cases hc
    exact .inr hclose
  | cons t ts =>
    intro c hc
    cases hc
    exact .inl rfl

/-! ## Lists -/

theorem nextElement_first (v : Json) (tail : List Char) (p : Place) :
    nextElement true ⟨v.chars ++ tail, p⟩ =
      .ok (some ⟨v.chars ++ tail, p⟩, ⟨v.chars ++ tail, p⟩) := by
  obtain ⟨c, cs, hchars, hblank, hclose, -⟩ := v.chars_head
  rw [hchars, List.cons_append]
  unfold nextElement
  rw [skipBlanks_of_not_blank hblank]
  simp

theorem nextElement_next (v : Json) (tail : List Char) (p : Place) : ∃ p',
    nextElement false ⟨',' :: (v.chars ++ tail), p⟩ =
      .ok (some ⟨v.chars ++ tail, p'⟩, ⟨v.chars ++ tail, p'⟩) := by
  obtain ⟨c, cs, hchars, hblank, hclose, -⟩ := v.chars_head
  refine ⟨p.after ',', ?_⟩
  rw [hchars, List.cons_append]
  unfold nextElement
  rw [skipBlanks_of_not_blank rfl]
  simp [Cursor.bump, skipBlanks_of_not_blank hblank, hclose]

theorem nextElement_end {first : Bool} :
    nextElement first ⟨']' :: rest, p⟩ = .ok (none, ⟨']' :: rest, p⟩) := rfl

/-- The items behind the first one. -/
theorem elements_following {item : Read α} {js : List Json} {vs : List α}
    (h : List.Forall₂ (fun j v => Reads item j.chars v) js vs) {fuel : Nat}
    (hfuel : js.length < fuel) (rest : List Char) (p : Place) : ∃ p',
    elements item fuel false ⟨following (js.map chars) ++ ']' :: rest, p⟩ =
      .ok (vs, ⟨']' :: rest, p'⟩) := by
  induction h generalizing fuel p with
  | nil =>
    obtain ⟨fuel, rfl⟩ := Nat.exists_eq_add_one_of_ne_zero (Nat.ne_zero_of_lt hfuel)
    refine ⟨p, ?_⟩
    simp [elements, following, nextElement_end, ok_bind]
  | @cons j v js vs hj hjs ih =>
    obtain ⟨fuel, rfl⟩ := Nat.exists_eq_add_one_of_ne_zero (Nat.ne_zero_of_lt hfuel)
    obtain ⟨p₁, hnext⟩ := nextElement_next j (following (js.map chars) ++ ']' :: rest) p
    obtain ⟨p₂, hread⟩ := hj (following (js.map chars) ++ ']' :: rest) p₁
      (closes_following _ (.inl rfl))
    obtain ⟨p', hrest⟩ := ih (Nat.lt_of_succ_lt_succ hfuel) p₂
    refine ⟨p', ?_⟩
    have htext : following ((j :: js).map chars) ++ ']' :: rest =
        ',' :: (j.chars ++ (following (js.map chars) ++ ']' :: rest)) := by simp [following]
    rw [htext, elements, hnext, ok_bind]
    simp only [hread, ok_bind, hrest]

/-- Texts with commas between them are at least as long as the list of them. -/
theorem length_le_intercalate (texts : List (List Char)) :
    texts.length ≤ ([','].intercalate texts).length + 1 := by
  have hfollowing (texts : List (List Char)) : texts.length ≤ (following texts).length := by
    induction texts with
    | nil => exact Nat.le_refl _
    | cons t rest ih =>
      simp only [following, List.flatMap_cons, List.length_append, List.length_cons] at ih ⊢
      omega
  cases texts with
  | nil => exact Nat.zero_le _
  | cons t rest =>
    have := hfollowing rest
    rw [intercalate_cons]
    simp only [List.length_append, List.length_cons]
    omega

/-- A list is read back if its items are. -/
theorem list_reads {item : Read α} {js : List Json} {vs : List α}
    (h : List.Forall₂ (fun j v => Reads item j.chars v) js vs) :
    Reads (readList (some item)) (Json.arr js).chars vs := by
  intro rest p hrest
  have helements (fuel : Nat) (hfuel : js.length < fuel) : ∃ p',
      elements item fuel true
        ⟨[','].intercalate (js.map chars) ++ ']' :: rest, p.after '['⟩ =
        .ok (vs, ⟨']' :: rest, p'⟩) := by
    obtain ⟨fuel, rfl⟩ := Nat.exists_eq_add_one_of_ne_zero (Nat.ne_zero_of_lt hfuel)
    cases h with
    | nil =>
      refine ⟨p.after '[', ?_⟩
      simp [elements, nextElement_end, ok_bind]
    | @cons j v js vs hj hjs =>
      obtain ⟨p₁, hread⟩ := hj (following (js.map chars) ++ ']' :: rest) (p.after '[')
        (closes_following _ (.inl rfl))
      obtain ⟨p', hfollowing⟩ := elements_following hjs (Nat.lt_of_succ_lt_succ hfuel) rest p₁
      refine ⟨p', ?_⟩
      rw [List.map_cons, intercalate_cons, List.append_assoc, elements, nextElement_first, ok_bind]
      simp only [hread, ok_bind, hfollowing]
  have htext : (Json.arr js).chars ++ rest =
      '[' :: ([','].intercalate (js.map chars) ++ ']' :: rest) := by simp [chars_arr]
  obtain ⟨p', hvs⟩ := helements (((Json.arr js).chars ++ rest).length + 1) (by
    have hlength := length_le_intercalate (js.map chars)
    rw [htext]
    simp only [List.length_map, List.length_append, List.length_cons] at hlength ⊢
    omega)
  refine ⟨p'.after ']', ?_⟩
  rw [htext] at hvs ⊢
  unfold readList
  rw [skipBlanks_of_not_blank rfl]
  simp only [Cursor.bump, hvs]
  rfl

/-! ## Objects -/

/-- What the fields of an object that are still to come give for a field of a
    record, some of whose fields have been read. -/
def Field.Holds (inner : FormReader) (fields : List (String × Json)) (f : Field)
    (slot : Option f.Val) (v : f.Val) : Prop :=
  (slot = some v ∧ f.name ∉ fields.map Prod.fst) ∨
  (slot = none ∧ ((∃ j, (f.name, j) ∈ fields ∧ Reads (readField inner f) j.chars v) ∨
    (f.name ∉ fields.map Prod.fst ∧ f.inObject = some v)))

/-- What the fields of an object that are still to come give for those of a
    record. -/
def Holds (inner : FormReader) (fields : List (String × Json)) :
    (fs : List Field) → Partial fs → Fields fs → Prop
  | [], _, _ => True
  | f :: fs, (slot, slots), (v, vs) =>
    f.Holds inner fields slot v ∧ Holds inner fields fs slots vs

variable {inner : FormReader} {fields : List (String × Json)} {k : String} {j : Json}

/-- A field with another key is of no concern. -/
theorem Field.Holds.of_ne {f : Field} {slot : Option f.Val} {v : f.Val} (hk : f.name ≠ k)
    (h : f.Holds inner ((k, j) :: fields) slot v) : f.Holds inner fields slot v := by
  have hkeys : f.name ∉ ((k, j) :: fields).map Prod.fst → f.name ∉ fields.map Prod.fst :=
    fun hnot hmem => hnot (List.mem_cons_of_mem _ hmem)
  rcases h with ⟨hslot, hnot⟩ | ⟨hslot, ⟨j', hmem, hread⟩ | ⟨hnot, hv⟩⟩
  · exact .inl ⟨hslot, hkeys hnot⟩
  · rcases List.mem_cons.mp hmem with heq | hmem
    · exact absurd (congrArg Prod.fst heq) hk
    · exact .inr ⟨hslot, .inl ⟨j', hmem, hread⟩⟩
  · exact .inr ⟨hslot, .inr ⟨hkeys hnot, hv⟩⟩

theorem Holds.of_not_mem {fs : List Field} {slots : Partial fs} {vs : Fields fs}
    (hk : k ∉ fs.map Field.name) (h : Holds inner ((k, j) :: fields) fs slots vs) :
    Holds inner fields fs slots vs := by
  induction fs with
  | nil => trivial
  | cons f fs ih =>
    rw [List.map_cons, List.mem_cons, not_or] at hk
    exact ⟨h.1.of_ne (Ne.symm hk.1), ih hk.2 h.2⟩

/-- A field that has the key is still to be read, and the object has its value. -/
theorem Field.Holds.of_eq {f : Field} {slot : Option f.Val} {v : f.Val} (hk : f.name = k)
    (hkeys : (((k, j) :: fields).map Prod.fst).Nodup)
    (h : f.Holds inner ((k, j) :: fields) slot v) :
    slot = none ∧ Reads (readField inner f) j.chars v := by
  have hmem : f.name ∈ ((k, j) :: fields).map Prod.fst := hk ▸ List.mem_cons_self ..
  rcases h with ⟨-, hnot⟩ | ⟨hslot, ⟨j', hj', hread⟩ | ⟨hnot, -⟩⟩
  · exact absurd hmem hnot
  · refine ⟨hslot, ?_⟩
    rcases List.mem_cons.mp hj' with heq | hj'
    · cases heq
      exact hread
    · have hagain : k ∈ fields.map Prod.fst := List.mem_map.mpr ⟨_, hj', hk⟩
      exact absurd hagain (List.nodup_cons.mp hkeys).1
  · exact absurd hmem hnot

theorem readKeyed_of_eq {f : Field} {fs : List Field} {slots : Partial fs} {c : Cursor}
    (hk : f.name = k) :
    readKeyed inner k (f :: fs) (none, slots) c = (do
      let (v, c) ← readField inner f (← colon c)
      .ok (some ((some v, slots), c))) :=
  if_pos hk

theorem readKeyed_of_ne {f : Field} {fs : List Field} {slot : Option f.Val} {slots : Partial fs}
    {c : Cursor} (hk : f.name ≠ k) :
    readKeyed inner k (f :: fs) (slot, slots) c = (do
      match ← readKeyed inner k fs slots c with
      | none => .ok none
      | some (slots, c) => .ok (some ((slot, slots), c))) :=
  if_neg hk

theorem readKeyed_of_holds {fs : List Field} {slots : Partial fs} {vs : Fields fs}
    (hnames : (fs.map Field.name).Nodup) (hkeys : (((k, j) :: fields).map Prod.fst).Nodup)
    (hk : k ∈ fs.map Field.name) (hrest : Closes rest)
    (h : Holds inner ((k, j) :: fields) fs slots vs) :
    ∃ slots' p', readKeyed inner k fs slots ⟨':' :: (j.chars ++ rest), p⟩ =
      .ok (some (slots', ⟨rest, p'⟩)) ∧ Holds inner fields fs slots' vs := by
  induction fs with
  | nil => cases hk
  | cons f fs ih =>
    obtain ⟨slot, slots⟩ := slots
    obtain ⟨v, vs⟩ := vs
    rw [List.map_cons, List.nodup_cons] at hnames
    by_cases hf : f.name = k
    · obtain ⟨rfl, hread⟩ := h.1.of_eq hf hkeys
      obtain ⟨p', hv⟩ := hread rest (p.after ':') hrest
      have hcolon : colon ⟨':' :: (j.chars ++ rest), p⟩ = .ok ⟨j.chars ++ rest, p.after ':'⟩ := rfl
      refine ⟨(some v, slots), p', ?_, .inl ⟨rfl, ?_⟩, h.2.of_not_mem (hf ▸ hnames.1)⟩
      · rw [readKeyed_of_eq hf]
        simp only [hcolon, ok_bind, hv]
      · rw [hf]
        exact (List.nodup_cons.mp hkeys).1
    · have hk : k ∈ fs.map Field.name :=
        (List.mem_cons.mp hk).resolve_left fun heq => hf heq.symm
      obtain ⟨slots', p', hread, hholds⟩ := ih hnames.2 hk h.2
      refine ⟨(slot, slots'), p', ?_, h.1.of_ne hf, hholds⟩
      rw [readKeyed_of_ne hf]
      simp only [hread, ok_bind]

/-- Once all fields have been read, the record is complete. -/
theorem complete_of_holds {fs : List Field} {slots : Partial fs} {vs : Fields fs} (c : Cursor)
    (h : Holds inner [] fs slots vs) : complete c fs slots = .ok vs := by
  induction fs with
  | nil => rfl
  | cons f fs ih =>
    obtain ⟨slot, slots⟩ := slots
    obtain ⟨v, vs⟩ := vs
    have hv : (slot <|> f.inObject) = some v := by
      rcases h.1 with ⟨rfl, -⟩ | ⟨rfl, ⟨j, hj, -⟩ | ⟨-, hv⟩⟩
      · rfl
      · cases hj
      · exact hv
    rw [complete, hv]
    simp only [ih h.2]
    rfl

theorem nextKey_first {tail : List Char} :
    nextKey true ⟨'"' :: tail, p⟩ = .ok (true, ⟨'"' :: tail, p⟩) := rfl

theorem nextKey_next {tail : List Char} :
    nextKey false ⟨',' :: '"' :: tail, p⟩ = .ok (true, ⟨'"' :: tail, p.after ','⟩) := rfl

theorem nextKey_end {first : Bool} :
    nextKey first ⟨'\x7d' :: rest, p⟩ = .ok (false, ⟨'\x7d' :: rest, p⟩) := rfl

/-- A field at whose key the cursor is, and what follows it. -/
theorem readFields_field {fs : List Field} {slots : Partial fs} {vs : Fields fs}
    {first : Bool} {tail : List Char} {c : Cursor} (fuel : Nat)
    (hnext : nextKey first c = .ok (true, ⟨fieldChars (k, j) ++ tail, p⟩))
    (hnames : (fs.map Field.name).Nodup) (hkeys : (((k, j) :: fields).map Prod.fst).Nodup)
    (hk : k ∈ fs.map Field.name) (htail : Closes tail)
    (h : Holds inner ((k, j) :: fields) fs slots vs) :
    ∃ slots' p', readFields inner fs (fuel + 1) first slots c =
      readFields inner fs fuel false slots' ⟨tail, p'⟩ ∧ Holds inner fields fs slots' vs := by
  have htext : fieldChars (k, j) ++ tail = (quote k).toList ++ ':' :: (j.chars ++ tail) := by
    simp [fieldChars]
  obtain ⟨p₁, hkey⟩ := string_quote k (':' :: (j.chars ++ tail)) p
  obtain ⟨slots', p', hread, hholds⟩ := readKeyed_of_holds (p := p₁) hnames hkeys hk htail h
  refine ⟨slots', p', ?_, hholds⟩
  rw [htext] at hnext
  rw [readFields]
  simp only [hnext, ok_bind, Bool.not_true, Bool.false_eq_true, if_false, hkey, hread]

theorem readFields_end {fs : List Field} {slots : Partial fs} {first : Bool} {fuel : Nat} :
    readFields inner fs (fuel + 1) first slots ⟨'\x7d' :: rest, p⟩ =
      .ok (slots, ⟨'\x7d' :: rest, p⟩) := by
  rw [readFields]
  simp only [nextKey_end, ok_bind, Bool.not_false, if_true]

theorem fieldChars_head (field : String × Json) (tail : List Char) :
    ∃ cs, fieldChars field ++ tail = '"' :: cs := by
  rw [fieldChars, quote_toList]
  exact ⟨_, rfl⟩

/-- The fields behind the first one. -/
theorem readFields_following {fs : List Field} {slots : Partial fs} {vs : Fields fs}
    (hnames : (fs.map Field.name).Nodup) (hkeys : (fields.map Prod.fst).Nodup)
    (hknown : fields.map Prod.fst ⊆ fs.map Field.name) (h : Holds inner fields fs slots vs)
    {fuel : Nat} (hfuel : fields.length < fuel) : ∃ slots' p',
    readFields inner fs fuel false slots ⟨following (fields.map fieldChars) ++ '\x7d' :: rest, p⟩ =
      .ok (slots', ⟨'\x7d' :: rest, p'⟩) ∧ Holds inner [] fs slots' vs := by
  induction fields generalizing slots fuel p with
  | nil =>
    obtain ⟨fuel, rfl⟩ := Nat.exists_eq_add_one_of_ne_zero (Nat.ne_zero_of_lt hfuel)
    exact ⟨slots, p, readFields_end, h⟩
  | cons field fields ih =>
    obtain ⟨fuel, rfl⟩ := Nat.exists_eq_add_one_of_ne_zero (Nat.ne_zero_of_lt hfuel)
    obtain ⟨k, j⟩ := field
    have htext : following (((k, j) :: fields).map fieldChars) ++ '\x7d' :: rest =
        ',' :: (fieldChars (k, j) ++ (following (fields.map fieldChars) ++ '\x7d' :: rest)) := by
      simp [following]
    have hnext : nextKey false
        ⟨',' :: (fieldChars (k, j) ++ (following (fields.map fieldChars) ++ '\x7d' :: rest)), p⟩ =
        .ok (true, ⟨fieldChars (k, j) ++ (following (fields.map fieldChars) ++ '\x7d' :: rest),
          p.after ','⟩) := by
      obtain ⟨cs, hcs⟩ :=
        fieldChars_head (k, j) (following (fields.map fieldChars) ++ '\x7d' :: rest)
      rw [hcs]
      exact nextKey_next
    rw [List.map_cons, List.cons_subset] at hknown
    obtain ⟨slots₁, p₁, hfield, hholds⟩ := readFields_field fuel hnext hnames hkeys
      hknown.1 (closes_following _ (.inr rfl)) h
    rw [htext, hfield]
    exact ih (List.nodup_cons.mp hkeys).2 hknown.2 hholds (Nat.lt_of_succ_lt_succ hfuel)

/-- A record is read back from an object that holds its fields. -/
theorem record_reads {r : Record α} {vs : Fields r.fields}
    (hnames : (r.fields.map Field.name).Nodup) (hkeys : (fields.map Prod.fst).Nodup)
    (hknown : fields.map Prod.fst ⊆ r.fields.map Field.name)
    (h : Holds inner fields r.fields (.empty _) vs) :
    Reads (readRecord (some inner) r) (Json.obj fields).chars (r.build vs) := by
  intro rest p hrest
  have hfields (fuel : Nat) (hfuel : fields.length < fuel) : ∃ slots' p',
      readFields inner r.fields fuel true (.empty _)
        ⟨[','].intercalate (fields.map fieldChars) ++ '\x7d' :: rest, p.after '\x7b'⟩ =
        .ok (slots', ⟨'\x7d' :: rest, p'⟩) ∧ Holds inner [] r.fields slots' vs := by
    obtain ⟨fuel, rfl⟩ := Nat.exists_eq_add_one_of_ne_zero (Nat.ne_zero_of_lt hfuel)
    cases fields with
    | nil => exact ⟨_, _, readFields_end, h⟩
    | cons field fields =>
      obtain ⟨k, j⟩ := field
      have hnext : nextKey true ⟨fieldChars (k, j) ++
          (following (fields.map fieldChars) ++ '\x7d' :: rest), p.after '\x7b'⟩ =
          .ok (true, ⟨fieldChars (k, j) ++ (following (fields.map fieldChars) ++ '\x7d' :: rest),
            p.after '\x7b'⟩) := by
        obtain ⟨cs, hcs⟩ :=
          fieldChars_head (k, j) (following (fields.map fieldChars) ++ '\x7d' :: rest)
        rw [hcs]
        exact nextKey_first
      rw [List.map_cons, List.cons_subset] at hknown
      obtain ⟨slots₁, p₁, hfield, hholds⟩ := readFields_field fuel hnext hnames hkeys
        hknown.1 (closes_following _ (.inr rfl)) h
      rw [List.map_cons, intercalate_cons, List.append_assoc, hfield]
      exact readFields_following hnames (List.nodup_cons.mp hkeys).2 hknown.2 hholds
        (Nat.lt_of_succ_lt_succ hfuel)
  have htext : (Json.obj fields).chars ++ rest =
      '\x7b' :: ([','].intercalate (fields.map fieldChars) ++ '\x7d' :: rest) := by simp [chars_obj]
  obtain ⟨slots', p', hread, hholds⟩ :=
      hfields (((Json.obj fields).chars ++ rest).length + 1) (by
    have hlength := length_le_intercalate (fields.map fieldChars)
    rw [htext]
    simp only [List.length_map, List.length_append, List.length_cons] at hlength ⊢
    omega)
  refine ⟨p'.after '\x7d', ?_⟩
  rw [htext] at hread ⊢
  unfold readRecord
  rw [skipBlanks_of_not_blank rfl]
  simp only [Cursor.bump, hread, ok_bind, complete_of_holds _ hholds]
  rfl

/-! ## Variants and absent values -/

/-- A variant with fields is read back from an object with its name as the one
    key. That object takes one level, and the record in it the next. -/
theorem variant_reads {outer : FormReader} {below : List FormReader} {variants : List (Variant α)}
    {r : Record α} {v : α} (hfind : variants.find? (·.name = k) = some (.record k r))
    (h : Reads (readRecord (some inner) r) j.chars v) :
    Reads (readVariant (outer :: inner :: below) variants) (Json.obj [(k, j)]).chars v := by
  intro rest p hrest
  have htext : (Json.obj [(k, j)]).chars ++ rest =
      '\x7b' :: ((quote k).toList ++ ':' :: (j.chars ++ '\x7d' :: rest)) := by
    simp [chars_obj, fieldChars]
  have hclose : Closes ('\x7d' :: rest) := closes_following [] (.inr rfl)
  obtain ⟨p₁, hkey⟩ := string_quote k (':' :: (j.chars ++ '\x7d' :: rest)) (p.after '\x7b')
  obtain ⟨p₂, hv⟩ := h ('\x7d' :: rest) (p₁.after ':') hclose
  have hvariant : variantNamed variants k ⟨':' :: (j.chars ++ '\x7d' :: rest), p₁⟩ =
      .ok (.record k r) := by
    unfold variantNamed
    rw [hfind]
  have hcolon : colon ⟨':' :: (j.chars ++ '\x7d' :: rest), p₁⟩ =
      .ok ⟨j.chars ++ '\x7d' :: rest, p₁.after ':'⟩ := rfl
  refine ⟨p₂.after '\x7d', ?_⟩
  rw [quote_toList, List.cons_append] at htext hkey
  rw [htext]
  unfold readVariant
  rw [skipBlanks_of_not_blank rfl]
  simp only [Cursor.bump, List.isEmpty_cons, Bool.false_eq_true, if_false]
  rw [skipBlanks_of_not_blank rfl]
  simp only [hkey, ok_bind, hvariant, hcolon, List.tail_cons, List.head?_cons, hv]
  rw [skipBlanks_of_not_blank rfl]
  rfl

theorem orNull_reads_some {read : Read α} {v : α} (hj : j ≠ .null) (h : Reads read j.chars v) :
    Reads (orNull read) j.chars (some v) := by
  intro rest p hrest
  obtain ⟨c, cs, hchars, hblank, -, hnull⟩ := j.chars_head
  obtain ⟨p', hv⟩ := h rest p hrest
  have hn : c ≠ 'n' := fun heq => hj (hnull heq)
  refine ⟨p', ?_⟩
  rw [hchars, List.cons_append] at hv ⊢
  unfold orNull
  rw [skipBlanks_of_not_blank hblank]
  dsimp only
  split
  · rename_i heq
    exact absurd (List.cons.inj heq).1 hn
  · rw [hv]
    rfl

theorem orNull_reads_none {read : Read α} : Reads (orNull read) Json.null.chars none := by
  intro rest p hrest
  exact ⟨_, rfl⟩

end Reader

end Blockform
