-- SUMMARY: What the words of a command line say about the lowering (`Invocation.ofWords_eq_ok`).
import Mathlib.Data.List.Basic
import Blockform.Command.Invocation
import Blockform.Diagnostic

/-!
# Words of a command line

The reader of a command line goes through the words with a `Line` that remembers what was
said. What the words mean for the lowering can be told without it: the words behind the
name of the command are searched for two options, up to a `--`. The two agree on every
command line that is accepted. The words that the reader takes as values cannot be mistaken
for options, since a value never starts with two dashes.
-/

namespace Blockform.Command

variable {g : Grammar} {l l' : Line} {w : String} {rest words : List String}

/-! ## What words denote -/

/-- The value that a word attaches to an option with an equals sign. -/
def attachedTo (option w : String) : Option String :=
  ((option ++ "=").toList.isPrefixOf? w.toList).map String.ofList

/-- The value that words give to an option, attached to it or as the next word. -/
def valueOf (option : String) : List String → Option String
  | [] => none
  | w :: rest =>
    if w = "--" then none
    else if w = option then rest.head?
    else (attachedTo option w).or (valueOf option rest)

/-- Is the option one of the words? -/
def given (option : String) (words : List String) : Bool :=
  (words.takeWhile (· ≠ "--")).contains option

/-- The options of a lowering that words denote. -/
def optionsOf (words : List String) : LowerOptions :=
  let options : LowerOptions := {}
  { options with
    entryName := (valueOf "--entry" words).getD options.entryName
    autoDeclareCallees := !given "--no-auto-declare" words }

/-- The command that a task belongs to. -/
def Task.verb : Task → Verb
  | .build .. => .build
  | .run .. => .run
  | .check => .check

/-- The words behind the first one that names a command. -/
def behindVerb (words : List String) : List String :=
  (words.dropWhile fun w => (Verb.ofName? w).isNone).tail

/-! ## Ways to take a word -/

namespace Line

/-- The word starts with two dashes. -/
def IsLong (w : String) : Prop := ['-', '-'] <+: w.toList

instance : Decidable (IsLong w) := inferInstanceAs (Decidable (['-', '-'] <+: w.toList))

/-- The word can be a value or an operand: behind a dash it looks like a number. -/
def IsValue (w : String) : Prop := ∀ cs, w.toList = '-' :: cs → looksNumeric cs

/-- The ways in which a line takes a word: as two dashes alone, as an option of one of four
    forms, as the value of the setting before it, or as an operand. -/
inductive Taken (g : Grammar) (l : Line) (w : String) (l' : Line) : Prop where
  | dashes (hl : l.literal = false) (hp : l.pending = none) (hw : w = "--")
      (h : l' = { l with literal := true })
  | switch (s : Switch) (hl : l.literal = false) (hp : l.pending = none) (hw : w = "--" ++ s.long)
      (h : l.take s = .ok l')
  | setting (o : Setting) (hl : l.literal = false) (hp : l.pending = none)
      (hw : w = "--" ++ o.long) (h : l' = { l with pending := o })
  | attached (o : Setting) (v : String) (hl : l.literal = false) (hp : l.pending = none)
      (hw : w = "--" ++ o.long ++ "=" ++ v) (h : l.assign o v = .ok l')
  | letters (cs : List Char) (hl : l.literal = false) (hp : l.pending = none) (hw : ¬ IsLong w)
      (hcs : w.toList = '-' :: cs) (h : l.letters g cs = .ok l')
  | value (o : Setting) (hl : l.literal = false) (hp : l.pending = some o) (hw : IsValue w)
      (h : l.assign o w = .ok l')
  | operand (hw : l.literal = true ∨ l.pending = none ∧ IsValue w) (h : l.place g w = .ok l')

theorem IsValue.not_long (h : IsValue w) : ¬ IsLong w := by
  rintro ⟨cs, hcs⟩
  have hnumeric : looksNumeric ('-' :: cs) = true := h _ hcs.symm
  simp [looksNumeric] at hnumeric

theorem option_eq_ok {taken : Except Halt Line} :
    l.option taken = .ok l' ↔ l.pending = none ∧ taken = .ok l' := by
  unfold option
  cases l.pending <;> simp

/-- The letters behind two dashes make a switch, or a setting whose value is attached to it
    or comes next. -/
theorem longOption_taken {name : List Char} {v : Option (List Char)} (hl : l.literal = false)
    (hp : l.pending = none)
    (hw : w.toList = '-' :: '-' :: name ++ v.elim [] ('=' :: ·))
    (h : l.longOption g name v = .ok l') : Taken g l w l' := by
  have hlong {option : String} (hoption : option.toList = name) :
      w = "--" ++ option ++ String.ofList (v.elim [] ('=' :: ·)) :=
    String.toList_inj.mp (by simp [hw, hoption])
  unfold longOption at h
  cases hs : g.switches.find? (·.long.toList = name) with
  | some s =>
    have hname : s.long.toList = name := by simpa using List.find?_some hs
    cases v with
    | some v => simp [hs] at h
    | none => exact .switch s hl hp (by simpa using hlong hname) (by simpa [hs] using h)
  | none =>
    cases ho : g.settings.find? (·.long.toList = name) with
    | none => simp [hs, ho] at h
    | some o =>
      have hname : o.long.toList = name := by simpa using List.find?_some ho
      cases v with
      | some v =>
        have hv : w = "--" ++ o.long ++ "=" ++ String.ofList v :=
          (hlong hname).trans (String.toList_inj.mp (by simp))
        exact .attached o _ hl hp hv (by simpa [hs, ho] using h)
      | none =>
        simp only [hs, ho, Except.ok.injEq] at h
        exact .setting o hl hp (by simpa using hlong hname) h.symm

/-- A long option parts at its first equals sign into its name and its value. -/
theorem parted_at_equals (cs : List Char) :
    cs.takeWhile (· ≠ '=') ++ ((cs.dropWhile (· ≠ '=')).head?.map fun _ =>
      (cs.dropWhile (· ≠ '=')).tail).elim [] ('=' :: ·) = cs := by
  have hparts : cs.takeWhile (· ≠ '=') ++ cs.dropWhile (· ≠ '=') = cs :=
    List.takeWhile_append_dropWhile
  have hequals := List.head?_dropWhile_not (· ≠ '=') cs
  generalize cs.dropWhile (· ≠ '=') = v at hparts hequals ⊢
  cases v with
  | nil => exact hparts
  | cons c v =>
    obtain rfl : c = '=' := by simpa using hequals
    exact hparts

theorem word_taken (h : l.word g w = .ok l') : Taken g l w l' := by
  unfold word at h
  cases hl : l.literal with
  | true => exact .operand (.inl hl) (by simpa [hl] using h)
  | false =>
    rw [hl, if_neg Bool.false_ne_true] at h
    have hvalue (hw : IsValue w) (h : l.value g w = .ok l') : Taken g l w l' := by
      unfold value at h
      cases hp : l.pending with
      | some o => exact .value o hl hp hw (by simpa [hp] using h)
      | none => exact .operand (.inr ⟨hp, hw⟩) (by simpa [hp] using h)
    split at h
    · rename_i hw
      obtain ⟨hp, htaken⟩ := option_eq_ok.mp h
      exact .dashes hl hp (String.toList_inj.mp hw) (by simpa using htaken.symm)
    · rename_i cs _ hw
      obtain ⟨hp, htaken⟩ := option_eq_ok.mp h
      have hparted := parted_at_equals cs
      exact longOption_taken hl hp (by rw [hw, List.cons_append, List.cons_append, hparted]) htaken
    · rename_i c cs _ hlong hw
      have hnot : ¬ IsLong w := by
        rintro ⟨cs', hcs'⟩
        rw [hw] at hcs'
        injection hcs' with _ hcs'
        injection hcs' with hc
        exact hlong hc.symm
      split at h
      · rename_i hnumeric
        refine hvalue (fun cs' hcs' => ?_) h
        obtain rfl : c :: cs = cs' := List.tail_eq_of_cons_eq (hw.symm.trans hcs')
        exact (Bool.and_eq_true_iff.mp hnumeric).1
      · obtain ⟨hp, htaken⟩ := option_eq_ok.mp h
        exact .letters _ hl hp hnot hw htaken
    · rename_i _ _ hletters
      refine hvalue (fun cs hcs => ?_) h
      cases cs with
      | nil => rfl
      | cons c cs => exact absurd hcs (hletters c cs)

/-! ## What a word says -/

/-- Of what concerns the lowering, the line says `entry` and `noAutoDeclare` more than before. -/
structure Says (l l' : Line) (entry : Option String) (noAutoDeclare : Bool) : Prop where
  entry : l'.entry = l.entry.or entry
  noAutoDeclare : l'.noAutoDeclare = (l.noAutoDeclare || noAutoDeclare)
  literal : l'.literal = l.literal

theorem raise_eq_ok {old : Bool} : raise old l = .ok l' ↔ old = false ∧ l = l' := by
  unfold raise
  cases old <;> simp

theorem once_eq_ok {old value : Option α} {set : α → Line} :
    once old value set = .ok l' ↔ old = none ∧ ∃ v, value = some v ∧ set v = l' := by
  unfold once
  cases old <;> cases value <;> simp

theorem take_says {s : Switch} (h : l.take s = .ok l') :
    l.Says l' none (s = .noAutoDeclare) ∧ l'.pending = l.pending := by
  cases s with
  | verbose =>
    cases h
    exact ⟨⟨by simp, by simp, rfl⟩, rfl⟩
  | quiet | noAutoDeclare | stats | trace =>
    obtain ⟨-, rfl⟩ := raise_eq_ok.mp h
    exact ⟨⟨by simp, by simp, rfl⟩, rfl⟩
  | help | version => cases h

theorem assign_says {o : Setting} {v : String} (h : l.assign o v = .ok l') :
    l.Says l' (if o = .entry then some v else none) false ∧ l'.pending = none := by
  cases o with
  | entry =>
    obtain ⟨hentry, v', hv, rfl⟩ := once_eq_ok.mp h
    obtain rfl : v = v' := Option.some.inj hv
    have hentry : l.entry = none := hentry
    exact ⟨⟨by simp [hentry], by simp, rfl⟩, rfl⟩
  | dump | output | function | maxSteps =>
    obtain ⟨-, v, -, rfl⟩ := once_eq_ok.mp h
    exact ⟨⟨by simp, by simp, rfl⟩, rfl⟩

theorem place_says (h : l.place g w = .ok l') :
    l.Says l' none false ∧ l'.pending = l.pending := by
  unfold place at h
  split at h
  · cases h
    exact ⟨⟨by simp, by simp, rfl⟩, rfl⟩
  · split at h
    · cases h
      exact ⟨⟨by simp, by simp, rfl⟩, rfl⟩
    · cases h
  · cases h

theorem Says.trans {l₁ l₂ l₃ : Line} (h : Says l₁ l₂ none false) (h' : Says l₂ l₃ none false) :
    Says l₁ l₃ none false :=
  ⟨by simp [h'.entry, h.entry], by simp [h'.noAutoDeclare, h.noAutoDeclare],
    h'.literal.trans h.literal⟩

/-- Letters say nothing about the lowering: neither of its options has a letter. -/
theorem letters_says {cs : List Char} (hp : l.pending = none) (h : l.letters g cs = .ok l') :
    l.Says l' none false ∧ l'.pending ≠ some .entry := by
  induction cs generalizing l with
  | nil =>
    cases h
    exact ⟨⟨by simp, by simp, rfl⟩, by simp [hp]⟩
  | cons c rest ih =>
    unfold letters at h
    cases hs : g.switches.find? (·.short? = some c) with
    | some s =>
      have hshort : s.short? = some c := by simpa using List.find?_some hs
      have hs' : s ≠ .noAutoDeclare := by
        rintro rfl
        cases hshort
      simp only [hs] at h
      obtain ⟨l₁, htake, hrest⟩ := except_bind_eq_ok.mp h
      obtain ⟨heffect, hpending⟩ := take_says htake
      obtain ⟨heffect', hp'⟩ := ih (hpending.trans hp) hrest
      exact ⟨.trans (by simpa [hs'] using heffect) heffect', hp'⟩
    | none =>
      cases ho : g.settings.find? (·.short? = some c) with
      | none => simp [hs, ho] at h
      | some o =>
        have hshort : o.short? = some c := by simpa using List.find?_some ho
        have ho' : o ≠ .entry := by
          rintro rfl
          cases hshort
        have hassign {v : String} (h : l.assign o v = .ok l') :
            l.Says l' none false ∧ l'.pending ≠ some .entry := by
          obtain ⟨heffect, hpending⟩ := assign_says h
          exact ⟨by simpa [ho'] using heffect, by simp [hpending]⟩
        simp only [hs, ho] at h
        split at h
        · cases h
          exact ⟨⟨by simp, by simp, rfl⟩, by simpa using ho'⟩
        · exact hassign h
        · exact hassign h

/-! ## What a word denotes -/

theorem valueOf_switch (s : Switch) :
    valueOf "--entry" (("--" ++ s.long) :: rest) = valueOf "--entry" rest := by
  cases s <;> simp [valueOf, attachedTo, Switch.long, List.isPrefixOf?]

theorem given_switch (s : Switch) :
    given "--no-auto-declare" (("--" ++ s.long) :: rest) =
      (s = .noAutoDeclare || given "--no-auto-declare" rest) := by
  cases s <;> simp [given, Switch.long]

theorem valueOf_setting (o : Setting) :
    valueOf "--entry" (("--" ++ o.long) :: rest) =
      if o = .entry then rest.head? else valueOf "--entry" rest := by
  cases o <;> simp [valueOf, attachedTo, Setting.long, List.isPrefixOf?]

theorem given_setting (o : Setting) :
    given "--no-auto-declare" (("--" ++ o.long) :: rest) = given "--no-auto-declare" rest := by
  cases o <;> simp [given, Setting.long]

theorem attached_ne {option name v : String} (h : '=' ∉ option.toList) :
    name ++ "=" ++ v ≠ option := by
  rintro rfl
  simp at h

theorem attachedTo_attached (o : Setting) (v : String) :
    attachedTo "--entry" ("--" ++ o.long ++ "=" ++ v) = if o = .entry then some v else none := by
  cases o with
  | entry => simp [attachedTo, Setting.long]
  | dump | output | function | maxSteps =>
    simp only [attachedTo, Setting.long, String.toList_append]
    rfl

theorem valueOf_attached (o : Setting) (v : String) :
    valueOf "--entry" (("--" ++ o.long ++ "=" ++ v) :: rest) =
      if o = .entry then some v else valueOf "--entry" rest := by
  rw [valueOf, if_neg (attached_ne (by decide)), if_neg (attached_ne (by decide)),
    attachedTo_attached]
  split <;> rfl

theorem given_attached (o : Setting) (v : String) :
    given "--no-auto-declare" (("--" ++ o.long ++ "=" ++ v) :: rest) =
      given "--no-auto-declare" rest := by
  have hdashes : "--" ++ o.long ++ "=" ++ v ≠ "--" := attached_ne (by decide)
  have hoption : "--no-auto-declare" ≠ "--" ++ o.long ++ "=" ++ v := (attached_ne (by decide)).symm
  simp [given, hdashes, hoption]

/-- A word without two dashes in front is none of the words that an option is looked for in. -/
theorem ne_of_not_long {option : String} (hoption : IsLong option) (hw : ¬ IsLong w) :
    w ≠ option := by
  rintro rfl
  exact hw hoption

theorem valueOf_of_not_long (hw : ¬ IsLong w) :
    valueOf "--entry" (w :: rest) = valueOf "--entry" rest := by
  have hattached : attachedTo "--entry" w = none := by
    refine Option.eq_none_iff_forall_ne_some.mpr fun v hv => hw ?_
    obtain ⟨cs, hcs, -⟩ := Option.map_eq_some_iff.mp hv
    rw [List.isPrefixOf?_eq_some_iff_append_eq] at hcs
    exact (show IsLong "--entry=" by decide).trans ⟨cs, hcs⟩
  rw [valueOf, if_neg (ne_of_not_long (by decide) hw), if_neg (ne_of_not_long (by decide) hw),
    hattached, Option.none_or]

theorem given_of_not_long (hw : ¬ IsLong w) :
    given "--no-auto-declare" (w :: rest) = given "--no-auto-declare" rest := by
  have hdashes : w ≠ "--" := ne_of_not_long (by decide) hw
  have hoption : "--no-auto-declare" ≠ w := (ne_of_not_long (by decide) hw).symm
  simp [given, hdashes, hoption]

/-! ## Options -/

/-- The options that a line denotes with the words that follow it. -/
def optionsWith (l : Line) (words : List String) : LowerOptions :=
  let options : LowerOptions := {}
  let entry := if l.literal then none
    else if l.pending = some .entry then words.head? else valueOf "--entry" words
  { options with
    entryName := (l.entry.or entry).getD options.entryName
    autoDeclareCallees :=
      !(l.noAutoDeclare || !l.literal && given "--no-auto-declare" words) }

/-- A word that is taken passes from the words into the line, and the options stay as they are. -/
theorem optionsWith_taken (h : Taken g l w l') :
    l.optionsWith (w :: rest) = l'.optionsWith rest := by
  cases h with
  | dashes hl hp hw h =>
    subst hw h
    simp [optionsWith, hl, hp, valueOf, given]
  | switch s hl hp hw h =>
    obtain ⟨heffect, hpending⟩ := take_says h
    simp [optionsWith, hl, hp, hpending, heffect.entry, heffect.noAutoDeclare, heffect.literal, hw,
      valueOf_switch, given_switch, Bool.or_assoc]
  | setting o hl hp hw h =>
    subst hw h
    simp [optionsWith, hl, hp, valueOf_setting, given_setting]
  | attached o v hl hp hw h =>
    obtain ⟨heffect, hpending⟩ := assign_says h
    subst hw
    by_cases ho : o = .entry <;>
      simp [optionsWith, hl, hp, hpending, heffect.entry, heffect.noAutoDeclare, heffect.literal,
        valueOf_attached, given_attached, ho]
  | letters cs hl hp hw hcs h =>
    obtain ⟨heffect, hpending⟩ := letters_says hp h
    simp [optionsWith, hl, hp, hpending, heffect.entry, heffect.noAutoDeclare, heffect.literal,
      valueOf_of_not_long hw, given_of_not_long hw]
  | value o hl hp hw h =>
    obtain ⟨heffect, hpending⟩ := assign_says h
    by_cases ho : o = .entry <;>
      simp [optionsWith, hl, hp, hpending, heffect.entry, heffect.noAutoDeclare, heffect.literal,
        valueOf_of_not_long hw.not_long, given_of_not_long hw.not_long, ho]
  | operand hw h =>
    obtain ⟨heffect, hpending⟩ := place_says h
    rcases hw with hl | ⟨hp, hw⟩
    · simp [optionsWith, hl, heffect.entry, heffect.noAutoDeclare, heffect.literal]
    · simp [optionsWith, hp, hpending, heffect.entry, heffect.noAutoDeclare, heffect.literal,
        valueOf_of_not_long hw.not_long, given_of_not_long hw.not_long]

theorem optionsWith_start : ({} : Line).optionsWith words = optionsOf words := by
  simp [optionsWith, optionsOf]

theorem scan_options (h : l.scan g words = .ok l') : l.optionsWith words = l'.optionsWith [] := by
  induction words generalizing l with
  | nil =>
    cases h
    rfl
  | cons w rest ih =>
    rw [scan, List.foldlM_cons] at h
    obtain ⟨l₁, hw, hrest⟩ := except_bind_eq_ok.mp h
    exact (optionsWith_taken (word_taken hw)).trans (ih hrest)

end Line

/-! ## Command lines -/

namespace Invocation

variable {i : Invocation} {front : Line}

theorem ofLines_eq_ok {verb : Verb} (h : ofLines front verb l = .ok i) :
    i.options = l.optionsWith [] ∧ i.task.verb = verb := by
  unfold ofLines at h
  split at h
  · rename_i hpending hfile
    cases h
    exact ⟨by simp [Line.optionsWith, hpending, valueOf, given], by cases verb <;> rfl⟩
  · cases h

theorem ofWordsAfter_eq_ok (h : ofWordsAfter front words = .ok i) :
    words.findSome? Verb.ofName? = some i.task.verb ∧
      i.options = optionsOf (behindVerb words) := by
  induction words generalizing front with
  | nil => cases h
  | cons w rest ih =>
    unfold ofWordsAfter at h
    split at h
    · cases h
    split at h
    · cases h
    split at h
    · rename_i verb hverb
      obtain ⟨l, hscan, hlines⟩ := except_bind_eq_ok.mp h
      obtain ⟨hoptions, htask⟩ := ofLines_eq_ok hlines
      have hrest : behindVerb (w :: rest) = rest := by simp [behindVerb, hverb]
      refine ⟨by simp [hverb, htask], ?_⟩
      rw [hrest, hoptions, ← Line.scan_options hscan, Line.optionsWith_start]
    · rename_i hverb
      obtain ⟨front', -, hafter⟩ := except_bind_eq_ok.mp h
      obtain ⟨htask, hoptions⟩ := ih hafter
      have hrest : behindVerb (w :: rest) = behindVerb rest := by simp [behindVerb, hverb]
      exact ⟨by simp [hverb, htask], hrest ▸ hoptions⟩

/-- The command is the first word that names one, and it is carried out with the options
    that the words behind it denote. -/
theorem ofWords_eq_ok (h : ofWords words = .ok i) :
    words.findSome? Verb.ofName? = some i.task.verb ∧
      i.options = optionsOf (behindVerb words) :=
  ofWordsAfter_eq_ok h

end Invocation

end Blockform.Command
