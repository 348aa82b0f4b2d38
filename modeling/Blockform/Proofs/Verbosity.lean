-- SUMMARY: A flag on the command line replaces the fallback of the filter for the log, and nothing else (`perform_flagged`).
import Blockform.Proofs.Commands

/-!
# Verbosity

How much is logged is set in two places: by `quiet` and `verbose` on the command line, and
by a filter from the surroundings. What the command line says can be told from the words
alone (`levelIn`): each switch is counted, before and behind the name of the command.

A level from the command line takes the place of the filter's fallback. Where the filter
holds entries, a pattern or parts that it complains about, they stay as they are, and the
longest entry for an origin goes before the level. Hence a command with a flag writes the
same under two filters that agree beside their fallbacks (`SameBeside`), and a filter that
only names levels makes no difference at all (`IsPlain`).
-/

namespace Blockform

namespace Command

variable {g : Grammar} {l l' : Line} {s t : Switch} {w : String} {rest words : List String}

/-! ## What words denote -/

/-- The letters of settings. -/
def settingLetters : List Char := ['d', 'o', 'f']

/-- The letters of a word that stand for switches. The first letter of a setting ends them,
    as the letters behind it are its value. -/
def switchLetters (w : String) : List Char :=
  match w.toList with
  | '-' :: '-' :: _ => []
  | '-' :: cs => cs.takeWhile (· ∉ settingLetters)
  | _ => []

/-- How often a word gives the switch. -/
def Switch.timesIn (s : Switch) (w : String) : Nat :=
  if w = "--" ++ s.long then 1 else s.short?.elim 0 (switchLetters w).count

/-- How often words give the switch, up to a `--`. -/
def timesGiven (s : Switch) : List String → Nat
  | [] => 0
  | w :: rest => if w = "--" then 0 else s.timesIn w + timesGiven s rest

/-- The words before the first one that names a command. -/
def frontOf (words : List String) : List String :=
  words.takeWhile fun w => (Verb.ofName? w).isNone

/-- The level of detail that words ask for. Behind the name of the command `verbose` is
    counted afresh; `quiet` counts on either side of it. -/
def levelIn (words : List String) : Option LogLevel :=
  let front := frontOf words
  let behind := behindVerb words
  let verbose := timesGiven .verbose behind
  levelOf (if verbose = 0 then timesGiven .verbose front else verbose)
    (0 < timesGiven .quiet front + timesGiven .quiet behind)

/-! ## Counts -/

namespace Line

/-- How often the line has taken the switch. -/
def times (l : Line) : Switch → Nat
  | .verbose => l.verbose
  | .quiet => l.quiet.toNat
  | .noAutoDeclare => l.noAutoDeclare.toNat
  | .stats => l.stats.toNat
  | .trace => l.trace.toNat
  | .help | .version => 0

theorem take_times (h : l.take s = .ok l') : l'.times t = l.times t + if s = t then 1 else 0 := by
  cases s with
  | verbose =>
    cases h
    cases t <;> simp [times]
  | quiet | noAutoDeclare | stats | trace =>
    obtain ⟨hold, rfl⟩ := raise_eq_ok.mp h
    cases t <;> simp [times, hold]
  | help | version => cases h

theorem assign_times {o : Setting} {v : String} (h : l.assign o v = .ok l') :
    l'.times t = l.times t := by
  cases o <;>
  · obtain ⟨-, v, -, rfl⟩ := once_eq_ok.mp h
    cases t <;> rfl

theorem place_times (h : l.place g w = .ok l') : l'.times t = l.times t := by
  unfold place at h
  split at h
  · cases h
    cases t <;> rfl
  · split at h
    · cases h
      cases t <;> rfl
    · cases h
  · cases h

/-- The letter of a switch is no letter of a setting. -/
theorem short_not_setting {c : Char} (h : s.short? = some c) : c ∉ settingLetters := by
  cases s <;> cases h <;> decide

theorem setting_short {o : Setting} {c : Char} (h : o.short? = some c) :
    c ∈ settingLetters := by
  cases o <;> cases h <;> decide

/-- Two switches with one letter are the same. -/
theorem short_inj {c : Char} (hs : s.short? = some c) (ht : t.short? = some c) : s = t := by
  cases s <;> cases hs <;> cases t <;> first | rfl | cases ht

/-- Letters give a switch as often as its letter stands among them, before that of a setting. -/
theorem letters_times {cs : List Char} (h : l.letters g cs = .ok l') :
    l'.times t = l.times t + t.short?.elim 0 (cs.takeWhile (· ∉ settingLetters)).count := by
  induction cs generalizing l with
  | nil =>
    cases h
    cases t.short? <;> simp
  | cons c rest ih =>
    unfold letters at h
    cases hs : g.switches.find? (·.short? = some c) with
    | some s =>
      have hshort : s.short? = some c := by simpa using List.find?_some hs
      have hletter := short_not_setting hshort
      simp only [hs] at h
      obtain ⟨l₁, htake, hrest⟩ := except_bind_eq_ok.mp h
      rw [ih hrest, take_times htake, List.takeWhile_cons_of_pos (by simpa using hletter)]
      cases ht : t.short? with
      | none =>
        have hne : s ≠ t := by
          rintro rfl
          simp [ht] at hshort
        simp [hne]
      | some c' =>
        have hc : s = t ↔ c = c' := by
          refine ⟨?_, ?_⟩
          · rintro rfl
            exact Option.some.inj (hshort.symm.trans ht)
          · rintro rfl
            exact short_inj hshort ht
        simp only [Option.elim_some, List.count_cons, hc, beq_iff_eq]
        omega
    | none =>
      cases ho : g.settings.find? (·.short? = some c) with
      | none => simp [hs, ho] at h
      | some o =>
        have hshort : o.short? = some c := by simpa using List.find?_some ho
        have hletter := setting_short hshort
        have hnone : t.short?.elim 0 ((c :: rest).takeWhile (· ∉ settingLetters)).count = 0 := by
          rw [List.takeWhile_cons_of_neg (by simpa using hletter)]
          cases t.short? <;> rfl
        simp only [hs, ho] at h
        rw [hnone]
        split at h
        · cases h
          cases t <;> rfl
        · exact assign_times h
        · exact assign_times h

/-! ## What a word denotes -/

theorem switchLetters_of_long (hw : IsLong w) : switchLetters w = [] := by
  obtain ⟨cs, hcs⟩ := hw
  simp [switchLetters, ← hcs]

theorem timesIn_of_long (hw : IsLong w) : t.timesIn w = if w = "--" ++ t.long then 1 else 0 := by
  unfold Switch.timesIn
  rw [switchLetters_of_long hw]
  cases t.short? <;> rfl

theorem long_inj (h : "--" ++ s.long = "--" ++ t.long) : s = t := by
  revert h
  cases s <;> cases t <;> decide

theorem isLong_append (name : String) : IsLong ("--" ++ name) :=
  ⟨name.toList, by simp⟩

theorem timesIn_switch : t.timesIn ("--" ++ s.long) = if s = t then 1 else 0 := by
  rw [timesIn_of_long (isLong_append _)]
  by_cases h : s = t
  · simp [h]
  · rw [if_neg (fun h' => h (long_inj h')), if_neg h]

theorem timesIn_setting (o : Setting) : t.timesIn ("--" ++ o.long) = 0 := by
  rw [timesIn_of_long (isLong_append _), if_neg]
  revert t
  cases o <;> intro t <;> cases t <;> decide

theorem timesIn_attached (o : Setting) (v : String) :
    t.timesIn ("--" ++ o.long ++ "=" ++ v) = 0 := by
  have hlong : IsLong ("--" ++ o.long ++ "=" ++ v) := by
    rw [String.append_assoc, String.append_assoc]
    exact isLong_append _
  rw [timesIn_of_long hlong, if_neg (attached_ne ?_)]
  cases t <;> decide

theorem timesIn_letters {cs : List Char} (hw : ¬ IsLong w) (hcs : w.toList = '-' :: cs) :
    t.timesIn w = t.short?.elim 0 (cs.takeWhile (· ∉ settingLetters)).count := by
  have hletters : switchLetters w = cs.takeWhile (· ∉ settingLetters) := by
    unfold switchLetters
    split
    · rename_i cs' hdashes
      exact absurd ⟨cs', hdashes.symm⟩ hw
    · rename_i cs' _ hdash
      rw [hcs] at hdash
      cases hdash
      rfl
    · rename_i _ hnone
      exact absurd hcs (hnone cs)
  rw [Switch.timesIn, if_neg (ne_of_not_long (isLong_append _) hw), hletters]

/-- What looks like a number holds no letter but that of its exponent. -/
theorem numeric_of_mem {cs : List Char} {c : Char} (h : looksNumeric cs) (hc : c ∈ cs) :
    c.isDigit ∨ c ∈ ['.', 'e', 'E'] := by
  simp only [looksNumeric, Bool.and_eq_true, Bool.or_eq_true] at h
  obtain ⟨⟨⟨hmantissa, -⟩, -⟩, hexponent⟩ := h
  rw [← List.takeWhile_append_dropWhile (p := fun c => !(c = 'e' || c = 'E')) (l := cs),
    List.mem_append] at hc
  rcases hc with hc | hc
  · have hdigit := List.all_eq_true.mp hmantissa c hc
    simp only [Bool.or_eq_true, decide_eq_true_eq] at hdigit
    exact hdigit.imp_right fun h => by simp [h]
  · have hfirst := List.head?_dropWhile_not (fun c => !(c = 'e' || c = 'E')) cs
    generalize cs.dropWhile (fun c => !(c = 'e' || c = 'E')) = exponent at hc hexponent hfirst
    cases exponent with
    | nil => cases hc
    | cons e digits =>
      rcases List.mem_cons.mp hc with rfl | hc
      · have he : c = 'e' ∨ c = 'E' := by simpa [or_iff_not_imp_left] using hfirst
        exact .inr (by simp [he])
      · obtain ⟨-, hdigits⟩ := hexponent.resolve_left (by simp)
        exact .inl (List.all_eq_true.mp hdigits c hc)

theorem mem_switchLetters {c : Char} (h : c ∈ switchLetters w) :
    ∃ cs, w.toList = '-' :: cs ∧ c ∈ cs := by
  unfold switchLetters at h
  split at h
  · cases h
  · rename_i cs _ hcs
    exact ⟨cs, hcs, (List.takeWhile_sublist _).subset h⟩
  · cases h

theorem timesIn_value (hw : IsValue w) : t.timesIn w = 0 := by
  have hshort : w ≠ "--" ++ t.long := ne_of_not_long (isLong_append _) hw.not_long
  rw [Switch.timesIn, if_neg hshort]
  cases ht : t.short? with
  | none => rfl
  | some c =>
    refine List.count_eq_zero.mpr fun hc => ?_
    obtain ⟨cs, hcs, hc⟩ := mem_switchLetters hc
    have hnumeric := numeric_of_mem (hw cs hcs) hc
    revert hnumeric
    cases t <;> cases ht <;> decide

/-! ## Counts along a line -/

/-- How often the line and the words that follow it give the switch. -/
def timesWith (l : Line) (t : Switch) (words : List String) : Nat :=
  l.times t + if l.literal then 0 else timesGiven t words

/-- A word passes from the words into the line when the line takes from it what it gives. -/
theorem timesWith_cons (hl : l.literal = false) (hl' : l'.literal = false) (hw : w ≠ "--")
    (h : l'.times t = l.times t + t.timesIn w) :
    l.timesWith t (w :: rest) = l'.timesWith t rest := by
  simp [timesWith, timesGiven, hl, hl', hw, h, Nat.add_assoc]

/-- A word that is taken passes from the words into the line, and the counts stay as they are. -/
theorem timesWith_taken (h : Taken g l w l') : l.timesWith t (w :: rest) = l'.timesWith t rest := by
  have hdashes (w : String) (hw : ¬ IsLong w) : w ≠ "--" := ne_of_not_long (by decide) hw
  cases h with
  | dashes hl hp hw h =>
    subst hw h
    have htimes : times { l with literal := true } t = l.times t := by cases t <;> rfl
    simp [timesWith, hl, htimes, timesGiven]
  | switch s hl hp hw h =>
    obtain ⟨heffect, -⟩ := take_says h
    subst hw
    refine timesWith_cons hl (heffect.literal.trans hl) (by cases s <;> decide) ?_
    rw [take_times h, timesIn_switch]
  | setting o hl hp hw h =>
    subst hw h
    refine timesWith_cons hl hl (by cases o <;> decide) ?_
    rw [timesIn_setting]
    cases t <;> rfl
  | attached o v hl hp hw h =>
    obtain ⟨heffect, -⟩ := assign_says h
    subst hw
    refine timesWith_cons hl (heffect.literal.trans hl) (attached_ne (by decide)) ?_
    rw [assign_times h, timesIn_attached, Nat.add_zero]
  | letters cs hl hp hw hcs h =>
    obtain ⟨heffect, -⟩ := letters_says hp h
    refine timesWith_cons hl (heffect.literal.trans hl) (hdashes w hw) ?_
    rw [letters_times h, timesIn_letters hw hcs]
  | value o hl hp hw h =>
    obtain ⟨heffect, -⟩ := assign_says h
    refine timesWith_cons hl (heffect.literal.trans hl) (hdashes w hw.not_long) ?_
    rw [assign_times h, timesIn_value hw, Nat.add_zero]
  | operand hw h =>
    obtain ⟨heffect, -⟩ := place_says h
    have htimes : l'.times t = l.times t := place_times h
    cases hl : l.literal with
    | true => simp [timesWith, htimes, heffect.literal, hl]
    | false =>
      obtain ⟨-, hw⟩ := hw.resolve_left (by simp [hl])
      refine timesWith_cons hl (heffect.literal.trans hl) (hdashes w hw.not_long) ?_
      rw [htimes, timesIn_value hw, Nat.add_zero]

theorem scan_times (h : l.scan g words = .ok l') : l'.times t = l.timesWith t words := by
  induction words generalizing l with
  | nil =>
    cases h
    simp [timesWith, timesGiven]
  | cons w rest ih =>
    rw [scan, List.foldlM_cons] at h
    obtain ⟨l₁, hw, hrest⟩ := except_bind_eq_ok.mp h
    exact (ih hrest).trans (timesWith_taken (word_taken hw)).symm

theorem timesWith_start : ({} : Line).timesWith t words = timesGiven t words := by
  cases t <;> simp [timesWith, times]

end Line

/-! ## The level of a command line -/

namespace Invocation

variable {i : Invocation} {front : Line}

theorem ofWordsAfter_level (h : ofWordsAfter front words = .ok i) :
    i.level = levelOf
      (if timesGiven .verbose (behindVerb words) = 0 then front.timesWith .verbose (frontOf words)
        else timesGiven .verbose (behindVerb words))
      (0 < front.timesWith .quiet (frontOf words) + timesGiven .quiet (behindVerb words)) := by
  induction words generalizing front with
  | nil => cases h
  | cons w rest ih =>
    unfold ofWordsAfter at h
    split at h
    · cases h
    split at h
    · cases h
    split at h
    · rename_i verb hverb
      obtain ⟨l, hscan, hlines⟩ := except_bind_eq_ok.mp h
      have htimes (t : Switch) : l.times t = timesGiven t rest := by
        rw [Line.scan_times hscan, Line.timesWith_start]
      have hbehind : behindVerb (w :: rest) = rest := by simp [behindVerb, hverb]
      have hfront : frontOf (w :: rest) = [] := by simp [frontOf, hverb]
      rw [hbehind, hfront, ← htimes, ← htimes]
      unfold ofLines at hlines
      split at hlines
      · cases hlines
        cases hquiet : front.quiet <;> cases hquiet' : l.quiet <;>
          simp [Line.timesWith, Line.times, timesGiven, hquiet, hquiet']
      · cases hlines
    · rename_i hverb
      obtain ⟨front', hword, hafter⟩ := except_bind_eq_ok.mp h
      have hbehind : behindVerb (w :: rest) = behindVerb rest := by simp [behindVerb, hverb]
      have hfront : frontOf (w :: rest) = w :: frontOf rest := by simp [frontOf, hverb]
      have htaken := Line.word_taken hword
      rw [hbehind, hfront, Line.timesWith_taken htaken, Line.timesWith_taken htaken, ih hafter]

/-- The level of an invocation is the one that its words ask for. -/
theorem ofWords_level (h : ofWords words = .ok i) : i.level = levelIn words := by
  rw [ofWordsAfter_level h, Line.timesWith_start, Line.timesWith_start]
  rfl

end Invocation

/-! ## Entries of a filter -/

namespace LogFilter

variable {f f' : LogFilter} {origin : String} {threshold : Threshold}
  {es : List (String × Threshold)} {best : Option (String × Threshold)}

/-- The threshold of the entry for an origin, if there is one. -/
def entryFor (f : LogFilter) (origin : String) : Option Threshold :=
  let fitting := f.entries.filter fun (start, _) => start.toList.isPrefixOf origin.toList
  (fitting.foldl longer none).map Prod.snd

theorem longer_eq_some (best : Option (String × Threshold)) (e : String × Threshold) :
    ∃ b, longer best e = some b ∧ b ∈ best.toList ++ [e] ∧
      ∀ e' ∈ best.toList ++ [e], e'.1.length ≤ b.1.length := by
  cases best with
  | none => exact ⟨e, rfl, by simp⟩
  | some b =>
    by_cases hlength : b.1.length < e.1.length
    · exact ⟨e, by simp [longer, hlength], by simp [Nat.le_of_lt hlength]⟩
    · exact ⟨b, by simp [longer, hlength], by simpa using Nat.le_of_not_lt hlength⟩

/-- Of some entries the longest is picked. -/
theorem foldl_longer {e : String × Threshold} (h : es.foldl longer best = some e) :
    e ∈ best.toList ++ es ∧ ∀ e' ∈ best.toList ++ es, e'.1.length ≤ e.1.length := by
  induction es generalizing best with
  | nil =>
    obtain rfl : best = some e := h
    simp
  | cons e₁ es ih =>
    obtain ⟨b, hb, hmem, hlongest⟩ := longer_eq_some best e₁
    rw [List.foldl_cons, hb] at h
    obtain ⟨hmem', hlongest'⟩ := ih h
    have hbe : b.1.length ≤ e.1.length := hlongest' b (by simp)
    refine ⟨?_, fun e' he' => ?_⟩
    · rw [List.append_cons, List.mem_append]
      rcases List.mem_cons.mp hmem' with rfl | he
      · exact .inl hmem
      · exact .inr he
    · rw [List.append_cons, List.mem_append] at he'
      rcases he' with he' | he'
      · exact (hlongest e' he').trans hbe
      · exact hlongest' e' (List.mem_cons_of_mem b he')

theorem foldl_longer_eq_none : es.foldl longer best = none ↔ best = none ∧ es = [] := by
  induction es generalizing best with
  | nil => simp
  | cons e es ih =>
    obtain ⟨b, hb, -⟩ := longer_eq_some best e
    simp [ih, hb]

/-- The entry for an origin is the longest of those that fit it. -/
theorem entryFor_eq_some (h : f.entryFor origin = some threshold) :
    ∃ start, (start, threshold) ∈ f.entries ∧ start.toList <+: origin.toList ∧
      ∀ e ∈ f.entries, e.1.toList <+: origin.toList → e.1.length ≤ start.length := by
  obtain ⟨⟨start, t⟩, hpicked, rfl⟩ := Option.map_eq_some_iff.mp h
  obtain ⟨hmem, hlongest⟩ := foldl_longer hpicked
  obtain ⟨hentry, hfits⟩ := List.mem_filter.mp hmem
  exact ⟨start, hentry, List.isPrefixOf_iff_prefix.mp hfits, fun e he hfits' =>
    hlongest e (List.mem_filter.mpr ⟨he, List.isPrefixOf_iff_prefix.mpr hfits'⟩)⟩

/-- There is no entry for an origin exactly if none fits it. -/
theorem entryFor_eq_none :
    f.entryFor origin = none ↔ ∀ e ∈ f.entries, ¬ e.1.toList <+: origin.toList := by
  simp [entryFor, foldl_longer_eq_none, List.filter_eq_nil_iff]

/-! ## Filters with a level from the command line -/

variable {text text' : Option String} {l : LogLevel}

/-- The filter has a level from the command line for what no entry is for. -/
theorem admits_level (e : Event) : (start text (some l)).1.admits e =
    ((((start text none).1.entryFor e.origin).getD (some l)).admits e.level &&
      (start text none).1.pattern.all (·.occursIn e.message)) := rfl

/-- Two filters differ at most in their fallbacks, and in entries for origins that no event
    has. -/
structure SameBeside (text text' : Option String) : Prop where
  complaints : (start text none).2 = (start text' none).2
  entries (e : Event) :
    (start text none).1.entryFor e.origin = (start text' none).1.entryFor e.origin
  pattern : (start text none).1.pattern = (start text' none).1.pattern

theorem SameBeside.text_eq (h : SameBeside text text') (events : List Event) :
    (start text (some l)).1.text events = (start text' (some l)).1.text events := by
  have hadmits : (start text (some l)).1.admits = (start text' (some l)).1.admits := by
    funext e
    rw [admits_level, admits_level, h.entries, h.pattern]
  unfold LogFilter.text
  rw [hadmits]

/-! ## Filters that only name levels -/

/-- The filter has no pattern, and each of its entries is the name of a level. -/
def IsPlain (text : String) : Prop :=
  '/' ∉ text.toList ∧ ∀ entry ∈ (text.toList.splitOn ',').map trim,
    entry = [] ∨ (Threshold.ofName? (String.ofList entry)).isSome

instance (text : String) : Decidable (IsPlain text) := by
  unfold IsPlain
  infer_instance

theorem toLower_eq_self {s : String} (h : s.toList.map Char.toLower = s.toList) :
    s.toLower = s := by
  have hlower : s.toLower = s.map Char.toLower := rfl
  rw [← String.toList_inj, hlower, String.toList_map, h]

/-- The name of a level holds no equals sign. -/
theorem equals_not_mem {name : String} (h : (Threshold.ofName? name).isSome) :
    '=' ∉ name.toList := by
  intro hmem
  have hlower : '=' ∈ name.toLower.toList := by
    have hmap : name.toLower = name.map Char.toLower := rfl
    rw [hmap, String.toList_map]
    exact List.mem_map.mpr ⟨'=', hmem, by decide⟩
  obtain ⟨t, ht⟩ := Option.isSome_iff_exists.mp h
  obtain ⟨⟨level, t⟩, hfound, rfl⟩ := Option.map_eq_some_iff.mp ht
  have hlevel : level = name.toLower := by simpa using List.find?_some hfound
  have hlisted := List.mem_of_find?_eq_some hfound
  rw [← hlevel] at hlower
  revert hlower
  simp only [List.mem_cons, Prod.mk.injEq, List.not_mem_nil, or_false] at hlisted
  rcases hlisted with ⟨rfl, -⟩ | ⟨rfl, -⟩ | ⟨rfl, -⟩ | ⟨rfl, -⟩ | ⟨rfl, -⟩ | ⟨rfl, -⟩ <;> decide

theorem readEntry_level {name : List Char} {t : Threshold}
    (h : Threshold.ofName? (String.ofList name) = some t) :
    f.readEntry name = ({ f with fallback := t }, "") := by
  have hequals : '=' ∉ name := by simpa using equals_not_mem (Option.isSome_of_eq_some h)
  simp [readEntry, List.splitOn_eq_singleton hequals, h, set]

/-- An entry with an origin and the name of a level sets the threshold of the origin. -/
theorem readEntry_origin {origin name : List Char} {t : Threshold} (horigin : '=' ∉ origin)
    (hname : name ≠ []) (htrim : trim name = name)
    (h : Threshold.ofName? (String.ofList name) = some t) :
    f.readEntry (origin ++ '=' :: name) = (f.set (some (String.ofList origin)) t, "") := by
  have hequals : '=' ∉ name := by simpa using equals_not_mem (Option.isSome_of_eq_some h)
  have hparts : (origin ++ '=' :: name).splitOn '=' = [origin, name] := by
    rw [List.splitOn_append_cons_self, List.splitOn_eq_singleton horigin,
      List.splitOn_eq_singleton hequals]
    rfl
  simp [readEntry, hparts, htrim, hname, h]

theorem readEntries_plain {entries : List (List Char)}
    (h : ∀ entry ∈ entries, entry = [] ∨ (Threshold.ofName? (String.ofList entry)).isSome) :
    ∃ t, f.readEntries entries = ({ f with fallback := t }, "") := by
  induction entries generalizing f with
  | nil => exact ⟨f.fallback, rfl⟩
  | cons entry rest ih =>
    obtain ⟨hentry, hrest⟩ := List.forall_mem_cons.mp h
    cases entry with
    | nil =>
      obtain ⟨t, ht⟩ := ih (f := f) hrest
      exact ⟨t, by simp [readEntries, ht]⟩
    | cons c cs =>
      obtain ⟨t, ht⟩ := Option.isSome_iff_exists.mp (hentry.resolve_left (List.cons_ne_nil c cs))
      obtain ⟨t', ht'⟩ := ih (f := { f with fallback := t }) hrest
      exact ⟨t', by simp [readEntries, readEntry_level ht, ht']⟩

theorem IsPlain.sameBeside {text : String} (h : IsPlain text) : SameBeside (some text) none := by
  obtain ⟨hslash, hentries⟩ := h
  have hparts : text.toList.splitOn '/' = [text.toList] := List.splitOn_eq_singleton hslash
  obtain ⟨t, ht⟩ := readEntries_plain (f := { fallback := some .warn }) hentries
  have hstart : start (some text) none = ({ fallback := t }, "") := by
    simp [start, read, hparts, ht]
  have hnone : start none none = ({ fallback := some .warn }, "") := by decide +kernel
  refine ⟨?_, fun e => ?_, ?_⟩ <;> rw [hstart, hnone]
  rfl

end LogFilter

/-! ## Events and their lines -/

/-- No event is an error: with that threshold none passes. -/
theorem Threshold.admits_error (e : Event) : Threshold.admits (some .error) e.level = false := by
  cases e <;> rfl

/-- The line for an event shows at least its first bracket. -/
theorem logLine_ne_empty (e : Event) : logLine e ≠ "" := by
  have hbracket (cs : List Char) :
      Terminal.shown .ground false ('[' :: cs) = '[' :: Terminal.shown .ground true cs := rfl
  rw [logLine, Terminal.plainText, Ne, String.ofList_eq_empty_iff]
  simp [String.toList_append, hbracket]

/-! ## Commands -/

section
variable {σ : Type} {fs : Files σ} {files : σ} {text text' : Option String} {f f' : LogFilter}
  {level : LogLevel} {i : Invocation} {tree : Node} {p : Program} {noted : String}

theorem Response.perform_text (r : Response) :
    r.perform (fs.surroundings text) files = r.perform (fs.surroundings text') files := by
  cases r <;> rfl

/-- A filter takes part in a command with the lines that it lets through, and in no other way. -/
theorem carryOut_congr (h : ∀ events, f.text events = f'.text events) :
    i.carryOut f noted tree p = i.carryOut f' noted tree p := by
  unfold Invocation.carryOut build call
  simp only [h]

theorem logged_congr (h : LogFilter.SameBeside text text') (hlevel : i.level = some level)
    (events : Array Event) : i.logged text events = i.logged text' events := by
  simp only [Invocation.logged, hlevel]
  rw [h.text_eq]
  exact congrArg (· ++ _) h.complaints

theorem respond_congr (h : LogFilter.SameBeside text text') (hlevel : i.level = some level)
    (content : Except FileError String) : i.respond text content = i.respond text' content := by
  rw [Invocation.respond_eq, Invocation.respond_eq]
  have hfilter : ∀ events, (LogFilter.start text i.level).1.text events =
      (LogFilter.start text' i.level).1.text events := by
    rw [hlevel]
    exact h.text_eq
  simp only [logged_congr h hlevel, carryOut_congr hfilter]

theorem perform_congr (h : LogFilter.SameBeside text text') (hlevel : levelIn words = some level) :
    perform (fs.surroundings text) words files = perform (fs.surroundings text') words files := by
  cases hwords : Invocation.ofWords words with
  | error halt => simp only [perform, hwords]
  | ok i =>
    rw [perform_eq hwords, perform_eq hwords,
      respond_congr h ((Invocation.ofWords_level hwords).trans hlevel)]
    exact Response.perform_text _

end

/-- Where the words of a command line ask for a level, it replaces the fallback of the filter
    for the log: an event passes by the longest entry for its origin, and by the level if there
    is none. So two filters that agree beside their fallbacks lead to the same outputs, exit
    status and files. A filter that only names levels is as good as none. Under `quiet` no line
    is logged, unless an entry of the filter fits the origin of some event. -/
theorem perform_flagged {σ : Type} {words : List String} {level : LogLevel}
    (h : levelIn words = some level) (fs : Files σ) (files : σ) :
    (∀ text text', LogFilter.SameBeside text text' →
      perform (fs.surroundings text) words files = perform (fs.surroundings text') words files) ∧
    (∀ text, LogFilter.IsPlain text →
      perform (fs.surroundings (some text)) words files =
        perform (fs.surroundings none) words files) ∧
    ∀ i, Invocation.ofWords words = .ok i → ∀ text,
      let own := (LogFilter.start text none).1
      let used := (LogFilter.start text i.level).1
      (∀ e : Event, used.admits e =
        (((own.entryFor e.origin).getD (some level)).admits e.level &&
          own.pattern.all (·.occursIn e.message))) ∧
      (level = .error →
        (∀ e : Event, ∀ entry ∈ own.entries, ¬ entry.1.toList <+: e.origin.toList) →
        ∀ events, used.text events = "") := by
  refine ⟨fun text text' hsame => perform_congr hsame h,
    fun text hplain => perform_congr hplain.sameBeside h, fun i hwords text => ?_⟩
  have hlevel : i.level = some level := (Invocation.ofWords_level hwords).trans h
  have hadmits (e : Event) : (LogFilter.start text i.level).1.admits e =
      ((((LogFilter.start text none).1.entryFor e.origin).getD (some level)).admits e.level &&
        (LogFilter.start text none).1.pattern.all (·.occursIn e.message)) := by
    rw [hlevel]
    exact LogFilter.admits_level e
  refine ⟨hadmits, ?_⟩
  rintro rfl hnone events
  have hstopped : events.filter (LogFilter.start text i.level).1.admits = [] :=
    List.filter_eq_nil_iff.mpr fun e _ => by
      have hfallback : (LogFilter.start text none).1.entryFor e.origin = none :=
        LogFilter.entryFor_eq_none.mpr (hnone e)
      rw [hadmits, hfallback, Option.getD_none, Threshold.admits_error, Bool.false_and]
      exact Bool.false_ne_true
  unfold LogFilter.text
  rw [hstopped]
  rfl

/-- A filter that names two levels, with blanks and an empty entry. -/
def levelsText : String := " debug,, off"

/-- Two levels in the filter are passed over for `quiet`, which stands behind the name of the
    command. -/
theorem quiet_over_levels :
    levelIn ["-v", "check", "t.json", "--quiet"] = some .error ∧
      LogFilter.IsPlain levelsText ∧
      ∀ files, perform (listedFiles.surroundings (some levelsText))
          ["-v", "check", "t.json", "--quiet"] files =
        perform (listedFiles.surroundings none) ["-v", "check", "t.json", "--quiet"] files := by
  have hlevel : levelIn ["-v", "check", "t.json", "--quiet"] = some .error := by decide +kernel
  have hentries : (levelsText.toList.splitOn ',').map LogFilter.trim =
      ["debug".toList, [], "off".toList] := by decide +kernel
  have hdebug : (Threshold.ofName? "debug").isSome := by
    rw [Threshold.ofName?, LogFilter.toLower_eq_self (by decide)]
    rfl
  have hoff : (Threshold.ofName? "off").isSome := by
    rw [Threshold.ofName?, LogFilter.toLower_eq_self (by decide)]
    rfl
  have hplain : LogFilter.IsPlain levelsText := by
    refine ⟨by decide +kernel, ?_⟩
    rw [hentries]
    simp [hdebug, hoff]
  exact ⟨hlevel, hplain, fun files =>
    (perform_flagged hlevel listedFiles files).2.1 levelsText hplain⟩

/-- A quiet check. -/
def checkWords : List String := ["check", "t.json", "-q"]

/-- What these words ask for. -/
def checkInvocation : Invocation where
  file := "t.json"
  options := {}
  level := some .error
  task := .check

/-- A file that holds a module without statements. -/
def emptyModule : List (String × String) :=
  [("t.json", "\x7b\"kind\":\x7b\"Module\":\x7b\"body\":[]\x7d\x7d\x7d")]

/-- A filter with an entry for the reader of trees. -/
def readerText : String := "pyll_core::ast=debug"

theorem start_readerText (l : LogLevel) : LogFilter.start (some readerText) (some l) =
    ({ fallback := some l, entries := [("pyll_core::ast", some .debug)] }, "") := by
  have hdebug : Threshold.ofName? "debug" = some (some .debug) := by
    rw [Threshold.ofName?, LogFilter.toLower_eq_self (by decide)]
    rfl
  have horigin : '=' ∉ "pyll_core::ast".toList := by decide
  have hentry (f : LogFilter) : f.readEntry readerText.toList =
      (f.set (some "pyll_core::ast") (some .debug), "") :=
    LogFilter.readEntry_origin horigin (by decide) (by decide +kernel) hdebug
  have hparts : readerText.toList.splitOn '/' = [readerText.toList] := by decide +kernel
  have hentries : (readerText.toList.splitOn ',').map LogFilter.trim = [readerText.toList] := by
    decide +kernel
  simp only [LogFilter.start, Option.getD_some, LogFilter.read, hparts, List.headD_cons, hentries,
    List.tail_cons, LogFilter.readEntries, hentry]
  rfl

/-- Under `quiet` a filter with an entry for the reader of trees lets a line through, which
    without the filter is not logged. -/
theorem quiet_under_entry :
    levelIn checkWords = some .error ∧
      (perform (listedFiles.surroundings (some readerText)) checkWords
        emptyModule).1.stderr = logLine (.treeDecoded "Module" "t.json") ∧
      logLine (.treeDecoded "Module" "t.json") ≠ "" ∧
      (perform (listedFiles.surroundings none) checkWords emptyModule).1.stderr = "" := by
  have hwords : Invocation.ofWords checkWords = .ok checkInvocation := by decide +kernel
  let compiled := compileFile "t.json" (listedFiles.read emptyModule "t.json") {}
  obtain ⟨prepared, hprepared⟩ : ∃ prepared, compiled.1 = .ok prepared := by
    have hok : compiled.1.isOk := by decide +kernel
    cases h : compiled.1 with
    | error e => simp [h, Except.isOk, Except.toBool] at hok
    | ok prepared => exact ⟨prepared, rfl⟩
  -- What a check writes to the error output is its log.
  have hstderr (text : Option String) :
      (perform (listedFiles.surroundings text) checkWords emptyModule).1.stderr =
        checkInvocation.logged text compiled.2 := by
    rw [perform_of_compiled hwords hprepared, carryOut_check rfl]
    rfl
  have hlevel : checkInvocation.level = some .error := rfl
  have hnone : LogFilter.start none (some .error) = ({ fallback := some .error }, "") := by
    decide +kernel
  have hpassed : compiled.2.toList.filter
      (LogFilter.admits { fallback := some .error, entries := [("pyll_core::ast", some .debug)] }) =
        [.treeDecoded "Module" "t.json"] := by decide +kernel
  have hstopped : compiled.2.toList.filter (LogFilter.admits { fallback := some .error }) = [] := by
    decide +kernel
  refine ⟨by decide +kernel, ?_, logLine_ne_empty _, ?_⟩
  · rw [hstderr, Invocation.logged, hlevel, start_readerText]
    simp [LogFilter.text, hpassed]
  · rw [hstderr, Invocation.logged, hlevel, hnone]
    simp [LogFilter.text, hstopped]

end Command

end Blockform
