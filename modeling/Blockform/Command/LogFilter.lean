-- SUMMARY: Which events are written to the log, and the line that is written for one.
import Blockform.Log
import Blockform.Pattern.Meaning
import Blockform.Text.Terminal

/-!
# Log filters

A filter is written as a list of entries `origin=level`, `level` and `origin`,
separated by commas. An entry with an origin holds for the events whose origin
starts with it; of several, the longest counts. The entry without an origin is
for all other events. Behind a slash the filter may give a pattern that must
occur in a message.
-/

namespace Blockform.Command

/-- The level up to which events pass; `none` stops all. -/
abbrev Threshold := Option LogLevel

/-- Does an event of a level pass? -/
def Threshold.admits (t : Threshold) (level : LogLevel) : Bool :=
  t.any fun highest => level.rank ≤ highest.rank

/-- The threshold of a name, in which the case of letters does not matter. -/
def Threshold.ofName? (s : String) : Option Threshold :=
  let names : List (String × Threshold) :=
    [("off", none), ("error", some .error), ("warn", some .warn), ("info", some .info),
      ("debug", some .debug), ("trace", some .trace)]
  (names.find? fun (name, _) => name = s.toLower).map Prod.snd

/-- Which events pass. `entries` holds thresholds for origins, no origin twice. -/
structure LogFilter where
  fallback : Threshold
  entries : List (String × Threshold) := []
  pattern : Option Pattern := none
deriving DecidableEq

namespace LogFilter

/-! ## Filtering -/

/-- The longer of two origins that both fit; the first stays if they are equal. -/
def longer (best : Option (String × Threshold)) (e : String × Threshold) :
    Option (String × Threshold) :=
  match best with
  | some b => if b.1.length < e.1.length then some e else some b
  | none => some e

/-- The threshold for an origin. -/
def threshold (f : LogFilter) (origin : String) : Threshold :=
  let fitting := f.entries.filter fun (start, _) => start.toList.isPrefixOf origin.toList
  ((fitting.foldl longer none).map Prod.snd).getD f.fallback

/-- Does the event pass? -/
def admits (f : LogFilter) (e : Event) : Bool :=
  (f.threshold e.origin).admits e.level && f.pattern.all (·.occursIn e.message)

/-! ## Reading -/

/-- Set the threshold of an origin, or of all others. -/
def set (f : LogFilter) (origin : Option String) (t : Threshold) : LogFilter :=
  match origin with
  | none => { f with fallback := t }
  | some origin =>
    { f with entries := f.entries.filter (·.1 ≠ origin) ++ [(origin, t)] }

/-- The text without blanks at its ends. -/
def trim (cs : List Char) : List Char :=
  let trimStart (cs : List Char) : List Char := cs.dropWhile Charset.blank.contains
  (trimStart (trimStart cs).reverse).reverse

/-- The complaint about a part of a filter that is passed over. -/
def complaint (part : List Char) (reason : String) : String :=
  "warning: invalid logging spec '" ++ String.ofList part ++ "'" ++ reason ++ ", ignoring it\n"

/-- Read an entry. One that has no level admits everything. -/
def readEntry (f : LogFilter) (entry : List Char) : LogFilter × String :=
  match entry.splitOn '=' with
  | [name] =>
    match Threshold.ofName? (String.ofList name) with
    | some t => (f.set none t, "")
    | none => (f.set (some (String.ofList name)) (some .trace), "")
  | [origin, level] =>
    let level := trim level
    if level.isEmpty then (f.set (some (String.ofList origin)) (some .trace), "")
    else match Threshold.ofName? (String.ofList level) with
      | some t => (f.set (some (String.ofList origin)) t, "")
      | none => (f, complaint level "")
  | _ => (f, complaint entry "")

/-- Read entries one after the other, and gather the complaints. -/
def readEntries (f : LogFilter) : List (List Char) → LogFilter × String
  | [] => (f, "")
  | entry :: rest =>
    let (f, first) := if entry.isEmpty then (f, "") else f.readEntry entry
    let (f, others) := readEntries f rest
    (f, first ++ others)

/-- Read a pattern. One that is none leaves the filter as it is. -/
def readPattern (f : LogFilter) (text : String) : LogFilter × String :=
  match Pattern.ofText text with
  | .ok p => ({ f with pattern := some p }, "")
  | .error e => (f, "warning: invalid regex filter - " ++ e.text text ++ ", ignoring it\n")

/-- Apply a text over the filter. The text of the complaints comes with it. -/
def read (f : LogFilter) (text : String) : LogFilter × String :=
  let parts := text.toList.splitOn '/'
  let entries := ((parts.headD []).splitOn ',').map trim
  match parts.tail with
  | [] => f.readEntries entries
  | [pattern] =>
    let (f, first) := f.readEntries entries
    let (f, second) := f.readPattern (String.ofList pattern)
    (f, first ++ second)
  | _ => (f, complaint text.toList " (too many '/'s)")

/-- The filter of a run: warnings, changed by a text from the surroundings, and
    that by the level that the command line asks for. -/
def start (text : Option String) (level : Option LogLevel) : LogFilter × String :=
  let base : LogFilter := { fallback := some .warn }
  let (f, complaints) := base.read (text.getD "")
  (match level with
    | some l => f.set none (some l)
    | none => f, complaints)

end LogFilter

/-! ## Lines -/

/-- The line for an event, without terminal control sequences. Where the message
    has several lines, all but the first are indented. -/
def logLine (e : Event) : String :=
  let message := "\n    ".intercalate (e.message.splitOn "\n")
  Terminal.plainText ("[" ++ e.level.text ++ " " ++ e.origin ++ "] " ++ message ++ "\n")

/-- The lines for the events that pass. -/
def LogFilter.text (f : LogFilter) (events : List Event) : String :=
  String.join ((events.filter f.admits).map logLine)

end Blockform.Command
