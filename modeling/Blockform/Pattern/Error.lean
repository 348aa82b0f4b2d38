-- SUMMARY: Why a text is no pattern (`Fault`, `Error`), and the report that underlines the part at fault (`Error.text`).
import Blockform.Pattern.Syntax

/-!
# Errors of patterns

A fault is reported below the pattern, with the part at fault underlined. A
pattern of several lines is shown with their numbers; a part that runs over
several lines is not underlined but named by its ends.
-/

namespace Blockform.Pattern

/-! ## Faults -/

/-- How many terms may lie inside each other. -/
def maxDepth : Nat := 250

/-- How many bytes the tables of a matcher may take. -/
def maxSize : Nat := 10485760

/-- What is wrong with a part of a pattern. -/
inductive Fault where
  | classEscapeInvalid
  | classRangeInvalid
  | classRangeLiteral
  | classUnclosed
  | decimalInvalid
  | escapeHexEmpty
  | escapeHexInvalid
  | escapeHexInvalidDigit
  | escapeUnfinished
  | escapeUnrecognized
  | flagDanglingNegation
  | flagDuplicate
  | flagRepeatedNegation
  | flagMissing
  | flagUnrecognized
  | groupNameDuplicate
  | groupNameEmpty
  | groupNameInvalid
  | groupNameUnclosed
  | groupUnclosed
  | groupUnopened
  | tooDeep
  | repetitionCountInvalid
  | repetitionCountEmpty
  | repetitionCountUnclosed
  | repetitionMissing
  | wordBorderUnclosed
  | wordBorderUnrecognized
  | wordBorderUnfinished
  | propertyInvalid
  | backreference
  | lookAround
  /-- Characters outside ASCII where only bytes are read. -/
  | unicodeNotAllowed
  /-- A find could start or end inside a character. -/
  | invalidUtf8
  | propertyNotFound
  | propertyValueNotFound
  | shorthandNotFound
  | caseUnavailable
deriving DecidableEq

/-- The wording of a fault. -/
def Fault.message : Fault → String
  | .classEscapeInvalid => "invalid escape sequence found in character class"
  | .classRangeInvalid => "invalid character class range, the start must be <= the end"
  | .classRangeLiteral => "invalid range boundary, must be a literal"
  | .classUnclosed => "unclosed character class"
  | .decimalInvalid => "decimal literal invalid"
  | .escapeHexEmpty => "hexadecimal literal empty"
  | .escapeHexInvalid => "hexadecimal literal is not a Unicode scalar value"
  | .escapeHexInvalidDigit => "invalid hexadecimal digit"
  | .escapeUnfinished => "incomplete escape sequence, reached end of pattern prematurely"
  | .escapeUnrecognized => "unrecognized escape sequence"
  | .flagDanglingNegation => "dangling flag negation operator"
  | .flagDuplicate => "duplicate flag"
  | .flagRepeatedNegation => "flag negation operator repeated"
  | .flagMissing => "expected flag but got end of regex"
  | .flagUnrecognized => "unrecognized flag"
  | .groupNameDuplicate => "duplicate capture group name"
  | .groupNameEmpty => "empty capture group name"
  | .groupNameInvalid => "invalid capture group character"
  | .groupNameUnclosed => "unclosed capture group name"
  | .groupUnclosed => "unclosed group"
  | .groupUnopened => "unopened group"
  | .tooDeep =>
    "exceed the maximum number of nested parentheses/brackets (" ++ toString maxDepth ++ ")"
  | .repetitionCountInvalid =>
    "invalid repetition count range, the start must be <= the end"
  | .repetitionCountEmpty => "repetition quantifier expects a valid decimal"
  | .repetitionCountUnclosed => "unclosed counted repetition"
  | .repetitionMissing => "repetition operator missing expression"
  | .wordBorderUnclosed =>
    "special word boundary assertion is either unclosed or contains an invalid character"
  | .wordBorderUnrecognized =>
    "unrecognized special word boundary assertion, valid choices are: " ++
      "start, end, start-half or end-half"
  | .wordBorderUnfinished =>
    "found either the beginning of a special word boundary or a bounded repetition " ++
      "on a \\b with an opening brace, but no closing brace"
  | .propertyInvalid => "invalid Unicode character class"
  | .backreference => "backreferences are not supported"
  | .lookAround => "look-around, including look-ahead and look-behind, is not supported"
  | .unicodeNotAllowed => "Unicode not allowed here"
  | .invalidUtf8 => "pattern can match invalid UTF-8"
  | .propertyNotFound => "Unicode property not found"
  | .propertyValueNotFound => "Unicode property value not found"
  | .shorthandNotFound =>
    "Unicode-aware Perl class not found (make sure the unicode-perl feature is enabled)"
  | .caseUnavailable =>
    "Unicode-aware case insensitivity matching is not available " ++
      "(make sure the unicode-case feature is enabled)"

/-- Why a text is no pattern. -/
inductive Error where
  /-- A part is at fault. `other` is an earlier part that it clashes with. -/
  | faulty (fault : Fault) (place : Stretch) (other : Option Stretch)
  /-- The pattern asks for borders of words outside ASCII. -/
  | noWordBorders
  /-- The tables of the matcher would be too large. -/
  | tooLarge
deriving DecidableEq

/-! ## Places -/

/-- A line, and the characters before the place on that line, both from 0. -/
structure Point where
  line : Nat
  column : Nat
deriving DecidableEq

/-- Where a pattern is after some of its characters. -/
def pointAt (pattern : List Char) (offset : Nat) : Point :=
  let before := pattern.take offset
  ⟨before.count '\n', (before.reverse.takeWhile (· ≠ '\n')).length⟩

/-- A line without the carriage return that belongs to its line break. -/
def dropReturn (line : List Char) : List Char :=
  if line.getLast? = some '\r' then line.dropLast else line

/-- The lines of a pattern. Nothing behind the last line break is no line. -/
def lines (pattern : List Char) : List (List Char) :=
  let pieces := pattern.splitOn '\n'
  let last := pieces.getLastD []
  pieces.dropLast.map dropReturn ++ (if last.isEmpty then [] else [last])

/-- The stretches in the order of their starts. -/
def inOrder (first : Stretch) : Option Stretch → List Stretch
  | none => [first]
  | some second =>
    if second.start < first.start || (second.start = first.start && second.stop < first.stop) then
      [second, first]
    else [first, second]

/-! ## Report -/

/-- A character some times over. -/
def row (c : Char) (n : Nat) : String := String.ofList (List.replicate n c)

/-- Marks below the columns of a line, each at least one wide. -/
def underline (column : Nat) : List (Nat × Nat) → String
  | [] => ""
  | (start, stop) :: rest =>
    let gap := start - column
    let width := max 1 (stop - start)
    row ' ' gap ++ row '^' width ++ underline (column + gap + width) rest

/-- A text set to the right of a field. -/
def flushRight (width : Nat) (text : String) : String := row ' ' (width - text.length) ++ text

/-- The lines of a pattern with marks below them. Lines are numbered if `width`,
    the columns of a number, is not 0. -/
def notated (pattern : List Char) (width : Nat) (marks : List (Point × Point)) : String :=
  let margin := if width = 0 then 4 else width + 2
  let line : List Char × Nat → String := fun (line, i) =>
    let head := if width = 0 then row ' ' 4 else flushRight width (toString (i + 1)) ++ ": "
    let here := marks.filterMap fun (a, b) =>
      if a.line = i then some (a.column, b.column) else none
    head ++ String.ofList line ++ "\n" ++
      (if here.isEmpty then "" else row ' ' margin ++ underline 0 here ++ "\n")
  String.join ((lines pattern).zipIdx.map line)

/-- The ends of a part that runs over several lines. -/
def endsText (a b : Point) : String :=
  "on line " ++ toString (a.line + 1) ++ " (column " ++ toString (a.column + 1) ++
    ") through line " ++ toString (b.line + 1) ++ " (column " ++ toString b.column ++ ")"

/-- The report of a fault. -/
def faultText (pattern : List Char) (fault : Fault) (place : Stretch) (other : Option Stretch) :
    String :=
  let ends := (inOrder place other).map fun s => (pointAt pattern s.start, pointAt pattern s.stop)
  let (short, long) := ends.partition fun (a, b) => a.line = b.line
  let count := pattern.count '\n' + 1
  if count = 1 then
    "regex parse error:\n" ++ notated pattern 0 short ++ "error: " ++ fault.message
  else
    let width := (toString count).length
    let divider := row '~' 79 ++ "\n"
    let notes := if long.isEmpty then ""
      else "\n".intercalate (long.map fun (a, b) => endsText a b) ++ "\n"
    "regex parse error:\n" ++ divider ++ notated pattern width short ++ divider ++ notes ++
      "error: " ++ fault.message

/-- The report of an error. -/
def Error.text (pattern : String) : Error → String
  | .faulty fault place other => faultText pattern.toList fault place other
  | .noWordBorders => "error building NFA"
  | .tooLarge => "Compiled regex exceeds size limit of " ++ toString maxSize ++ " bytes."

end Blockform.Pattern
