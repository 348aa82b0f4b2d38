-- SUMMARY: A place in a pattern that is being read (`Cursor`), and the steps of reading (`Scan`).
import Blockform.Pattern.Error
import Blockform.Text.Charset

/-!
# Reading a pattern

A pattern may be verbose: blanks in it then count for nothing, nor does a remark
from a `#` to the end of its line. Some steps move over them and others do not,
so a blank is allowed between `\` and `x41` but not after the `?` of a group.
-/

namespace Blockform.Pattern

/-- The characters still to be read, and where the first of them is. `names` are
    the names of groups so far, and where they stand. -/
structure Cursor where
  rest : List Char
  place : Nat := 0
  isVerbose : Bool := false
  names : List (String × Stretch) := []

/-- How many characters at the start of a text are blanks and remarks. -/
def blankCount (isRemark : Bool) : List Char → Nat
  | [] => 0
  | c :: cs =>
    if isRemark then 1 + blankCount (c ≠ '\n') cs
    else if Charset.blank.contains c then 1 + blankCount false cs
    else if c = '#' then 1 + blankCount true cs
    else 0

/-- The first character of a text that is neither blank nor its first `#`. -/
def firstSolid (sawHash : Bool) : List Char → Option Char
  | [] => none
  | c :: cs =>
    if Charset.blank.contains c then firstSolid sawHash cs
    else if !sawHash && c = '#' then firstSolid true cs
    else some c

namespace Cursor

/-- Move over some characters. -/
def skip (c : Cursor) (n : Nat) : Cursor :=
  { c with rest := c.rest.drop n, place := c.place + (c.rest.take n).length }

/-- Move over blanks and remarks, if the pattern is verbose. -/
def skipBlanks (c : Cursor) : Cursor :=
  if c.isVerbose then c.skip (blankCount false c.rest) else c

/-- The character behind the next one. In a verbose pattern it is looked for
    behind blanks, and behind the `#` of a remark, but inside the remark. -/
def second? (c : Cursor) : Option Char :=
  let behind := c.rest.drop 1
  if c.isVerbose then (firstSolid false behind).or behind.head? else behind.head?

end Cursor

/-- Reading a part of a pattern. -/
abbrev Scan := EStateM Error Cursor

namespace Scan

/-- The next character. -/
def peek? : Scan (Option Char) := return (← get).rest.head?

/-- Where the next character is. -/
def here : Scan Nat := return (← get).place

/-- A number of steps that no loop over the rest of the pattern exceeds. -/
def steps : Scan Nat := return (← get).rest.length + 1

/-- Move over the next character. -/
def bump : Scan Unit := modify (·.skip 1)

/-- Move over blanks and remarks, if the pattern is verbose. -/
def skipBlanks : Scan Unit := modify Cursor.skipBlanks

/-- Move over blanks, also if the pattern is not verbose. -/
def dropBlanks : Scan Unit :=
  modify fun c => c.skip (c.rest.takeWhile Charset.blank.contains).length

/-- Move over the next character and the blanks behind it; what comes then? -/
def next? : Scan (Option Char) := do
  bump
  skipBlanks
  peek?

/-- Move over a text if it comes next. -/
def bumpIf (text : String) : Scan Bool := do
  let c ← get
  if text.toList.isPrefixOf c.rest then
    set (c.skip text.length)
    return true
  else return false

/-- Move over the first of some texts that comes next. -/
def bumpAny : List String → Scan Bool
  | [] => return false
  | text :: texts => do
    if ← bumpIf text then return true else bumpAny texts

/-- Blame a stretch of the pattern. -/
def fail (fault : Fault) (place : Stretch) : Scan α := throw (.faulty fault place none)

/-- Blame what has been read from a place on. -/
def failFrom (fault : Fault) (start : Nat) : Scan α := do fail fault ⟨start, ← here⟩

/-- Blame the place itself. -/
def failHere (fault : Fault) : Scan α := do fail fault ⟨← here, ← here⟩

/-- Blame the next character. -/
def failNext (fault : Fault) : Scan α := do fail fault ⟨← here, (← here) + 1⟩

/-- Take an answer or raise its error. -/
def ofExcept : Except Error α → Scan α
  | .ok a => return a
  | .error e => throw e

end Scan

end Blockform.Pattern
