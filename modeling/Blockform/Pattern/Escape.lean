-- SUMMARY: Reading what a backslash introduces in a pattern (`Scan.escape`).
import Blockform.Pattern.Cursor

/-!
# Escapes

A backslash takes the meaning from a sign, or gives one to a letter: a control
character, a code, a class of characters, a place. A letter without such a
meaning is refused, so that it is free to get one.
-/

namespace Blockform.Pattern

/-- Is the character a sign with a meaning somewhere in a pattern? -/
def isSign (c : Char) : Bool := "\\.+*?()|[]\x7b\x7d^$#&-~".toList.contains c

/-- Does a backslash before the character leave it as it is? Of ASCII, letters,
    digits and angle brackets are set aside. -/
def isEscapable (c : Char) : Bool :=
  isSign c || (c.toNat < 0x80 && !c.isAlphanum && c ≠ '<' && c ≠ '>')

/-- Is the character a hexadecimal digit? -/
def isHex (c : Char) : Bool := c.isDigit || ('a' ≤ c && c ≤ 'f') || ('A' ≤ c && c ≤ 'F')

/-- The value of a hexadecimal digit. -/
def hexValue (c : Char) : Nat :=
  if c.isDigit then c.toNat - 0x30
  else if 'a' ≤ c then c.toNat - 0x61 + 10
  else c.toNat - 0x41 + 10

/-- The character with a code in hexadecimal digits. -/
def hexChar? (digits : List Char) : Option Char :=
  let code := digits.foldl (fun n c => 16 * n + hexValue c) 0
  if code.isValidChar then some (Char.ofNat code) else none

/-- What stands before and behind the first occurrence of a text. -/
def splitFirst? (mark before : List Char) : List Char → Option (List Char × List Char)
  | [] => none
  | c :: cs =>
    if mark.isPrefixOf (c :: cs) then some (before.reverse, (c :: cs).drop mark.length)
    else splitFirst? mark (c :: before) cs

/-- The property of a text: a name, or a name and a value with a sign between. -/
def Property.ofText (text : List Char) : Property :=
  let split := [['!', '='], [':'], ['=']].findSome? (splitFirst? · [] text)
  match split with
  | some (name, value) => ⟨String.ofList name, some (String.ofList value)⟩
  | none => ⟨String.ofList text, none⟩

namespace Scan

/-! ## Codes -/

/-- Read a number of hexadecimal digits. -/
def hexDigits : Nat → Scan (List Char)
  | 0 => return []
  | n + 1 => do
    match ← peek? with
    | none => failHere .escapeUnfinished
    | some c =>
      if isHex c then
        let _ ← next?
        return c :: (← hexDigits n)
      else failNext .escapeHexInvalidDigit

/-- Read hexadecimal digits up to a closing brace. -/
def bracedHexDigits (brace : Nat) : Nat → Scan (List Char)
  | 0 => failFrom .escapeUnfinished brace
  | fuel + 1 => do
    match ← next? with
    | none => failFrom .escapeUnfinished brace
    | some '\x7d' => return []
    | some c =>
      if isHex c then return c :: (← bracedHexDigits brace fuel)
      else failNext .escapeHexInvalidDigit

/-- Read a code from the letter on that says how many digits it has without
    braces. -/
def code (start digits : Nat) : Scan Literal := do
  match ← next? with
  | none => failHere .escapeUnfinished
  | some '\x7b' =>
    let brace ← here
    let ds ← bracedHexDigits brace (← steps)
    let stop ← here
    let _ ← next?
    if ds.isEmpty then failFrom .escapeHexEmpty brace
    else match hexChar? ds with
      | some char => return { char, place := ⟨start, ← here⟩ }
      | none => fail .escapeHexInvalid ⟨brace + 1, stop⟩
  | some _ =>
    let first ← here
    let ds ← hexDigits digits
    match hexChar? ds with
    | some char => return { char, place := ⟨start, ← here⟩, isByte := digits = 2 }
    | none => failFrom .escapeHexInvalid first

/-! ## Classes and places -/

/-- Read the name of a property up to a closing brace. -/
def propertyText : Nat → Scan (List Char)
  | 0 => failHere .escapeUnfinished
  | fuel + 1 => do
    match ← next? with
    | none => failHere .escapeUnfinished
    | some '\x7d' =>
      bump
      return []
    | some c => return c :: (← propertyText fuel)

/-- Read a property from its letter on. -/
def property (start : Nat) : Scan Term := do
  match ← next? with
  | none => failHere .escapeUnfinished
  | some '\x7b' =>
    let text ← propertyText (← steps)
    return .property (Property.ofText text) ⟨start, ← here⟩
  | some '\\' => failNext .propertyInvalid
  | some c =>
    let _ ← next?
    return .property ⟨c.toString, none⟩ ⟨start, ← here⟩

/-- Read letters and dashes. -/
def borderName : Nat → Scan (List Char)
  | 0 => return []
  | fuel + 1 => do
    match ← peek? with
    | some c =>
      if c.isAlpha || c = '-' then
        let _ ← next?
        return c :: (← borderName fuel)
      else return []
    | none => return []

/-- Read the kind of a border in braces. What does not start like one is left to
    be read as a count. -/
def borderKind (start : Nat) : Scan Assertion := do
  let back ← get
  let brace ← here
  match ← next? with
  | none => failFrom .wordBorderUnfinished start
  | some c =>
    if !(c.isAlpha || c = '-') then
      set back
      return .wordBorder
    else
      let first ← here
      let name ← borderName (← steps)
      if (← peek?) ≠ some '\x7d' then failFrom .wordBorderUnclosed brace
      else
        let stop ← here
        bump
        match String.ofList name with
        | "start" => return .wordStart
        | "end" => return .wordEnd
        | "start-half" => return .wordStartHalf
        | "end-half" => return .wordEndHalf
        | _ => fail .wordBorderUnrecognized ⟨first, stop⟩

/-! ## Escapes -/

/-- Read a letter or sign that is one character long, behind its backslash. -/
def shortEscape (start : Nat) (c : Char) : Scan Term := do
  bump
  let place : Stretch := ⟨start, ← here⟩
  let literal (char : Char) : Scan Term := return .literal { char, place }
  let assertion (kind : Assertion) : Scan Term := return .assertion kind place
  if isEscapable c then literal c
  else match c with
    | 'a' => literal '\x07'
    | 'f' => literal '\x0c'
    | 't' => literal '\t'
    | 'n' => literal '\n'
    | 'r' => literal '\r'
    | 'v' => literal '\x0b'
    | 'A' => assertion .textStart
    | 'z' => assertion .textEnd
    | 'B' => assertion .noWordBorder
    | '<' => assertion .wordStart
    | '>' => assertion .wordEnd
    | 'b' =>
      if (← peek?) = some '\x7b' then
        let kind ← borderKind start
        return .assertion kind ⟨start, ← here⟩
      else assertion .wordBorder
    | _ => fail .escapeUnrecognized place

/-- Read a class that is one letter long, behind its backslash. -/
def shorthand (start : Nat) (kind : Shorthand) (negated : Bool) : Scan Term := do
  bump
  return .shorthand kind negated ⟨start, ← here⟩

/-- Read an escape from its backslash on. -/
def escape : Scan Term := do
  let start ← here
  bump
  match ← peek? with
  | none => failFrom .escapeUnfinished start
  | some c =>
    if c.isDigit then fail .backreference ⟨start, (← here) + 1⟩
    else match c with
      | 'x' => return .literal (← code start 2)
      | 'u' => return .literal (← code start 4)
      | 'U' => return .literal (← code start 8)
      | 'p' | 'P' => property start
      | 'd' => shorthand start .digit false
      | 'D' => shorthand start .digit true
      | 's' => shorthand start .space false
      | 'S' => shorthand start .space true
      | 'w' => shorthand start .word false
      | 'W' => shorthand start .word true
      | c => shortEscape start c

end Scan

end Blockform.Pattern
