-- SUMMARY: A place in a text being read (`Cursor`), and the failures of reading (`Failure`) with the place they are blamed on.
/-!
# Cursors

A reader walks over the characters of a text. Places are told in lines and
columns; a column counts the bytes since the last line break, so a character
outside ASCII is worth several columns.

A failure is blamed on one of two places. `Cursor.here` lies behind what has
been consumed. `Cursor.peeked` lies one byte further: behind a byte that was
looked at and refused.
-/

namespace Blockform.Reader

/-! ## Places -/

/-- A line, from 1, and the number of bytes before the place on that line. -/
structure Place where
  line : Nat
  column : Nat
deriving DecidableEq, Inhabited

namespace Place

/-- The place behind one more byte, which is no line break. -/
def nextByte (p : Place) : Place := { p with column := p.column + 1 }

/-- The place behind a character. -/
def after (p : Place) (c : Char) : Place :=
  if c = '\n' then ⟨p.line + 1, 0⟩ else { p with column := p.column + c.utf8Size }

/-- The place behind all of a text. -/
def afterAll (p : Place) (cs : List Char) : Place := cs.foldl after p

/-- The place behind the first bytes of a text, which may end inside a
    character. -/
def afterBytes (p : Place) : List Char → Nat → Place
  | [], _ => p
  | c :: cs, n =>
    if n = 0 then p
    else if c.utf8Size ≤ n then (p.after c).afterBytes cs (n - c.utf8Size)
    else { p with column := p.column + n }

end Place

/-! ## Cursors -/

/-- The characters still to be read, and where the first of them is. -/
structure Cursor where
  rest : List Char
  place : Place
deriving Inhabited

namespace Cursor

/-- The start of a text. -/
def start (text : String) : Cursor := ⟨text.toList, ⟨1, 0⟩⟩

/-- The place behind what has been consumed. -/
def here (c : Cursor) : Place := c.place

/-- The place behind the byte that comes next; the end of the text if there is
    none. -/
def peeked (c : Cursor) : Place :=
  match c.rest with
  | [] => c.place
  | '\n' :: _ => c.place.after '\n'
  | _ => c.place.nextByte

/-- Move behind the next character. -/
def bump (c : Cursor) : Cursor :=
  match c.rest with
  | [] => c
  | x :: xs => ⟨xs, c.place.after x⟩

/-- Is the character blank between the values of a JSON text? -/
def isBlank (c : Char) : Bool := c = ' ' || c = '\n' || c = '\t' || c = '\r'

/-- Move over blanks. -/
def skipBlanks (c : Cursor) : Cursor := go c.rest c.place
where
  go : List Char → Place → Cursor
    | [], p => ⟨[], p⟩
    | x :: xs, p => if isBlank x then go xs (p.after x) else ⟨x :: xs, p⟩

/-- The decimal digits that come next, and the cursor behind them. -/
def digits (c : Cursor) : List Char × Cursor :=
  let ds := c.rest.takeWhile Char.isDigit
  (ds, ⟨c.rest.dropWhile Char.isDigit, { c.place with column := c.place.column + ds.length }⟩)

end Cursor

/-! ## Failures -/

/-- Why a text cannot be read. A failure that concerns a whole object or list is
    floating, with the cursor where reading stopped: its place is decided where
    that object or list is closed. -/
inductive Failure where
  | placed (message : String) (place : Place)
  | floating (message : String) (stopped : Cursor)

namespace Failure

/-- Blame the place behind what has been consumed. -/
def here (c : Cursor) (message : String) : Failure := .placed message c.here

/-- Blame the place behind the byte that comes next. -/
def peeked (c : Cursor) (message : String) : Failure := .placed message c.peeked

end Failure

/-- The wording of failures that more than one reader meets. -/
def eofValue : String := "EOF while parsing a value"

@[inherit_doc eofValue]
def eofString : String := "EOF while parsing a string"

@[inherit_doc eofValue]
def eofList : String := "EOF while parsing a list"

@[inherit_doc eofValue]
def eofObject : String := "EOF while parsing an object"

@[inherit_doc eofValue]
def expectedValue : String := "expected value"

@[inherit_doc eofValue]
def keyNotString : String := "key must be a string"

@[inherit_doc eofValue]
def trailingComma : String := "trailing comma"

@[inherit_doc eofValue]
def trailingCharacters : String := "trailing characters"

@[inherit_doc eofValue]
def expectedListEnd : String := "expected `,` or `]`"

@[inherit_doc eofValue]
def expectedObjectEnd : String := "expected `,` or `\x7d`"

/-- Reading a value moves the cursor behind it. -/
abbrev Read (α : Type) := Cursor → Except Failure (α × Cursor)

end Blockform.Reader
