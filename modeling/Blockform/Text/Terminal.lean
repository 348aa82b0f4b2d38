-- SUMMARY: A text without its terminal control sequences (`Terminal.plainText`).

/-!
# Terminal control sequences

A text for a terminal may hold sequences that move the cursor, set colours or
name the window. Where no terminal reads the text they are taken out, and with
them all controls that are no blanks. A sequence is not checked for its meaning:
it reaches to the character that ends its kind, or to the end of the text.
-/

namespace Blockform.Terminal

/-! ## Modes -/

/-- What is being read. -/
inductive Mode where
  /-- Plain text. -/
  | ground
  /-- A sequence whose kind is not yet known. -/
  | escape
  /-- A sequence of no further kind, with characters in its middle. -/
  | escapeMiddle
  /-- A control sequence, such as the setting of a colour. -/
  | control
  /-- The head of a device control string: nothing yet, numbers, or characters in
      its middle. -/
  | deviceStart
  | deviceNumbers
  | deviceMiddle
  /-- The body of a string, which ends at a byte of value `9c`. -/
  | body
  /-- A command to the system, such as the naming of the window. -/
  | command
deriving DecidableEq

/-- Is a code between two others, both included? -/
def isBetween (low high code : Nat) : Bool := low ≤ code && code ≤ high

/-- Does the encoding of a character outside ASCII hold the byte `9c`? A byte
    behind the first carries six bits of the code, here `1c`. -/
def hasEndByte (c : Char) : Bool :=
  (List.range (c.utf8Size - 1)).any fun i => c.toNat / Nat.pow 64 i % 64 = 0x1c

/-- Is the character a control that text may hold? -/
def isLayout (c : Char) : Bool := c = '\t' || c = '\n' || c = '\x0c' || c = '\r'

namespace Mode

/-- What is read behind a character. A control sequence that is being read goes
    on behind a character that it has no use for. -/
def after (m : Mode) (c : Char) : Mode :=
  let code := c.toNat
  if code = 0x18 || code = 0x1a then .ground
  else if code = 0x1b then .escape
  else match m with
    | .ground => .ground
    | .escape =>
      if isBetween 0x20 0x2f code then .escapeMiddle
      else match c with
        | '[' => .control
        | ']' => .command
        | 'P' => .deviceStart
        | 'X' | '^' | '_' => .body
        | _ => if isBetween 0x30 0x7e code then .ground else .escape
    | .escapeMiddle => if isBetween 0x30 0x7e code then .ground else .escapeMiddle
    | .control => if isBetween 0x40 0x7e code then .ground else .control
    | .deviceStart =>
      if isBetween 0x20 0x2f code then .deviceMiddle
      else if c = ':' || isBetween 0x40 0x7e code then .body
      else if isBetween 0x30 0x3f code then .deviceNumbers
      else .deviceStart
    | .deviceNumbers =>
      if isBetween 0x20 0x2f code then .deviceMiddle
      else if c = ':' || isBetween 0x3c 0x7e code then .body
      else .deviceNumbers
    | .deviceMiddle => if isBetween 0x30 0x7e code then .body else .deviceMiddle
    | .body => if hasEndByte c then .ground else .body
    | .command => if code = 0x07 then .ground else .command

/-- Does a character show? Plain text shows; of a sequence only a line break or
    its like does, and only before a string has begun. -/
def shows (m : Mode) (c : Char) : Bool :=
  match m with
  | .ground => (0x20 ≤ c.toNat && c.toNat ≠ 0x7f) || isLayout c
  | .escape | .escapeMiddle | .control => isLayout c
  | _ => false

end Mode

/-! ## Texts -/

/-- The characters that show. A line break or its like inside a sequence
    opens a run of plain text, which reaches to the next control that does not
    show. There the sequence goes on, unless the run has held a character outside
    ASCII. -/
def shown (m : Mode) (isRun : Bool) : List Char → List Char
  | [] => []
  | c :: cs =>
    let reading := if isRun then .ground else m
    if reading.shows c then
      c :: shown (if 0x80 ≤ c.toNat then .ground else m) true cs
    else shown (m.after c) false cs

/-- The text without control sequences. -/
def plainText (text : String) : String := String.ofList (shown .ground false text.toList)

end Blockform.Terminal
