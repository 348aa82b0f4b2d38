-- SUMMARY: Readers of the scalar JSON values: words, numbers and strings, and the report of a value of the wrong kind.
import Blockform.Decimal.Shortest
import Blockform.Reader.Cursor
import Blockform.Text.Quoted

/-!
# Scalars

A value of the wrong kind is read to its end before it is refused, so a fault
inside it is reported first. Only lists and objects are refused unread.
-/

namespace Blockform.Reader

/-! ## Words -/

/-- Read the letters of a word whose first letter chose it. -/
def word : List Char → Cursor → Except Failure Cursor
  | [], c => .ok c
  | x :: xs, c =>
    match c.rest with
    | [] => .error (.here c eofValue)
    | y :: _ => if y = x then word xs c.bump else .error (.peeked c "expected ident")

/-! ## Numbers -/

/-- A number: an integer that fits a 64-bit word of one sign or the other, or
    else a double. -/
inductive Number where
  | int (n : Int)
  | float (x : Float)

/-- Digits taken into a 64-bit significand, from the left, as long as they fit:
    the significand, how many were taken, and how many were left out. -/
def absorb (significand : Nat) : List Char → Nat × Nat × Nat
  | [] => (significand, 0, 0)
  | d :: ds =>
    let next := significand * 10 + (d.toNat - '0'.toNat)
    if next < UInt64.size then
      let (s, taken, dropped) := absorb next ds
      (s, taken + 1, dropped)
    else (significand, 0, ds.length + 1)

/-- Divide by `10^n`, in steps that a double can hold the divisor of. -/
def shrink (x : Float) (n : Nat) : Float :=
  if n ≤ 308 then x / Float.ofScientific 1 false n
  else if x == 0 then x
  else shrink (x / Float.ofScientific 1 false 308) (n - 308)
termination_by n

/-- The double nearest to a significand, scaled by a power of ten in double
    arithmetic; none if it is too large. -/
def scaled (significand : Nat) (exponent : Int) : Option Float :=
  let x := significand.toUInt64.toFloat
  if exponent < 0 then some (shrink x exponent.natAbs)
  else if exponent ≤ 308 then
    let y := x * Float.ofScientific 1 false exponent.toNat
    if y.isInf then none else some y
  else if x == 0 then some x
  else none

/-- A double from its parts, with the cursor behind its text. -/
def finishFloat (negative : Bool) (significand : Nat) (exponent : Int) :
    Cursor → Except Failure (Number × Cursor) := fun c =>
  match scaled significand exponent with
  | none => .error (.here c "number out of range")
  | some x => .ok (.float (if negative then -x else x), c)

/-- The digits of an exponent, from the left, as long as they fit a 32-bit word:
    the exponent, and the rest of the digits if they do not all fit. -/
def exponentDigits (exponent : Nat) : List Char → Nat × Option (List Char)
  | [] => (exponent, none)
  | d :: ds =>
    let next := exponent * 10 + (d.toNat - '0'.toNat)
    if next < 0x80000000 then exponentDigits next ds else (exponent, some ds)

/-- Read the exponent of a number behind its letter. -/
def exponentPart (negative : Bool) (significand : Nat) (start : Int) (c : Cursor) :
    Except Failure (Number × Cursor) :=
  let c := c.bump
  let (down, c) := match c.rest with
    | '+' :: _ => (false, c.bump)
    | '-' :: _ => (true, c.bump)
    | _ => (false, c)
  match c.rest with
  | [] => .error (.here c eofValue)
  | d :: _ =>
    if !d.isDigit then .error (.peeked c "invalid number")
    else
      let (ds, after) := c.digits
      match exponentDigits 0 ds with
      | (e, none) =>
        finishFloat negative significand (if down then start - e else start + e) after
      | (_, some unread) =>
        if significand ≠ 0 && !down then
          let read := ds.length - unread.length
          .error (.placed "number out of range" { c.place with column := c.place.column + read })
        else .ok (.float (if negative then -0.0 else 0.0), after)

/-- Read what may follow the digits in front of the point. -/
def fractionPart (negative : Bool) (significand : Nat) (start : Int) (c : Cursor) :
    Except Failure (Number × Cursor) :=
  let (ds, after) := c.bump.digits
  match ds with
  | [] =>
    match after.rest with
    | [] => .error (.peeked after eofValue)
    | _ => .error (.peeked after "invalid number")
  | ds =>
    let (significand, taken, _) := absorb significand ds
    let exponent := start - taken
    match after.rest with
    | 'e' :: _ | 'E' :: _ => exponentPart negative significand exponent after
    | _ => finishFloat negative significand exponent after

/-- An integer as a number. A negative zero and an integer beyond the words of
    its sign are doubles. -/
def wholeNumber (negative : Bool) (significand : Nat) : Number :=
  if negative then
    if 0 < significand && significand ≤ Int64.minValue.toInt.natAbs then .int (-(significand : Int))
    else .float (-significand.toUInt64.toFloat)
  else .int significand

/-- Read a number, at its sign or first digit. -/
def number (c : Cursor) : Except Failure (Number × Cursor) :=
  let (negative, c) := match c.rest with
    | '-' :: _ => (true, c.bump)
    | _ => (false, c)
  match c.rest with
  | [] => .error (.here c eofValue)
  | d :: _ =>
    if !d.isDigit then .error (.peeked c "invalid number")
    else
      let (ds, after) := c.digits
      if d = '0' && ds.length > 1 then .error (.peeked c.bump "invalid number")
      else
        let (significand, _, dropped) := absorb 0 ds
        match after.rest with
        | '.' :: _ => fractionPart negative significand dropped after
        | 'e' :: _ | 'E' :: _ => exponentPart negative significand dropped after
        | _ =>
          if dropped = 0 then .ok (wholeNumber negative significand, after)
          else finishFloat negative significand dropped after

/-! ## Strings -/

/-- The value of a hexadecimal digit. -/
def hexDigit? (c : Char) : Option Nat :=
  if c.isDigit then some (c.toNat - '0'.toNat)
  else if 'a' ≤ c && c ≤ 'f' then some (c.toNat - 'a'.toNat + 10)
  else if 'A' ≤ c && c ≤ 'F' then some (c.toNat - 'A'.toNat + 10)
  else none

/-- The value of four hexadecimal digits. -/
def hexUnit? (a b c d : Char) : Option Nat := do
  some (((← hexDigit? a) * 16 + (← hexDigit? b)) * 256 + (← hexDigit? c) * 16 + (← hexDigit? d))

/-- The failure of four bytes that are no hexadecimal digits: they are consumed
    all the same, or the text ends before them. -/
def hexFailure (cs : List Char) (p : Place) : Failure :=
  if (String.ofList cs).utf8ByteSize < 4 then .placed eofString (p.afterAll cs)
  else .placed "invalid escape" (p.afterBytes cs 4)

/-- The character behind a backslash that stands for itself or a control. -/
def unescape? : Char → Option Char
  | '"' => some '"'
  | '\\' => some '\\'
  | '/' => some '/'
  | 'b' => some '\x08'
  | 'f' => some '\x0c'
  | 'n' => some '\n'
  | 'r' => some '\r'
  | 't' => some '\t'
  | _ => none

/-- Is the 16-bit unit the first of a pair? -/
def isHighUnit (n : Nat) : Bool := 0xd800 ≤ n && n ≤ 0xdbff

/-- Is the 16-bit unit the second of a pair? -/
def isLowUnit (n : Nat) : Bool := 0xdc00 ≤ n && n ≤ 0xdfff

/-- The character that a pair of units stands for. -/
def joinUnits (high low : Nat) : Char :=
  Char.ofNat (0x10000 + (high - 0xd800) * 0x400 + (low - 0xdc00))

/-- The wording of a second unit without its first, or a first without its second. -/
def loneUnit : String := "lone leading surrogate in hex escape"

@[inherit_doc loneUnit]
def brokenPair : String := "unexpected end of hex escape"

/-- The wording of a control character inside a string. -/
def rawControl : String := "control character (\\u0000-\\u001F) found while parsing a string"

/-- Read the rest of a string behind its opening quote; `read` holds what has
    been read, the last character first. -/
def stringRest (read : List Char) : List Char → Place → Except Failure (String × Cursor)
  | [], p => .error (.placed eofString p)
  | '"' :: cs, p => .ok (String.ofList read.reverse, ⟨cs, p.nextByte⟩)
  | '\\' :: [], p => .error (.placed eofString p.nextByte)
  | '\\' :: 'u' :: a :: b :: c :: d :: cs, p =>
    let p := p.nextByte.nextByte
    match hexUnit? a b c d with
    | none => .error (hexFailure (a :: b :: c :: d :: cs) p)
    | some n =>
      let p := { p with column := p.column + 4 }
      if isLowUnit n then .error (.placed loneUnit p)
      else if isHighUnit n then
        match cs with
        | '\\' :: 'u' :: a :: b :: c :: d :: cs =>
          let p := p.nextByte.nextByte
          match hexUnit? a b c d with
          | none => .error (hexFailure (a :: b :: c :: d :: cs) p)
          | some low =>
            let p := { p with column := p.column + 4 }
            if isLowUnit low then stringRest (joinUnits n low :: read) cs p
            else .error (.placed loneUnit p)
        | '\\' :: 'u' :: cs => .error (hexFailure cs p.nextByte.nextByte)
        | '\\' :: [] => .error (.placed eofString p.nextByte)
        | '\\' :: cs => .error (.peeked ⟨cs, p.nextByte⟩ brokenPair)
        | [] => .error (.placed eofString p)
        | cs => .error (.peeked ⟨cs, p⟩ brokenPair)
      else stringRest (Char.ofNat n :: read) cs p
  | '\\' :: 'u' :: cs, p => .error (hexFailure cs p.nextByte.nextByte)
  | '\\' :: c :: cs, p =>
    match unescape? c with
    | some x => stringRest (x :: read) cs p.nextByte.nextByte
    | none => .error (.peeked ⟨c :: cs, p.nextByte⟩ "invalid escape")
  | c :: cs, p =>
    if c.toNat < 0x20 then .error (.peeked ⟨c :: cs, p⟩ rawControl)
    else stringRest (c :: read) cs (p.after c)

/-- Read a string, at its opening quote. -/
def string (c : Cursor) : Except Failure (String × Cursor) :=
  stringRest [] c.bump.rest c.bump.place

/-! ## Values of the wrong kind -/

/-- A number in the report of a value that does not fit. -/
def Number.describe : Number → String
  | .int n => "integer `" ++ toString n ++ "`"
  | .float x => "floating point `" ++ Decimal.text x ++ "`"

/-- The report of a value of the wrong kind. -/
def invalidType (found expected : String) : String :=
  "invalid type: " ++ found ++ ", expected " ++ expected

/-- Refuse the value that comes next, which is not of the expected kind. -/
def wrongKind (expected : String) (c : Cursor) : Failure :=
  let refuse (found : String) (c : Cursor) : Failure := .here c (invalidType found expected)
  let refuseWord (letters : List Char) (found : String) : Failure :=
    match word letters c.bump with
    | .ok c => refuse found c
    | .error e => e
  match c.rest with
  | [] => .peeked c eofValue
  | 'n' :: _ => refuseWord ['u', 'l', 'l'] "null"
  | 't' :: _ => refuseWord ['r', 'u', 'e'] "boolean `true`"
  | 'f' :: _ => refuseWord ['a', 'l', 's', 'e'] "boolean `false`"
  | '"' :: _ =>
    match string c with
    | .ok (s, c) => refuse ("string " ++ quoted s) c
    | .error e => e
  | '[' :: _ => refuse "sequence" c
  | '\x7b' :: _ => refuse "map" c
  | x :: _ =>
    if x = '-' || x.isDigit then
      match number c with
      | .ok (n, c) => refuse n.describe c
      | .error e => e
    else .peeked c expectedValue

/-! ## Expected scalars -/

/-- Read an integer that a check accepts. -/
def integer (expected : String) (accept : Int → Option α) : Read α := fun c =>
  let c := c.skipBlanks
  match c.rest with
  | x :: _ =>
    if x = '-' || x.isDigit then
      match number c with
      | .error e => .error e
      | .ok (.float x, c) => .error (.here c (invalidType (Number.float x).describe expected))
      | .ok (.int n, c) =>
        match accept n with
        | some v => .ok (v, c)
        | none =>
          let found := (Number.int n).describe
          .error (.here c ("invalid value: " ++ found ++ ", expected " ++ expected))
    else .error (wrongKind expected c)
  | [] => .error (wrongKind expected c)

/-- A signed 64-bit word. -/
def int64 : Read Int64 :=
  integer "i64" fun n =>
    if Int64.minValue.toInt ≤ n ∧ n ≤ Int64.maxValue.toInt then some (Int64.ofInt n) else none

/-- An unsigned 64-bit word. -/
def size : Read UInt64 :=
  integer "usize" fun n => if 0 ≤ n then some n.toNat.toUInt64 else none

/-- A truth value. -/
def flag : Read Bool := fun c =>
  let c := c.skipBlanks
  match c.rest with
  | 't' :: _ => (word ['r', 'u', 'e'] c.bump).map (true, ·)
  | 'f' :: _ => (word ['a', 'l', 's', 'e'] c.bump).map (false, ·)
  | _ => .error (wrongKind "a boolean" c)

/-- A string. -/
def text : Read String := fun c =>
  let c := c.skipBlanks
  match c.rest with
  | '"' :: _ => string c
  | _ => .error (wrongKind "a string" c)

/-- The word for the absence of a value, where nothing else may stand. -/
def unit : Read Unit := fun c =>
  let c := c.skipBlanks
  match c.rest with
  | 'n' :: _ => (word ['u', 'l', 'l'] c.bump).map ((), ·)
  | _ => .error (wrongKind "unit" c)

/-- A value, or the word for its absence. -/
def orNull (value : Read α) : Read (Option α) := fun c =>
  let c := c.skipBlanks
  match c.rest with
  | 'n' :: _ => (word ['u', 'l', 'l'] c.bump).map (none, ·)
  | _ => (value c).map fun (v, c) => (some v, c)

end Blockform.Reader
