-- SUMMARY: Moving over a JSON value that nothing asks for.
import Blockform.Reader.Scalar

/-!
# Skipped values

The value of an unknown field is moved over. It may nest to any depth, so the
brackets that enclose the cursor are kept on a stack, and only its grammar is
checked: a number may have any size, and an escape may name half a pair.
-/

namespace Blockform.Reader

/-! ## Scalars -/

/-- Move over the exponent of a number, at its letter. -/
def skipExponent (c : Cursor) : Except Failure Cursor :=
  let c := c.bump
  let c := match c.rest with
    | '+' :: _ | '-' :: _ => c.bump
    | _ => c
  match c.digits with
  | ([], c) => .error (.peeked c "invalid number")
  | (_, c) => .ok c

/-- Move over a number, at its sign or first digit. -/
def skipNumber (c : Cursor) : Except Failure Cursor :=
  let c := match c.rest with
    | '-' :: _ => c.bump
    | _ => c
  match c.digits with
  | ([], c) => .error (.peeked c "invalid number")
  | (d :: ds, after) =>
    if d = '0' && !ds.isEmpty then .error (.peeked c.bump "invalid number")
    else
      match after.rest with
      | '.' :: _ =>
        match after.bump.digits with
        | ([], c) => .error (.peeked c "invalid number")
        | (_, c) =>
          match c.rest with
          | 'e' :: _ | 'E' :: _ => skipExponent c
          | _ => .ok c
      | 'e' :: _ | 'E' :: _ => skipExponent after
      | _ => .ok after

/-- Move over the rest of a string behind its opening quote. -/
def skipStringRest : List Char → Place → Except Failure Cursor
  | [], p => .error (.placed eofString p)
  | '"' :: cs, p => .ok ⟨cs, p.nextByte⟩
  | '\\' :: [], p => .error (.placed eofString p.nextByte)
  | '\\' :: 'u' :: a :: b :: c :: d :: cs, p =>
    let p := p.nextByte.nextByte
    match hexUnit? a b c d with
    | none => .error (hexFailure (a :: b :: c :: d :: cs) p)
    | some _ => skipStringRest cs { p with column := p.column + 4 }
  | '\\' :: 'u' :: cs, p => .error (hexFailure cs p.nextByte.nextByte)
  | '\\' :: c :: cs, p =>
    match unescape? c with
    | some _ => skipStringRest cs p.nextByte.nextByte
    | none => .error (.peeked ⟨c :: cs, p.nextByte⟩ "invalid escape")
  | c :: cs, p =>
    if c.toNat < 0x20 then .error (.placed rawControl p) else skipStringRest cs (p.after c)

/-- Move over a string, at its opening quote. -/
def skipString (c : Cursor) : Except Failure Cursor := skipStringRest c.bump.rest c.bump.place

/-! ## Values -/

/-- A bracket that encloses the cursor. -/
inductive Bracket where
  | list
  | object
deriving DecidableEq

namespace Bracket

/-- Does the character close the bracket? -/
def closes : Bracket → Char → Bool
  | .list, x => x = ']'
  | .object, x => x = '\x7d'

/-- The failure of a text that ends inside the bracket. -/
def eof : Bracket → String
  | .list => eofList
  | .object => eofObject

/-- The failure of an element that neither a comma nor the end follows. -/
def expectedEnd : Bracket → String
  | .list => expectedListEnd
  | .object => expectedObjectEnd

end Bracket

/-- Read the colon between a key and its value. -/
def colon (c : Cursor) : Except Failure Cursor :=
  let c := c.skipBlanks
  match c.rest with
  | ':' :: _ => .ok c.bump
  | [] => .error (.peeked c eofObject)
  | _ => .error (.peeked c "expected `:`")

/-- Move over the key of an element, which only an object's elements have. -/
def skipKey : Bracket → Cursor → Except Failure Cursor
  | .list, c => .ok c
  | .object, c =>
    let c := c.skipBlanks
    match c.rest with
    | '"' :: _ => skipString c >>= colon
    | [] => .error (.peeked c eofObject)
    | _ => .error (.peeked c keyNotString)

mutual

/-- Move over a value inside brackets, and then out of all of them. The fuel is
    spent on characters, two for each. -/
def skipInside (brackets : List Bracket) : Nat → Cursor → Except Failure Cursor
  | 0, c => .error (.peeked c eofValue)
  | fuel + 1, c =>
    let c := c.skipBlanks
    match c.rest with
    | [] => .error (.peeked c eofValue)
    | 'n' :: _ => word ['u', 'l', 'l'] c.bump >>= skipOut brackets true fuel
    | 't' :: _ => word ['r', 'u', 'e'] c.bump >>= skipOut brackets true fuel
    | 'f' :: _ => word ['a', 'l', 's', 'e'] c.bump >>= skipOut brackets true fuel
    | '"' :: _ => skipString c >>= skipOut brackets true fuel
    | '[' :: _ => skipOut (.list :: brackets) false fuel c.bump
    | '\x7b' :: _ => skipOut (.object :: brackets) false fuel c.bump
    | x :: _ =>
      if x = '-' || x.isDigit then skipNumber c >>= skipOut brackets true fuel
      else .error (.peeked c expectedValue)

/-- Go on behind an element, or behind an opening bracket, where no comma may
    come. -/
def skipOut (brackets : List Bracket) (behindElement : Bool) : Nat → Cursor → Except Failure Cursor
  | 0, c => .error (.peeked c eofValue)
  | fuel + 1, c =>
    match brackets with
    | [] => .ok c
    | bracket :: outer =>
      let c := c.skipBlanks
      match c.rest with
      | [] => .error (.peeked c bracket.eof)
      | x :: _ =>
        if x = ',' && behindElement then
          skipKey bracket c.bump >>= skipInside brackets fuel
        else if bracket.closes x then skipOut outer true fuel c.bump
        else if behindElement then .error (.peeked c bracket.expectedEnd)
        else skipKey bracket c >>= skipInside brackets fuel

end

/-- Move over a value. -/
def skipValue (c : Cursor) : Except Failure Cursor :=
  skipInside [] (2 * c.rest.length + 2) c

end Blockform.Reader
