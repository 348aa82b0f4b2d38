-- SUMMARY: The meaning of a written pattern (`Term.meaning`), and patterns from texts (`Pattern.ofText`).
import Blockform.Pattern.Basic
import Blockform.Pattern.Reader

/-!
# Meaning

The flags in force decide what a term means. They change from left to right, and
at the end of a group the flags from before it are back.

The tables for properties of characters outside ASCII are not at hand. A term
that needs them, such as `\d` or a letter whose case is to be ignored, has no
meaning unless the flag for Unicode is off. With that flag off a pattern would
read bytes, so what could read part of a character has no meaning either.
-/

namespace Blockform.Pattern

/-- The flags that bear on the meaning of a term. -/
structure Flags where
  ignoreCase : Bool := false
  multiLine : Bool := false
  dotAll : Bool := false
  carriageReturn : Bool := false
  unicode : Bool := true
deriving DecidableEq

/-- Switch flags. -/
def Flags.apply (f : Flags) (s : Settings) : Flags :=
  s.foldl (fun f (flag, isOn) =>
    match flag with
    | .ignoreCase => { f with ignoreCase := isOn }
    | .multiLine => { f with multiLine := isOn }
    | .dotAll => { f with dotAll := isOn }
    | .carriageReturn => { f with carriageReturn := isOn }
    | .unicode => { f with unicode := isOn }
    | .swapGreed | .verbose => f) f

/-- Blame a part of the pattern. -/
def blame (fault : Fault) (place : Stretch) : Except Error α := .error (.faulty fault place none)

/-! ## Sets of ASCII characters -/

/-- The characters between two, both included. -/
def between (low high : Char) : Charset := [(low.toNat, high.toNat)]

/-- The digits, small and capital letters. -/
def digits : Charset := between '0' '9'

@[inherit_doc digits]
def smallLetters : Charset := between 'a' 'z'

@[inherit_doc digits]
def capitalLetters : Charset := between 'A' 'Z'

/-- The characters of a named class. -/
def ClassName.charset : ClassName → Charset
  | .alnum => digits ++ capitalLetters ++ smallLetters
  | .alpha => capitalLetters ++ smallLetters
  | .ascii => between '\x00' '\x7f'
  | .blank => between '\t' '\t' ++ between ' ' ' '
  | .cntrl => between '\x00' '\x1f' ++ between '\x7f' '\x7f'
  | .digit => digits
  | .graph => between '!' '~'
  | .lower => smallLetters
  | .print => between ' ' '~'
  | .punct => between '!' '/' ++ between ':' '@' ++ between '[' '\x60' ++ between '\x7b' '~'
  | .space => between '\t' '\r' ++ between ' ' ' '
  | .upper => capitalLetters
  | .word => digits ++ capitalLetters ++ between '_' '_' ++ smallLetters
  | .xdigit => digits ++ between 'A' 'F' ++ between 'a' 'f'

/-- The named class that a shorthand stands for in ASCII. -/
def Shorthand.className : Shorthand → ClassName
  | .digit => .digit
  | .space => .space
  | .word => .word

/-- The set with each letter of ASCII in both cases. -/
def bothCases (s : Charset) : Charset :=
  s ++ (s.meet smallLetters).map (fun (low, high) => (low - 0x20, high - 0x20)) ++
    (s.meet capitalLetters).map (fun (low, high) => (low + 0x20, high + 0x20))

/-! ## Classes -/

/-- The name of a property without what does not count: case, blanks, dashes, what
    is not ASCII, and `is` in front. -/
def plainName (name : String) : List Char :=
  let text := match name.toList with
    | i :: s :: rest => if i.toLower = 'i' && s.toLower = 's' then rest else name.toList
    | text => text
  (text.filter fun c => c ≠ ' ' && c ≠ '_' && c ≠ '-' && c.toNat < 0x80).map Char.toLower

/-- A property has no meaning without tables. For three short names it is known
    that they name a value of the general category. -/
def propertySet (f : Flags) (p : Property) (place : Stretch) : Except Error Charset :=
  if !f.unicode then blame .unicodeNotAllowed place
  else if p.value.isNone && ["cf", "sc", "lc"].any (·.toList = plainName p.name) then
    blame .propertyValueNotFound place
  else blame .propertyNotFound place

/-- The set of a shorthand, in ASCII. -/
def shorthandSet (f : Flags) (kind : Shorthand) (negated : Bool) (place : Stretch) :
    Except Error Charset :=
  if f.unicode then blame .shorthandNotFound place
  else if negated then blame .invalidUtf8 place
  else .ok kind.className.charset

/-- The code of a character in a class. A byte outside ASCII is no character. -/
def classCode (f : Flags) (l : Literal) : Except Error Nat :=
  if f.unicode || l.char.toNat < 0x80 then .ok l.char.toNat
  else if l.isByte then blame .invalidUtf8 l.place
  else blame .unicodeNotAllowed l.place

/-- Does a term list characters, outside further brackets? -/
def ClassTerm.isBare : ClassTerm → Bool
  | .literal _ | .range _ _ | .named _ _ _ => true
  | .union items _ => anyBare items
  | _ => false
where
  /-- Does a term of a list list characters? -/
  anyBare : List ClassTerm → Bool
    | [] => false
    | item :: rest => item.isBare || anyBare rest

/-- Add the other case of each letter, if case is ignored. What comes out of
    further brackets has both cases already. -/
def foldCase (f : Flags) (isBare : Bool) (place : Stretch) (s : Charset) : Except Error Charset :=
  if !f.ignoreCase then .ok s
  else if !f.unicode then .ok (bothCases s)
  else if isBare then blame .caseUnavailable place
  else .ok s

/-- A class from the set between its brackets. -/
def closeClass (f : Flags) (isBare negated : Bool) (place : Stretch) (s : Charset) :
    Except Error Charset := do
  let s ← foldCase f isBare place s
  if !negated then return s
  else if f.unicode then return s.complement
  else blame .invalidUtf8 place

/-- Two sets put together. -/
def SetOperator.apply : SetOperator → Charset → Charset → Charset
  | .intersection, s, t => s.meet t
  | .difference, s, t => s.without t
  | .symmetricDifference, s, t => s.without t ++ t.without s

mutual

/-- The set of a term between brackets. -/
def ClassTerm.meaning (f : Flags) : ClassTerm → Except Error Charset
  | .empty _ => .ok []
  | .literal l => do
    let code ← classCode f l
    return [(code, code)]
  | .range low high => do return [(← classCode f low, ← classCode f high)]
  | .named name negated place => closeClass f true negated place name.charset
  | .shorthand kind negated place => shorthandSet f kind negated place
  | .property p place => propertySet f p place
  | .bracketed negated body place => do
    closeClass f body.isBare negated place (← body.meaning f)
  | .union items _ => unionMeaning f items
  | .combined op left right _ => do
    let s ← left.meaning f
    let t ← right.meaning f
    let t ← foldCase f right.isBare right.place t
    let s ← foldCase f left.isBare left.place s
    return op.apply s t

/-- The characters of all terms of a list. -/
def unionMeaning (f : Flags) : List ClassTerm → Except Error Charset
  | [] => .ok []
  | item :: rest => do return (← item.meaning f) ++ (← unionMeaning f rest)

end

/-! ## Terms -/

/-- The meaning of a character outside brackets. -/
def Literal.meaning (f : Flags) (l : Literal) : Except Error Pattern :=
  if f.unicode then
    if f.ignoreCase then blame .caseUnavailable l.place else .ok (.chars (.single l.char))
  else if l.isByte && 0x80 ≤ l.char.toNat then blame .invalidUtf8 l.place
  else if f.ignoreCase then .ok (.chars (bothCases (.single l.char)))
  else .ok (.chars (.single l.char))

/-- The meaning of a dot: every character, or all that end no line. -/
def dotMeaning (f : Flags) (place : Stretch) : Except Error Pattern :=
  if !f.unicode then blame .invalidUtf8 place
  else if f.dotAll then .ok (.chars .full)
  else if f.carriageReturn then .ok (.chars (.complement (.single '\n' ++ .single '\r')))
  else .ok (.chars (.complement (.single '\n')))

/-- What an assertion asks of a place. -/
def Assertion.look (f : Flags) : Assertion → Look
  | .lineStart => if f.multiLine then .lineStart f.carriageReturn else .textStart
  | .lineEnd => if f.multiLine then .lineEnd f.carriageReturn else .textEnd
  | .textStart => .textStart
  | .textEnd => .textEnd
  | .wordBorder => .word .any f.unicode
  | .noWordBorder => .word .none f.unicode
  | .wordStart => .word .start f.unicode
  | .wordEnd => .word .stop f.unicode
  | .wordStartHalf => .word .startHalf f.unicode
  | .wordEndHalf => .word .stopHalf f.unicode

mutual

/-- The meaning of a term under flags, and the flags for what follows it. -/
def Term.meaning (f : Flags) : Term → Except Error (Pattern × Flags)
  | .empty _ => .ok (.empty, f)
  | .settings s _ => .ok (.empty, f.apply s)
  | .literal l => do return (← l.meaning f, f)
  | .dot place => do return (← dotMeaning f place, f)
  | .assertion kind _ => .ok (.look (kind.look f), f)
  | .shorthand kind negated place => do return (.chars (← shorthandSet f kind negated place), f)
  | .property p place => do return (.chars (← propertySet f p place), f)
  | .bracketed negated body place => do
    let s ← closeClass f body.isBare negated place (← body.meaning f)
    return (.chars s, f)
  | .repetition body least most _ => do
    let (p, f) ← body.meaning f
    return (.times p least most, f)
  | .group isCapture s body _ => do
    let (p, _) ← body.meaning (f.apply s)
    return (if isCapture then .group p else p, f)
  | .alternation branches _ => do
    let (ps, f) ← meanings f branches
    return (ofChoice ps, f)
  | .sequence parts _ => do
    let (ps, f) ← meanings f parts
    return (ofSequence ps, f)

/-- The meanings of terms one after the other, and the flags for what follows. -/
def meanings (f : Flags) : List Term → Except Error (List Pattern × Flags)
  | [] => .ok ([], f)
  | term :: rest => do
    let (p, f) ← term.meaning f
    let (ps, f) ← meanings f rest
    return (p :: ps, f)

end

/-! ## Patterns -/

/-- The pattern of a text. -/
def ofText (text : String) : Except Error Pattern := do
  let term ← Term.read text
  let (p, _) ← term.meaning {}
  if maxSize < p.size then throw .tooLarge
  else if p.hasUnicodeBorder then throw .noWordBorders
  else return p

end Blockform.Pattern
