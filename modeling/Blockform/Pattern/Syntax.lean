-- SUMMARY: How a pattern is written: terms (`Term`), what stands between brackets (`ClassTerm`), and the stretch of the text that each comes from.
/-!
# Written patterns

A pattern is a text that other texts are searched for. A term keeps the stretch
of the pattern that it comes from, as one without a meaning is underlined when
it is reported. It does not keep whether a repetition is to be short or long:
that decides which of several finds is taken, not whether there is one.
-/

namespace Blockform.Pattern

/-- A stretch of a pattern, in characters from its start. -/
structure Stretch where
  start : Nat
  stop : Nat
deriving DecidableEq, Inhabited

/-- From the start of one stretch to the end of another. -/
def Stretch.through (a b : Stretch) : Stretch := ⟨a.start, b.stop⟩

/-! ## Flags -/

/-- A property of reading that a pattern can switch on and off. -/
inductive Flag where
  | ignoreCase
  | multiLine
  | dotAll
  | swapGreed
  | unicode
  | carriageReturn
  | verbose
deriving DecidableEq

/-- The flag with a letter. -/
def Flag.ofChar? : Char → Option Flag
  | 'i' => some .ignoreCase
  | 'm' => some .multiLine
  | 's' => some .dotAll
  | 'U' => some .swapGreed
  | 'u' => some .unicode
  | 'R' => some .carriageReturn
  | 'x' => some .verbose
  | _ => none

/-- Flags that are switched, each at most once. -/
abbrev Settings := List (Flag × Bool)

/-! ## Small parts -/

/-- A character that stands for itself. `isByte` says that it is written as two
    hexadecimal digits. -/
structure Literal where
  char : Char
  place : Stretch
  isByte : Bool := false
deriving DecidableEq

/-- What a place can be asked for. -/
inductive Assertion where
  | lineStart
  | lineEnd
  | textStart
  | textEnd
  | wordBorder
  | noWordBorder
  | wordStart
  | wordEnd
  | wordStartHalf
  | wordEndHalf
deriving DecidableEq

/-- A class of characters that is written as a letter behind a backslash. -/
inductive Shorthand where
  | digit
  | space
  | word
deriving DecidableEq

/-- A class of ASCII characters that has a name. -/
inductive ClassName where
  | alnum
  | alpha
  | ascii
  | blank
  | cntrl
  | digit
  | graph
  | lower
  | print
  | punct
  | space
  | upper
  | word
  | xdigit
deriving DecidableEq

/-- The class with a name. -/
def ClassName.ofName? : String → Option ClassName
  | "alnum" => some .alnum
  | "alpha" => some .alpha
  | "ascii" => some .ascii
  | "blank" => some .blank
  | "cntrl" => some .cntrl
  | "digit" => some .digit
  | "graph" => some .graph
  | "lower" => some .lower
  | "print" => some .print
  | "punct" => some .punct
  | "space" => some .space
  | "upper" => some .upper
  | "word" => some .word
  | "xdigit" => some .xdigit
  | _ => none

/-- A property of characters that is asked for by its name, or by its name and a
    value. -/
structure Property where
  name : String
  value : Option String
deriving DecidableEq

/-- How two sets of characters are put together. -/
inductive SetOperator where
  | intersection
  | difference
  | symmetricDifference
deriving DecidableEq

/-! ## Terms -/

/-- What stands between brackets. -/
inductive ClassTerm where
  | empty (place : Stretch)
  | literal (l : Literal)
  | range (low high : Literal)
  | named (name : ClassName) (negated : Bool) (place : Stretch)
  | shorthand (kind : Shorthand) (negated : Bool) (place : Stretch)
  | property (p : Property) (place : Stretch)
  | bracketed (negated : Bool) (body : ClassTerm) (place : Stretch)
  | union (items : List ClassTerm) (place : Stretch)
  | combined (op : SetOperator) (left right : ClassTerm) (place : Stretch)

/-- A pattern or a part of it. `most` is the highest count of a repetition, if
    there is one. -/
inductive Term where
  | empty (place : Stretch)
  | settings (s : Settings) (place : Stretch)
  | literal (l : Literal)
  | dot (place : Stretch)
  | assertion (kind : Assertion) (place : Stretch)
  | shorthand (kind : Shorthand) (negated : Bool) (place : Stretch)
  | property (p : Property) (place : Stretch)
  | bracketed (negated : Bool) (body : ClassTerm) (place : Stretch)
  | repetition (body : Term) (least : Nat) (most : Option Nat) (place : Stretch)
  | group (isCapture : Bool) (s : Settings) (body : Term) (place : Stretch)
  | alternation (branches : List Term) (place : Stretch)
  | sequence (parts : List Term) (place : Stretch)

/-- Where the term is written. -/
def ClassTerm.place : ClassTerm → Stretch
  | .literal l => l.place
  | .range low high => low.place.through high.place
  | .empty place | .named _ _ place | .shorthand _ _ place | .property _ place
  | .bracketed _ _ place | .union _ place | .combined _ _ _ place => place

/-- Where the term is written. -/
def Term.place : Term → Stretch
  | .literal l => l.place
  | .empty place | .settings _ place | .dot place | .assertion _ place | .shorthand _ _ place
  | .property _ place | .bracketed _ _ place | .repetition _ _ _ place | .group _ _ _ place
  | .alternation _ place | .sequence _ place => place

/-- Items of a class side by side: alone, an item needs no union. -/
def ClassTerm.ofItems (start : Nat) : List ClassTerm → ClassTerm
  | [] => .empty ⟨start, start⟩
  | [item] => item
  | first :: rest => .union (first :: rest) (first.place.through ((rest.getLastD first).place))

/-- Terms one after the other: alone, a term needs no sequence. -/
def Term.ofParts (place : Stretch) : List Term → Term
  | [] => .empty place
  | [part] => part
  | parts => .sequence parts place

/-- Branches of a choice: alone, a branch needs no choice. -/
def Term.ofBranches (place : Stretch) : List Term → Term
  | [branch] => branch
  | branches => .alternation branches place

/-! ## Depth -/

mutual

/-- The first part, in reading order, that lies deeper than `room` levels. -/
def ClassTerm.tooDeep (room : Nat) : ClassTerm → Option Stretch
  | .bracketed _ body place => if room = 0 then some place else body.tooDeep (room - 1)
  | .union items place => if room = 0 then some place else anyClassTooDeep (room - 1) items
  | .combined _ left right place =>
    if room = 0 then some place
    else (left.tooDeep (room - 1)).orElse fun _ => right.tooDeep (room - 1)
  | _ => none

/-- The first part of a list that lies too deep. -/
def anyClassTooDeep (room : Nat) : List ClassTerm → Option Stretch
  | [] => none
  | item :: rest => (item.tooDeep room).orElse fun _ => anyClassTooDeep room rest

end

mutual

/-- The first part, in reading order, that lies deeper than `room` levels. -/
def Term.tooDeep (room : Nat) : Term → Option Stretch
  | .bracketed _ body place => if room = 0 then some place else body.tooDeep (room - 1)
  | .repetition body _ _ place => if room = 0 then some place else body.tooDeep (room - 1)
  | .group _ _ body place => if room = 0 then some place else body.tooDeep (room - 1)
  | .alternation branches place => if room = 0 then some place else anyTooDeep (room - 1) branches
  | .sequence parts place => if room = 0 then some place else anyTooDeep (room - 1) parts
  | _ => none

@[inherit_doc anyClassTooDeep]
def anyTooDeep (room : Nat) : List Term → Option Stretch
  | [] => none
  | term :: rest => (term.tooDeep room).orElse fun _ => anyTooDeep room rest

end

end Blockform.Pattern
