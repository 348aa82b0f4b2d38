-- SUMMARY: What a pattern asks for (`Pattern`), and whether a text meets it somewhere (`Pattern.occursIn`).
import Blockform.Text.Charset

/-!
# Patterns

A pattern relates a place in a text to the places that can be reached from it by
reading what the pattern asks for. A set of places is a list of marks, one for
each place from the front of the text to its end. The places reached from a set
are found in one pass for each part of the pattern, so no text takes long.
-/

namespace Blockform

namespace Pattern

/-! ## Places -/

/-- Where the words of a text begin and end. -/
inductive WordBorder where
  | any
  | none
  | start
  | stop
  | startHalf
  | stopHalf
deriving DecidableEq

/-- What a place can be asked for. In the lines of `isCrlf` a carriage return
    also ends a line, and a line feed behind it belongs to the same end. -/
inductive Look where
  | textStart
  | textEnd
  | lineStart (isCrlf : Bool)
  | lineEnd (isCrlf : Bool)
  | word (border : WordBorder) (isUnicode : Bool)
deriving DecidableEq

/-- Is the character part of a word of ASCII? -/
def isWordChar (c : Char) : Bool := c.isAlphanum || c = '_'

/-- Does a border lie between two characters, told by whether they are part of a
    word? -/
def WordBorder.holds (border : WordBorder) (before after : Bool) : Bool :=
  match border with
  | .any => before != after
  | .none => before == after
  | .start => !before && after
  | .stop => before && !after
  | .startHalf => !before
  | .stopHalf => !after

/-- Does a place between two characters, which the ends of the text do not have,
    meet what is asked? -/
def Look.holds (look : Look) (before after : Option Char) : Bool :=
  match look with
  | .textStart => before.isNone
  | .textEnd => after.isNone
  | .lineStart isCrlf =>
    before.isNone || before = some '\n' ||
      (isCrlf && before = some '\r' && after ≠ some '\n')
  | .lineEnd isCrlf =>
    after.isNone || (isCrlf && after = some '\r') ||
      (after = some '\n' && !(isCrlf && before = some '\r'))
  | .word border _ => border.holds (before.any isWordChar) (after.any isWordChar)

end Pattern

/-! ## Patterns -/

/-- What is asked of a text. `most` is the highest count of a repetition, if
    there is one. A group asks for no more than its body. -/
inductive Pattern where
  | empty
  | chars (s : Charset)
  | look (l : Pattern.Look)
  | group (body : Pattern)
  | seq (first second : Pattern)
  | alt (first second : Pattern)
  | repeated (body : Pattern) (least : Nat) (most : Option Nat)
deriving DecidableEq

namespace Pattern

/-- Patterns one after the other. -/
def ofSequence : List Pattern → Pattern
  | [] => .empty
  | [p] => p
  | p :: ps => .seq p (ofSequence ps)

/-- A choice of patterns; without any, nothing is found. -/
def ofChoice : List Pattern → Pattern
  | [] => .chars []
  | [p] => p
  | p :: ps => .alt p (ofChoice ps)

/-- Does the pattern ask for places only, and for no characters? -/
def takesNone : Pattern → Bool
  | .empty | .look _ => true
  | .chars _ => false
  | .group body => body.takesNone
  | .seq p q | .alt p q => p.takesNone && q.takesNone
  | .repeated body _ most => most = some 0 || body.takesNone

/-- A pattern some times over. What takes no characters need not be met twice. -/
def times (p : Pattern) (least : Nat) (most : Option Nat) : Pattern :=
  let (least, most) :=
    if p.takesNone then (min least 1, some (min (most.getD 1) 1)) else (least, most)
  match least, most with
  | 0, some 0 => .empty
  | 1, some 1 => p
  | least, most => .repeated p least most

/-- Does the pattern ask for a border of words outside ASCII? -/
def hasUnicodeBorder : Pattern → Bool
  | .look (.word _ isUnicode) => isUnicode
  | .empty | .chars _ | .look _ => false
  | .group body | .repeated body _ _ => body.hasUnicodeBorder
  | .seq p q | .alt p q => p.hasUnicodeBorder || q.hasUnicodeBorder

/-! ## Size -/

/-- Is every character of the set in ASCII? -/
def isAscii (s : Charset) : Bool := s.all fun (_, high) => high < 0x80

/-- How many bytes the tables of a matcher for the pattern take, about: 32 for each
    byte to be read, 8 for each range of a set, more for a set outside ASCII, and
    some for each branch. -/
def size : Pattern → Nat
  | .empty | .look _ => 32
  | .chars [] => 32
  | .chars [(low, high)] =>
    if low = high then 32 * (Char.ofNat low).utf8Size
    else if high < 0x80 then 72
    else 1000
  | .chars s => if isAscii s then 64 + 8 * s.length else 1000
  | .group body => body.size + 64
  | .seq p q => p.size + q.size
  | .alt p q => p.size + q.size + 72
  | .repeated body 0 (some 1) => body.size + 72
  | .repeated body least none => max 1 least * body.size + 40
  | .repeated body least (some most) => least * body.size + (most - least) * (body.size + 40) + 32

/-! ## Finding -/

/-- A mark for each place of a text. -/
abbrev Marks := List Bool

/-- The characters on either side of each place. -/
def surroundings (text : List Char) : List (Option Char × Option Char) :=
  List.zip (none :: text.map some) (text.map some ++ [none])

/-- The places that are in one of two sets. -/
def either (a b : Marks) : Marks := List.zipWith or a b

/-- Take a step some times over. When it changes nothing, it never will again. -/
def steps (step : Marks → Marks) : Nat → Marks → Marks
  | 0, marks => marks
  | n + 1, marks =>
    let next := step marks
    if next = marks then marks else steps step n next

/-- The places that the pattern leads to from the places of a set. Of a repetition
    without a highest count, more steps than the text has places reach no more. -/
def advance (text : List Char) : Pattern → Marks → Marks
  | .empty, marks => marks
  | .chars s, marks => false :: List.zipWith (fun isHere c => isHere && s.contains c) marks text
  | .look l, marks =>
    List.zipWith (fun isHere (before, after) => isHere && l.holds before after) marks
      (surroundings text)
  | .group body, marks => body.advance text marks
  | .seq p q, marks => q.advance text (p.advance text marks)
  | .alt p q, marks => either (p.advance text marks) (q.advance text marks)
  | .repeated body least most, marks =>
    let more := match most with
      | some most => most - least
      | none => text.length + 1
    steps (fun m => either m (body.advance text m)) more (steps (body.advance text) least marks)

/-- Does some stretch of the text meet the pattern? -/
def occursIn (p : Pattern) (text : String) : Bool :=
  let text := text.toList
  (p.advance text (List.replicate (text.length + 1) true)).any id

end Pattern

end Blockform
