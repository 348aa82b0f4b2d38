-- SUMMARY: Sets of characters as code ranges (`Charset`), their differences and meets, and the set of blanks.
/-!
# Character sets

Printing a quoted string, deciding whether a text is blank, measuring a column
of a table and searching the messages of a log each ask whether a character
belongs to a set. A `Charset` gives such a set by the ranges of codes in it.
Ranges may overlap and stand in any order. A range may run across codes that no
character has.
-/

namespace Blockform

/-- A set of characters, as ranges of codes with both ends included. -/
abbrev Charset := List (Nat × Nat)

namespace Charset

/-- Is a code in the range? -/
def inRange (code : Nat) (range : Nat × Nat) : Bool := range.1 ≤ code && code ≤ range.2

/-- Does one of the ranges hold the character's code? -/
def contains (s : Charset) (c : Char) : Bool := s.any (inRange c.toNat)

/-! ## Combining -/

/-- The set of one character. -/
def single (c : Char) : Charset := [(c.toNat, c.toNat)]

/-- The set of all characters. -/
def full : Charset := [(0, 0x10ffff)]

/-- What is left of a range when another is cut out of it. -/
def cut (out range : Nat × Nat) : Charset :=
  (if range.1 < out.1 then [(range.1, min range.2 (out.1 - 1))] else []) ++
    (if out.2 < range.2 then [(max range.1 (out.2 + 1), range.2)] else [])

/-- The characters of a set that are not in another. -/
def without (s t : Charset) : Charset := t.foldl (fun s out => s.flatMap (cut out)) s

/-- The characters that are not in a set. -/
def complement (s : Charset) : Charset := full.without s

/-- The characters of two sets. -/
def meet (s t : Charset) : Charset := s.without (s.without t)

/-! ## Blanks -/

/-- The property `White_Space`. -/
def blank : Charset :=
  [(0x9, 0xd), (0x20, 0x20), (0x85, 0x85), (0xa0, 0xa0), (0x1680, 0x1680), (0x2000, 0x200a),
   (0x2028, 0x2029), (0x202f, 0x202f), (0x205f, 0x205f), (0x3000, 0x3000)]

end Charset

end Blockform
