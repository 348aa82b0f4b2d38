-- SUMMARY: Reading a class of characters between brackets (`Scan.bracketed`).
import Blockform.Pattern.Escape

/-!
# Brackets

Between brackets stand characters, ranges, escapes, named classes and further
brackets. `&&`, `--` and `~~` combine all that stands before with all that
stands behind, up to the next of them. A dash is an operator only between two
characters, and a closing bracket that comes first stands for itself.
-/

namespace Blockform.Pattern

/-- The named class at the start of a text, such as `[:alpha:]`, whether it is
    negated, and how long it is. -/
def namedClass? : List Char → Option (ClassName × Bool × Nat)
  | '[' :: ':' :: text =>
    let (negated, text) := match text with
      | '^' :: text => (true, text)
      | text => (false, text)
    let name := text.takeWhile (· ≠ ':')
    match text.drop name.length with
    | ':' :: ']' :: _ =>
      (ClassName.ofName? (String.ofList name)).map fun kind =>
        (kind, negated, name.length + if negated then 5 else 4)
    | _ => none
  | _ => none

/-- Put what stands before an operator together with what stands behind. -/
def ClassTerm.combine (left : Option (SetOperator × ClassTerm)) (right : ClassTerm) : ClassTerm :=
  match left with
  | some (op, left) => .combined op left right (left.place.through right.place)
  | none => right

/-- The operator at the start of a text. -/
def setOperator? : List Char → Option SetOperator
  | '&' :: '&' :: _ => some .intersection
  | '-' :: '-' :: _ => some .difference
  | '~' :: '~' :: _ => some .symmetricDifference
  | _ => none

namespace Scan

/-! ## Items -/

/-- The next character as it stands. -/
def verbatim (char : Char) : Scan Literal := do
  let start ← here
  bump
  return { char, place := ⟨start, start + 1⟩ }

/-- Read a character or an escape, where some character comes next. -/
def classPart (c : Char) : Scan Term := do
  if c = '\\' then escape else return .literal (← verbatim c)

/-- A part as an item of a class. -/
def classItem : Term → Scan ClassTerm
  | .literal l => return .literal l
  | .shorthand kind negated place => return .shorthand kind negated place
  | .property p place => return .property p place
  | term => fail .classEscapeInvalid term.place

/-- A part as an end of a range. -/
def rangeEnd : Term → Scan Literal
  | .literal l => return l
  | term => fail .classRangeLiteral term.place

/-- Read an item or a range inside the brackets that begin at a place. -/
def classRange (brackets : Stretch) (c : Char) : Scan ClassTerm := do
  let first ← classPart c
  skipBlanks
  match ← peek? with
  | none => fail .classUnclosed brackets
  | some d =>
    let behind := (← get).second?
    if d ≠ '-' || behind = some ']' || behind = some '-' then classItem first
    else match ← next? with
      | none => fail .classUnclosed brackets
      | some c =>
        let second ← classPart c
        let low ← rangeEnd first
        let high ← rangeEnd second
        if low.char ≤ high.char then return .range low high
        else fail .classRangeInvalid (low.place.through high.place)

/-! ## Brackets -/

/-- Read the dashes that stand for themselves at the start of a class, the last
    first. -/
def leadingDashes (start : Nat) : Nat → List ClassTerm → Scan (List ClassTerm)
  | 0, items => return items
  | fuel + 1, items => do
    if (← peek?) ≠ some '-' then return items
    else
      let dash ← here
      match ← next? with
      | none => fail .classUnclosed ⟨start, start⟩
      | some _ =>
        leadingDashes start fuel (.literal { char := '-', place := ⟨dash, dash + 1⟩ } :: items)

/-- What the start of a class says. -/
structure Opening where
  place : Stretch
  negated : Bool
  /-- The items so far, the last first, and where they start. -/
  items : List ClassTerm
  start : Nat

/-- Read the start of a class: its bracket, its negation, and what can only stand
    for itself there. -/
def openBrackets : Scan Opening := do
  let start ← here
  match ← next? with
  | none => failFrom .classUnclosed start
  | some c =>
    let negated := c = '^'
    if negated then
      if (← next?).isNone then failFrom .classUnclosed start
    let itemsStart ← here
    let dashes ← leadingDashes start (← steps) []
    if dashes.isEmpty && (← peek?) = some ']' then
      let sign ← here
      match ← next? with
      | none => failFrom .classUnclosed start
      | some _ =>
        let item := .literal { char := ']', place := ⟨sign, sign + 1⟩ }
        return ⟨⟨start, ← here⟩, negated, [item], itemsStart⟩
    else return ⟨⟨start, ← here⟩, negated, dashes, itemsStart⟩

/-- Read the items of a class up to its closing bracket. `left` is what stands
    before the last operator, `items` what stands behind it, the last first. -/
def classBody (brackets : Stretch) :
    Nat → Option (SetOperator × ClassTerm) → List ClassTerm → Nat → Scan ClassTerm
  | 0, _, _, _ => fail .classUnclosed brackets
  | fuel + 1, left, items, start => do
    skipBlanks
    let text := (← get).rest
    match text, setOperator? text with
    | [], _ => fail .classUnclosed brackets
    | ']' :: _, _ => return ClassTerm.combine left (.ofItems start items.reverse)
    | '[' :: _, _ =>
      match namedClass? text with
      | some (name, negated, length) =>
        let first ← here
        modify (·.skip length)
        classBody brackets fuel left (.named name negated ⟨first, ← here⟩ :: items) start
      | none =>
        let inner ← openBrackets
        let body ← classBody inner.place fuel none inner.items inner.start
        bump
        let item := .bracketed inner.negated body ⟨inner.place.start, ← here⟩
        classBody brackets fuel left (item :: items) start
    | _, some op =>
      modify (·.skip 2)
      let all := ClassTerm.combine left (.ofItems start items.reverse)
      classBody brackets fuel (some (op, all)) [] (← here)
    | c :: _, none => classBody brackets fuel left ((← classRange brackets c) :: items) start

/-- Read a class from its bracket on. -/
def bracketed : Scan Term := do
  let outer ← openBrackets
  let body ← classBody outer.place (← steps) none outer.items outer.start
  bump
  return .bracketed outer.negated body ⟨outer.place.start, ← here⟩

end Scan

end Blockform.Pattern
