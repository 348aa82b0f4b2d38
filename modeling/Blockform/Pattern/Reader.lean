-- SUMMARY: Reading a pattern (`Term.read`): groups, choices and repetitions.
import Blockform.Pattern.Brackets
import Blockform.Text.Letter

/-!
# Reading patterns

A pattern is a choice of sequences. The parts of a sequence are characters,
classes, places and groups, and a repetition takes the part in front of it. The
flags that a group sets hold to its end; of them, reading itself only heeds the
one for verbose patterns.
-/

namespace Blockform.Pattern

/-- Can a name hold the character? Some signs and numbers cannot come first. -/
def isNameChar (isFirst : Bool) (c : Char) : Bool :=
  c = '_' || isLetter c || (!isFirst && (c = '.' || c = '[' || c = ']' || isNumber c))

/-- The flags of a list, each switched on unless a negation, which is listed as
    none, comes before it. -/
def settingsOf (isOn : Bool) : List (Option Flag × Stretch) → Settings
  | [] => []
  | (none, _) :: rest => settingsOf false rest
  | (some flag, _) :: rest => (flag, isOn) :: settingsOf isOn rest

/-- What an opening round bracket begins. -/
inductive Head where
  /-- Flags for what follows, closed already. -/
  | settings (s : Settings) (place : Stretch)
  /-- A group, of which the bracket has been read. -/
  | group (isCapture : Bool) (s : Settings) (place : Stretch)

namespace Scan

/-! ## Groups -/

/-- Read the flags of a group up to the sign that ends them. The last flag is
    first in `items`. -/
def flags : Nat → List (Option Flag × Stretch) → Scan Settings
  | 0, _ => failHere .flagMissing
  | fuel + 1, items => do
    let start ← here
    let place : Stretch := ⟨start, start + 1⟩
    match ← peek? with
    | none => failHere .flagMissing
    | some ':' | some ')' =>
      match items with
      | (none, dangling) :: _ => fail .flagDanglingNegation dangling
      | items => return settingsOf true items.reverse
    | some '-' =>
      match items.lookup none with
      | some earlier => throw (.faulty .flagRepeatedNegation place (some earlier))
      | none =>
        bump
        flags fuel ((none, place) :: items)
    | some c =>
      match Flag.ofChar? c with
      | none => fail .flagUnrecognized place
      | some flag =>
        match items.lookup (some flag) with
        | some earlier => throw (.faulty .flagDuplicate place (some earlier))
        | none =>
          bump
          flags fuel ((some flag, place) :: items)

/-- Read the characters of a name up to the closing angle bracket. -/
def nameChars : Nat → Bool → Scan (List Char)
  | 0, _ => return []
  | fuel + 1, isFirst => do
    match ← peek? with
    | none | some '>' => return []
    | some c =>
      if isNameChar isFirst c then
        bump
        return c :: (← nameChars fuel false)
      else failNext .groupNameInvalid

/-- Read the name of a group, which no group before it may have. -/
def groupName : Scan Unit := do
  let start ← here
  let name ← nameChars (← steps) true
  let place : Stretch := ⟨start, ← here⟩
  if (← peek?).isNone then failHere .groupNameUnclosed
  bump
  if name.isEmpty then fail .groupNameEmpty place
  let name := String.ofList name
  match (← get).names.lookup name with
  | some earlier => throw (.faulty .groupNameDuplicate place (some earlier))
  | none => modify fun c => { c with names := (name, place) :: c.names }

/-- Read what an opening round bracket begins. -/
def head : Scan Head := do
  let start ← here
  let place : Stretch := ⟨start, start + 1⟩
  bump
  skipBlanks
  if ← bumpAny ["?=", "?!", "?<=", "?<!"] then failFrom .lookAround start
  else
    let inner ← here
    if ← bumpAny ["?P<", "?<"] then
      groupName
      return .group true [] place
    else if ← bumpIf "?" then
      if (← peek?).isNone then fail .groupUnclosed place
      else
        let s ← flags (← steps) []
        let isGroup := (← peek?) = some ':'
        bump
        if isGroup then return .group false s place
        else if s.isEmpty then fail .repetitionMissing ⟨inner, inner⟩
        else return .settings s ⟨start, ← here⟩
    else return .group true [] place

/-! ## Repetitions -/

/-- Read digits, with blanks between them in a verbose pattern. -/
def digits : Nat → Scan (List Char)
  | 0 => return []
  | fuel + 1 => do
    match ← peek? with
    | some c =>
      if c.isDigit then
        let _ ← next?
        return c :: (← digits fuel)
      else return []
    | none => return []

/-- Read a count, which is a 32-bit word. An error in it is kept, as another may
    be reported in its place. -/
def count : Scan (Except Error Nat) := do
  dropBlanks
  let start ← here
  let ds ← digits (← steps)
  let place : Stretch := ⟨start, ← here⟩
  dropBlanks
  let n := ds.foldl (fun n c => 10 * n + (c.toNat - 0x30)) 0
  return if ds.isEmpty then .error (.faulty .repetitionCountEmpty place none)
    else if n < 0x100000000 then .ok n
    else .error (.faulty .decimalInvalid place none)

/-- The part that a repetition takes, and the parts before it, the last first. -/
def repeatable : List Term → Scan (Term × List Term)
  | [] => failHere .repetitionMissing
  | .settings _ _ :: _ => failHere .repetitionMissing
  | part :: before => return (part, before)

/-- Read a repetition that is one sign long, and put it in the place of the part
    it takes. -/
def signRepetition (parts : List Term) (least : Nat) (most : Option Nat) : Scan (List Term) := do
  let (part, before) ← repeatable parts
  bump
  if (← peek?) = some '?' then bump
  return .repetition part least most ⟨part.place.start, ← here⟩ :: before

/-- Read the counts of a repetition from its brace on. -/
def counts : Scan (Nat × Option Nat) := do
  let start ← here
  if (← next?).isNone then failFrom .repetitionCountUnclosed start
  else
    let least ← count
    let range : Nat × Option Nat ← match ← peek? with
      | none => failFrom .repetitionCountUnclosed start
      | some ',' =>
        match ← next? with
        | none => failFrom .repetitionCountUnclosed start
        | some '\x7d' => do pure (← ofExcept least, none)
        | some _ => do
          let least ← ofExcept least
          pure (least, some (← ofExcept (← count)))
      | some _ => do
        let n ← ofExcept least
        pure (n, some n)
    if (← peek?) ≠ some '\x7d' then failFrom .repetitionCountUnclosed start
    else
      if (← next?) = some '?' then bump
      if range.2.any (· < range.1) then failFrom .repetitionCountInvalid start
      else return range

/-- Read a counted repetition, and put it in the place of the part it takes. -/
def countRepetition (parts : List Term) : Scan (List Term) := do
  let (part, before) ← repeatable parts
  let (least, most) ← counts
  return .repetition part least most ⟨part.place.start, ← here⟩ :: before

/-! ## Choices -/

/-- What has been read of a choice. Of the branches and of the parts of the
    current branch, the last is first. -/
structure Progress where
  start : Nat
  branches : List Term := []
  branchStart : Nat
  parts : List Term := []

namespace Progress

/-- A choice that begins at a place. -/
def begin (start : Nat) : Progress := { start, branchStart := start }

/-- The current branch, which ends at a place. -/
def branch (p : Progress) (stop : Nat) : Term := .ofParts ⟨p.branchStart, stop⟩ p.parts.reverse

/-- The choice, which ends at a place. -/
def finish (p : Progress) (stop : Nat) : Term :=
  .ofBranches ⟨p.start, stop⟩ (p.branch stop :: p.branches).reverse

end Progress

/-- Switch the reading of verbose patterns. -/
def setVerbose (isVerbose : Bool) : Scan Unit := modify fun c => { c with isVerbose }

/-- Read a choice up to the end of the pattern, or, inside a group, to its closing
    bracket. `group` is the opening bracket of that group. -/
def choice (group : Option Stretch) : Nat → Progress → Scan Term
  | 0, p => return p.finish (← here)
  | fuel + 1, p => do
    skipBlanks
    let stop ← here
    match ← peek?, group with
    | none, none => return p.finish stop
    | none, some opening => fail .groupUnclosed opening
    | some ')', none => failNext .groupUnopened
    | some ')', some _ => return p.finish stop
    | some '|', _ =>
      bump
      choice group fuel
        { p with branches := p.branch stop :: p.branches, branchStart := stop + 1, parts := [] }
    | some '(', _ =>
      match ← head with
      | .settings s place =>
        if let some isVerbose := s.lookup .verbose then setVerbose isVerbose
        choice group fuel { p with parts := .settings s place :: p.parts }
      | .group isCapture s opening =>
        let outer := (← get).isVerbose
        setVerbose ((s.lookup .verbose).getD outer)
        let body ← choice (some opening) fuel (.begin (← here))
        setVerbose outer
        bump
        let part := .group isCapture s body ⟨opening.start, ← here⟩
        choice group fuel { p with parts := part :: p.parts }
    | some c, _ =>
      let parts ← match c with
        | '?' => signRepetition p.parts 0 (some 1)
        | '*' => signRepetition p.parts 0 none
        | '+' => signRepetition p.parts 1 none
        | '\x7b' => countRepetition p.parts
        | '[' => do pure ((← bracketed) :: p.parts)
        | '\\' => do pure ((← escape) :: p.parts)
        | '.' => do pure (.dot (← verbatim c).place :: p.parts)
        | '^' => do pure (.assertion .lineStart (← verbatim c).place :: p.parts)
        | '$' => do pure (.assertion .lineEnd (← verbatim c).place :: p.parts)
        | _ => do pure (.literal (← verbatim c) :: p.parts)
      choice group fuel { p with parts }

end Scan

/-- Read a pattern. -/
def Term.read (pattern : String) : Except Error Term :=
  let text := pattern.toList
  match (Scan.choice none (text.length + 1) (.begin 0)).run { rest := text } with
  | .error e _ => .error e
  | .ok term _ =>
    match term.tooDeep maxDepth with
    | some place => .error (.faulty .tooDeep place none)
    | none => .ok term

end Blockform.Pattern
