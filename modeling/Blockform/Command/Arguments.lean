-- SUMMARY: The words of a command line: which options there are, and what a list of words says (`Line.scan`).
import Blockform.Text.Charset

/-!
# Arguments

A command line is a list of words. A word is an option, the value of the option
before it, or an operand; `--` makes operands of all words after it. Which
options and operands there are depends on the place, so the scan is given a
`Grammar`. It checks each word where it stands: the first word that does not fit
ends it, and so does a question for help or for the version.
-/

namespace Blockform.Command

/-! ## Numbers -/

/-- The number that decimal digits write, of which there is at least one. -/
def natural? : List Char → Option Nat
  | [] => none
  | cs => if cs.all Char.isDigit then some (cs.foldl (fun n c => 10 * n + (c.toNat - '0'.toNat)) 0)
    else none

/-- A number with an optional sign. -/
def integer? : List Char → Option Int
  | '-' :: cs => (natural? cs).map fun n => -(n : Int)
  | '+' :: cs => (natural? cs).map Int.ofNat
  | cs => (natural? cs).map Int.ofNat

/-- A signed number of 32 bits. -/
def int32? (s : String) : Option Int32 := do
  let n ← integer? s.toList
  if Int32.minValue.toInt ≤ n ∧ n ≤ Int32.maxValue.toInt then some (Int32.ofInt n) else none

/-- An unsigned number of 64 bits. A minus sign is refused even before zero. -/
def size? (s : String) : Option UInt64 := do
  let cs := s.toList
  let n ← natural? (if cs.head? = some '+' then cs.tail else cs)
  if n < UInt64.size then some n.toUInt64 else none

/-- Does the text after a minus sign look like a number? It has digits, a point
    that is not the first of them and, after that, an exponent that is neither
    first nor last. -/
def looksNumeric (cs : List Char) : Bool :=
  let isExponent (c : Char) : Bool := c = 'e' || c = 'E'
  let mantissa := cs.takeWhile (!isExponent ·)
  let exponent := cs.dropWhile (!isExponent ·)
  let pointFits := mantissa.all (fun c => c.isDigit || c = '.') && mantissa.count '.' ≤ 1 &&
    mantissa.head? ≠ some '.'
  let exponentFits := exponent.isEmpty ||
    !mantissa.isEmpty && 2 ≤ exponent.length && exponent.tail.all Char.isDigit
  pointFits && exponentFits

/-! ## Options -/

/-- An option that stands alone. -/
inductive Switch where
  | verbose
  | quiet
  | help
  | version
  | noAutoDeclare
  | stats
  | trace
deriving DecidableEq

/-- The word for the switch, without its dashes. -/
def Switch.long : Switch → String
  | .verbose => "verbose"
  | .quiet => "quiet"
  | .help => "help"
  | .version => "version"
  | .noAutoDeclare => "no-auto-declare"
  | .stats => "stats"
  | .trace => "trace"

/-- The letter for the switch, if it has one. -/
def Switch.short? : Switch → Option Char
  | .verbose => some 'v'
  | .quiet => some 'q'
  | .help => some 'h'
  | .version => some 'V'
  | .noAutoDeclare | .stats | .trace => none

/-- An option with a value. -/
inductive Setting where
  | entry
  | dump
  | output
  | function
  | maxSteps
deriving DecidableEq

/-- The word for the setting, without its dashes. -/
def Setting.long : Setting → String
  | .entry => "entry"
  | .dump => "dump"
  | .output => "output"
  | .function => "function"
  | .maxSteps => "max-steps"

/-- The letter for the setting, if it has one. -/
def Setting.short? : Setting → Option Char
  | .dump => some 'd'
  | .output => some 'o'
  | .function => some 'f'
  | .entry | .maxSteps => none

/-- What an operand stands for. -/
inductive Operand where
  /-- The file that holds the tree. -/
  | file
  /-- An argument of the function that is run. -/
  | argument
deriving DecidableEq

/-- What a part of the command line may hold. `operand n` is what an operand
    stands for that follows `n` others. -/
structure Grammar where
  switches : List Switch
  settings : List Setting
  operand : Nat → Option Operand

/-! ## What is said -/

/-- What a build writes. -/
inductive Dump where
  | ast
  | ir
  | json
deriving DecidableEq

/-- The name of the stage. -/
def Dump.name : Dump → String
  | .ast => "ast"
  | .ir => "ir"
  | .json => "json"

/-- The stage of a name. -/
def Dump.ofName? (s : String) : Option Dump := [.ast, .ir, .json].find? (·.name = s)

/-- Why a command line is not carried out. -/
inductive Halt where
  | help
  | version
  | misuse
deriving DecidableEq

/-- What the words of one part of a command line have said so far. A `pending`
    setting takes the next word as its value; once the line is `literal`, every
    word is an operand. -/
structure Line where
  verbose : Nat := 0
  quiet : Bool := false
  noAutoDeclare : Bool := false
  stats : Bool := false
  trace : Bool := false
  entry : Option String := none
  dump : Option Dump := none
  output : Option String := none
  function : Option String := none
  maxSteps : Option UInt64 := none
  file : Option String := none
  arguments : List Int32 := []
  pending : Option Setting := none
  literal : Bool := false
deriving DecidableEq

namespace Line

/-- How many operands there are. -/
def operandCount (l : Line) : Nat := l.file.toList.length + l.arguments.length

/-- Give a value to a field that has none yet. -/
def once (old : Option α) (value : Option α) (set : α → Line) : Except Halt Line :=
  match old, value with
  | none, some v => .ok (set v)
  | _, _ => .error .misuse

/-- Raise a flag that is not raised yet. -/
def raise (old : Bool) (raised : Line) : Except Halt Line :=
  if old then .error .misuse else .ok raised

/-- Take a switch. All but `verbose` are taken once. -/
def take (l : Line) : Switch → Except Halt Line
  | .verbose => .ok { l with verbose := l.verbose + 1 }
  | .quiet => raise l.quiet { l with quiet := true }
  | .noAutoDeclare => raise l.noAutoDeclare { l with noAutoDeclare := true }
  | .stats => raise l.stats { l with stats := true }
  | .trace => raise l.trace { l with trace := true }
  | .help => .error .help
  | .version => .error .version

/-- Give a setting its value, which it gets once. A name may be empty, the path
    of a file to write may not. -/
def assign (l : Line) (o : Setting) (value : String) : Except Halt Line :=
  let l := { l with pending := none }
  match o with
  | .entry => once l.entry (some value) fun v => { l with entry := v }
  | .dump => once l.dump (Dump.ofName? value) fun v => { l with dump := v }
  | .output => once l.output (if value.isEmpty then none else some value) fun v =>
    { l with output := v }
  | .function => once l.function (some value) fun v => { l with function := v }
  | .maxSteps => once l.maxSteps (size? value) fun v => { l with maxSteps := v }

/-- Take an operand. -/
def place (g : Grammar) (l : Line) (word : String) : Except Halt Line :=
  match g.operand l.operandCount with
  | some .file => .ok { l with file := word }
  | some .argument =>
    match int32? word with
    | some n => .ok { l with arguments := l.arguments ++ [n] }
    | none => .error .misuse
  | none => .error .misuse

/-- Take a word that is not an option: the value of the setting before it, or an
    operand. -/
def value (g : Grammar) (l : Line) (word : String) : Except Halt Line :=
  match l.pending with
  | some o => l.assign o word
  | none => l.place g word

/-- Take an option that is written as a word, with its value if one is attached. -/
def longOption (g : Grammar) (l : Line) (name : List Char) (attached : Option (List Char)) :
    Except Halt Line :=
  match g.switches.find? (·.long.toList = name), g.settings.find? (·.long.toList = name) with
  | some s, _ => if attached.isSome then .error .misuse else l.take s
  | none, some o =>
    match attached with
    | some v => l.assign o (String.ofList v)
    | none => .ok { l with pending := o }
  | none, none => .error .misuse

/-- Take options that are written as letters behind one dash. A setting takes
    the letters after it as its value, less an equals sign in front. -/
def letters (g : Grammar) (l : Line) : List Char → Except Halt Line
  | [] => .ok l
  | c :: rest =>
    match g.switches.find? (·.short? = some c), g.settings.find? (·.short? = some c) with
    | some s, _ => do letters g (← l.take s) rest
    | none, some o =>
      match rest with
      | [] => .ok { l with pending := o }
      | '=' :: v => l.assign o (String.ofList v)
      | v => l.assign o (String.ofList v)
    | none, none => .error .misuse

/-- Take an option, which cannot be the value of the setting before it. -/
def option (l : Line) (taken : Except Halt Line) : Except Halt Line :=
  if l.pending.isSome then .error .misuse else taken

/-- Take a word. Where the next operand is a number, a word that looks like a
    negative number is no option. -/
def word (g : Grammar) (l : Line) (w : String) : Except Halt Line :=
  if l.literal then l.place g w
  else match w.toList with
    | ['-', '-'] => l.option (.ok { l with literal := true })
    | '-' :: '-' :: cs =>
      let attached := cs.dropWhile (· ≠ '=')
      l.option (l.longOption g (cs.takeWhile (· ≠ '=')) (attached.head?.map fun _ => attached.tail))
    | '-' :: c :: cs =>
      if looksNumeric (c :: cs) && g.operand l.operandCount = some .argument then l.value g w
      else l.option (l.letters g (c :: cs))
    | _ => l.value g w

/-- Take words one after the other. -/
def scan (g : Grammar) (l : Line) (words : List String) : Except Halt Line :=
  words.foldlM (word g) l

end Line

end Blockform.Command
