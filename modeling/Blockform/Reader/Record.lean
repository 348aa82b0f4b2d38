-- SUMMARY: Reading values of a given form: records as objects or lists, variants, lists, and whole texts (`decode`).
import Blockform.Reader.Form
import Blockform.Reader.Skip

/-!
# Reading by form

`Form.readAt` reads a value of a form, given the readers for the values inside
it. Every bracket costs one of a limited number of levels; `Form.readers n` is
the stack of readers for the levels that are left, the next one first, so the
recursion is on their number.

A record fails as a whole when a field is missing or comes twice. Such a failure
is floating: it is blamed on the place that `settle` reaches when it tries to
close the object or list.
-/

namespace Blockform.Reader

/-! ## Opening and closing -/

/-- The end of an object: what is wrong with it, if anything, and the cursor
    behind what was consumed of it. -/
def closeObject (c : Cursor) : Option Failure × Cursor :=
  let c := c.skipBlanks
  match c.rest with
  | '\x7d' :: _ => (none, c.bump)
  | ',' :: _ => (some (.peeked c trailingComma), c)
  | [] => (some (.peeked c eofObject), c)
  | _ => (some (.peeked c trailingCharacters), c)

/-- The end of a list: what is wrong with it, if anything, and the cursor behind
    what was consumed of it. -/
def closeList (c : Cursor) : Option Failure × Cursor :=
  let c := c.skipBlanks
  match c.rest with
  | ']' :: _ => (none, c.bump)
  | ',' :: _ =>
    let c := c.bump.skipBlanks
    match c.rest with
    | ']' :: _ => (some (.peeked c trailingComma), c)
    | _ => (some (.peeked c trailingCharacters), c)
  | [] => (some (.peeked c eofList), c)
  | _ => (some (.peeked c trailingCharacters), c)

/-- Close an object or list behind its content. A failure of the content comes
    first; one that is floating gets the place behind the attempt to close. -/
def settle (close : Cursor → Option Failure × Cursor) :
    Except Failure (α × Cursor) → Except Failure (α × Cursor)
  | .ok (v, c) =>
    match close c with
    | (none, c) => .ok (v, c)
    | (some e, _) => .error e
  | .error (.placed m p) => .error (.placed m p)
  | .error (.floating m c) => .error (.here (close c).2 m)

/-- The failure of a bracket that is one too many. -/
def tooDeep (c : Cursor) : Failure := .peeked c "recursion limit exceeded"

/-- The next element of a list that starts behind a bracket or an element: the
    cursor before it, or none at the end of the list. -/
def nextElement (first : Bool) (c : Cursor) : Except Failure (Option Cursor × Cursor) :=
  let c := c.skipBlanks
  match c.rest with
  | ']' :: _ => .ok (none, c)
  | [] => .error (.peeked c eofList)
  | x :: _ =>
    if first then .ok (some c, c)
    else if x = ',' then
      let c := c.bump.skipBlanks
      match c.rest with
      | ']' :: _ => .error (.peeked c trailingComma)
      | [] => .error (.peeked c eofValue)
      | _ => .ok (some c, c)
    else .error (.peeked c expectedListEnd)

/-- Is there another field in an object? The cursor is then at its key. -/
def nextKey (first : Bool) (c : Cursor) : Except Failure (Bool × Cursor) :=
  let c := c.skipBlanks
  match c.rest with
  | '\x7d' :: _ => .ok (false, c)
  | [] => .error (.peeked c eofObject)
  | x :: _ =>
    if first then
      if x = '"' then .ok (true, c) else .error (.peeked c keyNotString)
    else if x = ',' then
      let c := c.bump.skipBlanks
      match c.rest with
      | '"' :: _ => .ok (true, c)
      | '\x7d' :: _ => .error (.peeked c trailingComma)
      | [] => .error (.peeked c eofValue)
      | _ => .error (.peeked c keyNotString)
    else .error (.peeked c expectedObjectEnd)

/-! ## Lists -/

/-- Read the elements of a list. Each takes at least one character, so as many
    rounds as there are characters suffice. -/
def elements (item : Read α) : Nat → Bool → Read (List α)
  | 0, _, c => .error (.peeked c eofList)
  | fuel + 1, first, c => do
    let (start, c) ← nextElement first c
    match start with
    | none => .ok ([], c)
    | some c =>
      let (v, c) ← item c
      let (vs, c) ← elements item fuel false c
      .ok (v :: vs, c)

/-- Read a list; without a reader for its items it is nested too deeply. -/
def readList (item? : Option (Read α)) : Read (List α) := fun c =>
  let c := c.skipBlanks
  match c.rest with
  | '[' :: _ =>
    match item? with
    | none => .error (tooDeep c)
    | some item => settle closeList (elements item (c.rest.length + 1) true c.bump)
  | _ => .error (wrongKind "a sequence" c)

/-! ## Records -/

/-- Readers of the values of every form. -/
abbrev FormReader := (s : Form) → Read s.Val

/-- Read the value of a field. -/
def readField (inner : FormReader) : (f : Field) → Read f.Val
  | .required _ form => inner form
  | .optional _ form _ => orNull (inner form)
  | .defaulted _ form _ => inner form

/-- Read the value of the field that a key names, unless it has been read
    before; none if there is no such field. -/
def readKeyed (inner : FormReader) (key : String) :
    (fs : List Field) → Partial fs → Cursor → Except Failure (Option (Partial fs × Cursor))
  | [], _, _ => .ok none
  | f :: fs, (slot, slots), c =>
    if f.name = key then
      match slot with
      | some _ => .error (.floating ("duplicate field `" ++ key ++ "`") c)
      | none => do
        let (v, c) ← readField inner f (← colon c)
        .ok (some ((some v, slots), c))
    else do
      match ← readKeyed inner key fs slots c with
      | none => .ok none
      | some (slots, c) => .ok (some ((slot, slots), c))

/-- Read the fields of an object, in any order and among unknown ones, up to its
    end. -/
def readFields (inner : FormReader) (fs : List Field) :
    Nat → Bool → Partial fs → Read (Partial fs)
  | 0, _, _, c => .error (.peeked c eofObject)
  | fuel + 1, first, slots, c => do
    let (more, c) ← nextKey first c
    if !more then .ok (slots, c)
    else
      let (key, c) ← string c
      match ← readKeyed inner key fs slots c with
      | some (slots, c) => readFields inner fs fuel false slots c
      | none =>
        let c ← skipValue (← colon c)
        readFields inner fs fuel false slots c

/-- Give the fields that were left out their values, in the order of the
    record. -/
def complete (c : Cursor) : (fs : List Field) → Partial fs → Except Failure (Fields fs)
  | [], _ => .ok ()
  | f :: fs, (slot, slots) =>
    match slot <|> f.inObject with
    | none => .error (.floating ("missing field `" ++ f.name ++ "`") c)
    | some v => (complete c fs slots).map (v, ·)

/-- Read fields as the elements of a list, in the order of the record. -/
def readElements (inner : FormReader) (counted : String) :
    (fs : List Field) → Nat → Read (Fields fs)
  | [], _, c => .ok ((), c)
  | f :: fs, index, c => do
    let (start, c) ← nextElement (index = 0) c
    match start with
    | some c =>
      let (v, c) ← readField inner f c
      let (vs, c) ← readElements inner counted fs (index + 1) c
      .ok ((v, vs), c)
    | none =>
      match f.inList with
      | none =>
        .error (.floating ("invalid length " ++ toString index ++ ", expected " ++ counted) c)
      | some v =>
        let (vs, c) ← readElements inner counted fs (index + 1) c
        .ok ((v, vs), c)

/-- Read a record, as an object or as a list. -/
def readRecord (inner? : Option FormReader) (r : Record α) : Read α := fun c =>
  let c := c.skipBlanks
  match c.rest with
  | '\x7b' :: _ =>
    match inner? with
    | none => .error (tooDeep c)
    | some inner =>
      settle closeObject do
        let (slots, c) ← readFields inner r.fields (c.rest.length + 1) true (.empty _) c.bump
        let fields ← complete c r.fields slots
        .ok (r.build fields, c)
  | '[' :: _ =>
    match inner? with
    | none => .error (tooDeep c)
    | some inner =>
      settle closeList do
        let (fields, c) ← readElements inner r.counted r.fields 0 c.bump
        .ok (r.build fields, c)
  | _ => .error (wrongKind r.title c)

/-! ## Variants -/

/-- A choice among names, in an error message. -/
def oneOf : List String → String
  | [a, b] => "`" ++ a ++ "` or `" ++ b ++ "`"
  | names => "one of " ++ ", ".intercalate (names.map fun n => "`" ++ n ++ "`")

/-- Find a variant by its name. -/
def variantNamed (variants : List (Variant α)) (name : String) (c : Cursor) :
    Except Failure (Variant α) :=
  match variants.find? (·.name = name) with
  | some v => .ok v
  | none =>
    .error (.here c
      ("unknown variant `" ++ name ++ "`, expected " ++ oneOf (variants.map Variant.name)))

/-- Read a variant: a name alone, or an object with the name as its one key. That
    object takes one of the levels below, and the record in it the next. -/
def readVariant (below : List FormReader) (variants : List (Variant α)) : Read α := fun c =>
  let c := c.skipBlanks
  match c.rest with
  | [] => .error (.peeked c eofValue)
  | '"' :: _ => do
    let (name, c) ← string c
    match ← variantNamed variants name c with
    | .bare _ v => .ok (v, c)
    | .record .. => .error (.floating "invalid type: unit variant, expected struct variant" c)
  | '\x7b' :: _ => do
    if below.isEmpty then .error (tooDeep c)
    let c := c.bump.skipBlanks
    match c.rest with
    | '"' :: _ =>
      let (name, c) ← string c
      let variant ← variantNamed variants name c
      let c ← colon c
      let (v, c) ← match variant with
        | .bare _ v => (unit c).map fun ((), c) => (v, c)
        | .record _ content => readRecord below.tail.head? content c
      let c := c.skipBlanks
      match c.rest with
      | '\x7d' :: _ => .ok (v, c.bump)
      | [] => .error (.here c eofObject)
      | _ => .error (.here c expectedValue)
    | '\x7d' :: _ => .error (.peeked c expectedValue)
    | [] => .error (.peeked c eofObject)
    | _ => .error (.peeked c keyNotString)
  | _ => .error (.peeked c expectedValue)

/-! ## Values of any form -/

/-- Read a value of a form. `below` holds the readers for the levels inside it,
    the next one first. -/
def Form.readAt (below : List FormReader) : FormReader
  | .int64 => Reader.int64
  | .size => Reader.size
  | .flag => Reader.flag
  | .text => Reader.text
  | .binaryOperator => readVariant below (operatorVariants BinaryOperator.name BinaryOperator.all)
  | .unaryOperator => readVariant below (operatorVariants UnaryOperator.name UnaryOperator.all)
  | .boolOperator => readVariant below (operatorVariants BoolOperator.name BoolOperator.all)
  | .compareOperator =>
    readVariant below (operatorVariants CompareOperator.name CompareOperator.all)
  | .location => readRecord below.head? locationRecord
  | .span => readRecord below.head? spanRecord
  | .kind => readVariant below kindVariants
  | .node => readRecord below.head? nodeRecord
  | .keyword => readRecord below.head? keywordRecord
  | .lowerOptions => readRecord below.head? lowerOptionsRecord
  | .execOptions => readRecord below.head? execOptionsRecord
  | .list item => readList (below.head?.map fun inner => inner item)

/-- The readers for a number of levels. -/
def Form.readers : Nat → List FormReader
  | 0 => []
  | n + 1 => Form.readAt (readers n) :: readers n

/-- How many brackets may be open at once. -/
def maxLevels : Nat := 127

/-- A text that cannot be read, with the place that is to blame. -/
structure DecodeError where
  message : String
  place : Place

/-- The error with its place. -/
def DecodeError.text (e : DecodeError) : String :=
  e.message ++ " at line " ++ toString e.place.line ++ " column " ++ toString e.place.column

/-- Read a whole text as one value of a form. -/
def decode (form : Form) (text : String) : Except DecodeError form.Val :=
  let read : Except Failure form.Val := do
    let (v, c) ← Form.readAt (Form.readers maxLevels) form (.start text)
    let c := c.skipBlanks
    if c.rest.isEmpty then .ok v else .error (.peeked c trailingCharacters)
  match read with
  | .ok v => .ok v
  | .error (.placed m p) => .error ⟨m, p⟩
  | .error (.floating m c) => .error ⟨m, c.here⟩

end Blockform.Reader
