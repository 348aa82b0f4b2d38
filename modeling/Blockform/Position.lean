-- SUMMARY: Places in the source text a tree was parsed from: points (`Location`) and stretches (`Span`).
import Blockform.Json
import Blockform.Text.Quoted

/-!
# Positions

A tree arrives already parsed, so the file name is often unknown; it is then
empty and does not show, neither in a message nor in JSON.
-/

namespace Blockform

/-- A point in a source text. Lines and columns are 64-bit words, which is the
    range a tree's JSON may give. -/
structure Location where
  file : String := ""
  line : UInt64 := 0
  column : UInt64 := 0
deriving DecidableEq, Inhabited

/-- A stretch of source text. -/
structure Span where
  start : Location
  finish : Location
deriving DecidableEq, Inhabited

namespace Location

/-- `file:line:column`, without the file when it has no name. -/
def text (l : Location) : String :=
  (if l.file.isEmpty then "" else l.file ++ ":") ++ toString l.line ++ ":" ++ toString l.column

/-- The record form, with every field. -/
def recordForm (l : Location) : String :=
  recordText "Location"
    [("file", quoted l.file), ("line", toString l.line), ("column", toString l.column)]

/-- The JSON form. -/
def toJson (l : Location) : Json :=
  let place := [("line", .int l.line.toNat), ("column", .int l.column.toNat)]
  .obj (if l.file.isEmpty then place else ("file", .str l.file) :: place)

end Location

namespace Span

/-- Both ends, with a dash between them. -/
def text (s : Span) : String := s.start.text ++ " - " ++ s.finish.text

/-- The record form, with every field. -/
def recordForm (s : Span) : String :=
  recordText "Span" [("start", s.start.recordForm), ("end", s.finish.recordForm)]

/-- The JSON form. -/
def toJson (s : Span) : Json := .obj [("start", s.start.toJson), ("end", s.finish.toJson)]

end Span

end Blockform
