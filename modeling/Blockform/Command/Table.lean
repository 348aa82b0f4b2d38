-- SUMMARY: A table drawn with box characters (`Table.text`).
import Blockform.Text.Width

/-!
# Tables

A table has a row of titles and rows of cells below it. A column is as wide as
its widest cell and a blank on either side. A cell may have several lines; its
row is then as high as its highest cell.
-/

namespace Blockform.Command

/-- The line, filled up with blanks. -/
def padded (width : Nat) (line : String) : String :=
  line ++ String.ofList (List.replicate (width - lineWidth line) ' ')

/-! ## Tables -/

/-- Titles, and rows with as many cells. -/
structure Table where
  header : List String
  rows : List (List String)

namespace Table

/-- The lines of a cell. -/
def cellLines (cell : String) : List String := cell.splitOn "\n"

/-- The width of a cell. -/
def cellWidth (cell : String) : Nat := ((cellLines cell).map lineWidth).foldl max 0

/-- The widths of the columns, from the widths of the cells of each row. -/
def widths (t : Table) : List Nat :=
  t.rows.foldl (fun ws row => List.zipWith max ws (row.map cellWidth)) (t.header.map cellWidth)

/-- A line across the table. -/
def rule (left middle right : String) (stroke : Char) (ws : List Nat) : String :=
  let strokes := ws.map fun w => String.ofList (List.replicate (w + 2) stroke)
  left ++ middle.intercalate strokes ++ right

/-- A line of text: one line of each cell, blank in a cell that has no more. -/
def textLine (ws : List Nat) (cells : List (List String)) (i : Nat) : String :=
  let parts := List.zipWith (fun w lines => " " ++ padded w (lines[i]?.getD "") ++ " ") ws cells
  "│" ++ "┆".intercalate parts ++ "│"

/-- The lines of a row. -/
def rowLines (ws : List Nat) (row : List String) : List String :=
  let cells := row.map cellLines
  (List.range ((cells.map List.length).foldl max 0)).map (textLine ws cells)

/-- The table: titles between a border and a double line, and between the rows a
    dashed line each. -/
def text (t : Table) : String :=
  let ws := t.widths
  let border := rule "┌" "┬" "┐" '─' ws
  let header := rowLines ws t.header ++ [rule "╞" "╪" "╡" '═' ws]
  let dashes := rule "├" "┼" "┤" '╌' ws
  let body := [dashes].intercalate (t.rows.map (rowLines ws))
  "\n".intercalate ([border] ++ header ++ body ++ [rule "└" "┴" "┘" '─' ws])

end Table

end Blockform.Command
