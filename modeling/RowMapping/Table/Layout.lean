/-
A result as a grid of text.

Every column is as wide as its name and its cells, but at most fifty characters;
what is longer is cut, and three points show it. A line of hyphens stands below
the names.
-/
import RowMapping.Table.Basic

set_option autoImplicit false

namespace RowMapping.ResultTable

/-- The greatest width of a column. -/
def maxWidth : Nat := 50

/-- What stands for the part of a text that is cut off. -/
def ellipsis : List Char := ['.', '.', '.']

/-- The text of a cell: text as it is, other values as they are displayed. -/
def cellText (v : Value) : List Char := (v.asText?.getD v.display).toList

/-- A text cut to a width. -/
def truncate (width : Nat) (cs : List Char) : List Char :=
  if cs.length ≤ width then cs
  else if width < ellipsis.length then ellipsis.take width
  else cs.take (width - ellipsis.length) ++ ellipsis

/-- A text filled up to a width. -/
def pad (filler : Char) (width : Nat) (cs : List Char) : List Char :=
  cs ++ List.replicate (width - cs.length) filler

/-- The widths of columns, given their names, widened by the cells of a row. -/
def widen : List Nat → List (List Char) → List Nat
  | width :: widths, cell :: cells => max width cell.length :: widen widths cells
  | widths, _ => widths

/-- The widths of the columns of a grid. -/
def widths (names : List (List Char)) (rows : List (List (List Char))) : List Nat :=
  (rows.foldl widen (names.map List.length)).map (min · maxWidth)

/-- One cell of a line, with the bar behind it. -/
def writeCell (filler : Char) (cell : List Char) (width : Nat) : List Char :=
  ' ' :: (pad filler width (truncate width cell) ++ [' ', '|'])

/-- One line of the grid. -/
def writeLine (filler : Char) (cells : List (List Char)) (widths : List Nat) : List Char :=
  '|' :: ((cells.zipWith (writeCell filler) widths).flatten ++ ['\n'])

/-- The grid of some names and rows of cells. -/
def writeGrid (names : List (List Char)) (rows : List (List (List Char))) : List Char :=
  let ws := widths names rows
  writeLine ' ' names ws ++ writeLine '-' (ws.map fun _ => []) ws
    ++ rows.flatMap fun cells => writeLine ' ' cells ws

/-- A result as a grid. -/
def display (t : ResultTable) : String :=
  String.ofList (writeGrid (t.columnNames.map String.toList) (t.rows.map (·.map cellText)))

end RowMapping.ResultTable
