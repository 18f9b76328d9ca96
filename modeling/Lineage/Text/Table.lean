import Lineage.Text.Cluster

/-!
# Tables

Rows of cells in a frame of lines.  Every column is as wide as its widest line, nothing is wrapped or cut off,
and a line break in a cell begins a new line of its row.
-/

namespace Lineage

structure Table where
  header : List String
  rows : List (List String)

namespace Table

/-- The lines of a cell. -/
def cellLines (cell : String) : List (List Char) :=
  cell.toList.splitOn '\n'

def cellWidth (cell : String) : Nat :=
  ((cellLines cell).map Width.ofText).foldl max 0

/-- The wider of two columns at each place. -/
def widen (widths : List Nat) (row : List String) : List Nat :=
  widths.zipWith (fun w cell => max w (cellWidth cell)) row

def widths (t : Table) : List Nat :=
  t.rows.foldl widen (t.header.map cellWidth)

/-- A horizontal line: its ends, what it is made of, and what crosses it between columns. -/
structure Rule where
  left : Char
  fill : Char
  cross : Char
  right : Char

def top : Rule := ⟨'┌', '─', '┬', '┐'⟩

def underHeader : Rule := ⟨'╞', '═', '╪', '╡'⟩

def betweenRows : Rule := ⟨'├', '╌', '┼', '┤'⟩

def bottom : Rule := ⟨'└', '─', '┴', '┘'⟩

def Rule.line (r : Rule) (widths : List Nat) : List Char :=
  r.left :: [r.cross].intercalate (widths.map fun w => List.replicate (w + 2) r.fill) ++ [r.right]

/-- A line of a cell with a space on either side, filled up to a width. -/
def padded (width : Nat) (text : List Char) : List Char :=
  ' ' :: text ++ List.replicate (width - Width.ofText text + 1) ' '

/-- One line of a row. -/
def textLine (widths : List Nat) (cells : List (List Char)) : List Char :=
  '│' :: ['┆'].intercalate (widths.zipWith padded cells) ++ ['│']

def rowLines (widths : List Nat) (row : List String) : List (List Char) :=
  let cells := row.map cellLines
  let height := (cells.map List.length).foldl max 0
  (List.range height).map fun i => textLine widths (cells.map fun lines => lines[i]?.getD [])

def lines (t : Table) : List (List Char) :=
  let w := t.widths
  top.line w :: rowLines w t.header ++ underHeader.line w ::
    [betweenRows.line w].intercalate (t.rows.map (rowLines w)) ++ [bottom.line w]

def render (t : Table) : String :=
  String.ofList (['\n'].intercalate t.lines)

end Table

end Lineage
