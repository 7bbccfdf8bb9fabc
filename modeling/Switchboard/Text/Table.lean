import Switchboard.Text.Width

/-!
# Text/Table — tables drawn with box characters

A table has a header row and further rows.  Every column is as wide as its widest line with one
blank on either side, and a cell with several lines makes its row that many lines high.
-/

namespace Switchboard.Text

/-- The lines of a text. -/
def linesOf : List Char → List (List Char)
  | [] => [[]]
  | c :: rest =>
    match linesOf rest with
    | [] => [[c]]
    | line :: lines => if c = '\n' then [] :: line :: lines else (c :: line) :: lines

/-- A row of cells, each cell a list of lines. -/
abbrev Row := List (List (List Char))

/-- The row of some texts. -/
def rowOf (cells : List String) : Row := cells.map fun s => linesOf s.toList

/-- The widths of the columns. -/
def columnWidths (rows : List Row) : List Nat :=
  let widest (cell : List (List Char)) : Nat := (cell.map width).foldl max 0
  rows.foldl (fun ws row =>
    (List.range (max ws.length row.length)).map fun i =>
      max (ws.getD i 0) ((row.map widest).getD i 0)) []

/-- A line between rows, made of its left end, its stroke, its crossings and its right end. -/
def rule (left stroke crossing right : Char) (widths : List Nat) : List Char :=
  let strokes := widths.map fun w => List.replicate (w + 2) stroke
  left :: [crossing].intercalate strokes ++ [right]

/-- A line with blanks after it up to a width. -/
def padded (w : Nat) (line : List Char) : List Char :=
  line ++ List.replicate (w - width line) ' '

/-- One line of a row. -/
def rowLine (widths : List Nat) (row : Row) (n : Nat) : List Char :=
  let cells := (row.zip widths).map fun (cell, w) => ' ' :: padded w (cell.getD n []) ++ [' ']
  '│' :: ['┆'].intercalate cells ++ ['│']

/-- The lines of a row. -/
def rowLines (widths : List Nat) (row : Row) : List (List Char) :=
  (List.range ((row.map List.length).foldl max 1)).map (rowLine widths row)

/-- **The lines of a table.** -/
def tableLines (header : Row) (rows : List Row) : List (List Char) :=
  let widths := columnWidths (header :: rows)
  let between := rule '├' '╌' '┼' '┤' widths
  [rule '┌' '─' '┬' '┐' widths] ++ rowLines widths header ++ [rule '╞' '═' '╪' '╡' widths] ++
    [between].intercalate (rows.map (rowLines widths)) ++ [rule '└' '─' '┴' '┘' widths]

/-- A table as one text. -/
def table (header : List String) (rows : List (List String)) : String :=
  String.ofList (['\n'].intercalate (tableLines (rowOf header) (rows.map rowOf)))

end Switchboard.Text
