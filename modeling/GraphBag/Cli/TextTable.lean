/-
  Tables of text in boxes, one line a row.

  Key definitions include:
    * `Cli.TextTable`
    * `Cli.TextTable.render`
-/

namespace GraphBag

namespace Cli

/- A header and the rows under it. -/
structure TextTable where
  header : List String
  rows : List (List String)

namespace TextTable

/- The greatest length of the cells in a column. -/
def width (t : TextTable) (column : Nat) : Nat :=
  (t.header :: t.rows).foldl
    (fun w row => max w (row.getD column "").length) 0

/- The widths of all columns. -/
def widths (t : TextTable) : List Nat :=
  (List.range t.header.length).map t.width

/- A text repeated. -/
def times (n : Nat) (s : String) : String :=
  String.join (List.replicate n s)

/- A line across all columns. -/
def rule
    (widths : List Nat)
    (left fill middle right : String) : String :=
  left ++
    String.intercalate middle (widths.map fun w => times (w + 2) fill) ++
    right

/- A cell filled up with blanks. -/
def pad (w : Nat) (cell : String) : String :=
  cell ++ times (w - cell.length) " "

/- A row of cells. -/
def line (widths : List Nat) (cells : List String) : String :=
  "│ " ++ String.intercalate " ┆ " (List.zipWith pad widths cells) ++
    " │"

/- The whole table. -/
def render (t : TextTable) : String :=
  let ws := t.widths
  String.intercalate "\n"
    ([rule ws "┌" "─" "┬" "┐", line ws t.header,
      rule ws "╞" "═" "╪" "╡"] ++
      t.rows.map (line ws) ++
      [rule ws "└" "─" "┴" "┘"])

end TextTable

end Cli

end GraphBag
