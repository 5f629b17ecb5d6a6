import ProxyMonitor.Text.Cluster
/-! Tables in boxes: a row of headers above rows of cells, each column as wide as its widest line. A cell
can have several lines. -/
namespace ProxyMonitor.Command

structure Table where
  headers : List String
  rows : List (List String)
deriving DecidableEq, Repr

namespace Table

/-- The lines of a cell. -/
def cellLines (cell : String) : List (List Char) :=
  cell.toList.splitOn '\n'

def columnCount (t : Table) : Nat :=
  ((t.headers :: t.rows).map List.length).foldl max 0

def cellWidth (cell : String) : Nat :=
  ((cellLines cell).map Text.columns).foldl max 0

/-- The width of each column, which is not empty. -/
def widths (t : Table) : List Nat :=
  (List.range t.columnCount).map fun column =>
    (((t.headers :: t.rows).filterMap (·[column]?)).map cellWidth).foldl max 1

/-- A line made of one part for each column. -/
private def joined (left middle right : Char) (parts : List (List Char)) : String :=
  String.ofList (left :: [middle].intercalate parts ++ [right])

private def rule (left line middle right : Char) (widths : List Nat) : String :=
  joined left middle right (widths.map fun width => List.replicate (width + 2) line)

/-- A line of a cell with a space on both sides, or blank space where there is none. -/
private def part (width : Nat) (line : Option (List Char)) : List Char :=
  let text := line.getD []
  ' ' :: text ++ List.replicate (width + 1 - Text.columns text) ' '

private def rowLines (widths : List Nat) (row : List String) : List String :=
  let cells := row.map cellLines
  let height := (widths.mapIdx fun column _ => (cells[column]?.elim 1 List.length)).foldl max 0
  (List.range height).map fun i =>
    joined '│' '┆' '│' (widths.mapIdx fun column width => part width (cells[column]?.bind (·[i]?)))

def lines (t : Table) : List String :=
  let widths := t.widths
  [rule '┌' '─' '┬' '┐' widths] ++ rowLines widths t.headers ++ [rule '╞' '═' '╪' '╡' widths] ++
    t.rows.flatMap (rowLines widths) ++ [rule '└' '─' '┴' '┘' widths]

def text (t : Table) : String :=
  "\n".intercalate t.lines

end Table
end ProxyMonitor.Command
