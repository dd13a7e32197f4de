import ArmReach.Text.Printable
/-!
# Aligned columns

`Text.alignColumns` lays out text whose lines hold tab-terminated cells, as help screens are
written: the tabs become spaces so that cells of one column line up.

* A line is split at its tabs; every piece but the last is a cell of a column, the last is
  trailing text and belongs to no column.
* A column block is a maximal run of consecutive lines that all have a cell in that column. Its
  width is the widest cell of the block, in characters, plus a padding of two (and at least
  one).
* Each cell is written followed by spaces up to its block's width; the trailing text is
  written as it is.

A line with fewer cells ends the blocks of the columns it lacks, so blank lines and headings
separate the tables of a help screen.
-/

namespace ArmReach

namespace Text

/-- The space after the widest cell of a column. -/
def columnPadding : Nat := 2

/-- The cells of a line: the pieces between tabs, the last one being its trailing text. -/
def cellsOf (line : String) : List String := (line.toList.splitOn '\t').map String.ofList

/-- Whether a line (given by its cells) has a cell in column `k`. -/
def hasCell (cells : List String) (k : Nat) : Bool := k + 1 < cells.length

/-- The widest cell in column `k` over the lines of a run, each with padding added. -/
def runWidth (k : Nat) (run : List (List String)) : Nat :=
  run.foldl (fun w cells => max w ((cells.getD k "").length + columnPadding)) 1

/-- The maximal run of lines after position `i` (exclusive) that have a cell in column `k`. -/
def runAfter (lines : List (List String)) (k : Nat) (i : Nat) : List (List String) :=
  ((lines.drop (i + 1)).takeWhile fun cells => hasCell cells k)

/-- The maximal run of lines before position `i` (exclusive) that have a cell in column `k`. -/
def runBefore (lines : List (List String)) (k : Nat) (i : Nat) : List (List String) :=
  (((lines.take i).reverse).takeWhile fun cells => hasCell cells k)

/-- The width of column `k` at line `i`: that of the column block holding the line. -/
def widthAt (lines : List (List String)) (k i : Nat) : Nat :=
  runWidth k (runBefore lines k i ++ [lines.getD i []] ++ runAfter lines k i)

/-- A text with its tab-terminated cells aligned in columns. -/
def alignColumns (text : String) : String :=
  let lines := (text.toList.splitOn '\n').map fun l => cellsOf (String.ofList l)
  let rendered := (List.range lines.length).map fun i =>
    let cells := lines.getD i []
    String.join ((List.range cells.length).map fun k =>
      let cell := cells.getD k ""
      if hasCell cells k then
        cell ++ String.ofList (List.replicate (widthAt lines k i - cell.length) ' ')
      else cell)
  "\n".intercalate rendered

end Text

end ArmReach
