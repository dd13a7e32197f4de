import ArmReach.Text.Width
/-!
# Boxed text tables

A table has a title, a header row, body rows and a footer row of text cells, and is drawn
with `+`, `-` and `|`:

```
+-----------------+
| title           |
+-----+-----------+
| A   | B         |
+-----+-----------+
| 1   | one       |
+-----+-----------+
| END | TOTAL     |
+-----+-----------+
```

Every column is as wide as its widest cell, measured in terminal columns (`displayWidth`), and
cells are left-aligned with one blank on each side. Header and footer cells are upper-cased.
A cell with line breaks takes several lines, and the other cells of its row are blank on the
lines below their own text. A tab counts as four blanks and a carriage return is dropped. The
title spans the whole table; it is broken every so many characters so that it fits, each of
its lines loses its surrounding white space, and an empty title draws no title box.
-/

namespace ArmReach

namespace Text

/-- A table of text cells. -/
structure Table where
  title : String
  header : List String
  rows : List (List String)
  footer : List String

namespace Table

/-- The text of a cell as it is drawn: tabs widened to four blanks, carriage returns dropped. -/
def cleanCell (s : String) : String :=
  String.join (s.toList.map fun c =>
    if c == '\t' then "    " else if c == '\r' then "" else c.toString)

/-- The ASCII upper case of a text, for header and footer cells, which are ASCII labels. -/
def upper (s : String) : String := s.map Char.toUpper

/-- The lines of a cell. -/
def cellLines (s : String) : List String := s.splitOn "\n"

/-- The width of a cell: that of its widest line. -/
def cellWidth (s : String) : Nat :=
  (cellLines s).foldl (fun w line => max w (displayWidth line)) 0

/-- All rows of a table as they are drawn, header and footer included. -/
def allRows (t : Table) : List (List String) :=
  (t.header.map (upper ∘ cleanCell)) :: t.rows.map (·.map cleanCell) ++
    [t.footer.map (upper ∘ cleanCell)]

/-- The number of columns: the most cells of any row. -/
def columnCount (t : Table) : Nat := t.allRows.foldl (fun n r => max n r.length) 0

/-- The width of every column. -/
def columnWidths (t : Table) : List Nat :=
  (List.range t.columnCount).map fun k =>
    t.allRows.foldl (fun w r => max w (cellWidth (r.getD k ""))) 0

/-- The width of the whole table, borders included. -/
def totalWidth (widths : List Nat) : Nat :=
  widths.foldl (fun n w => n + w + 2) 0 + widths.length + 1

/-- A text with its trailing blanks dropped and blanks added up to `width` columns. -/
def padRight (width : Nat) (s : String) : String :=
  let s := String.ofList (s.toList.reverse.dropWhile (· == ' ')).reverse
  s ++ String.ofList (List.replicate (width - displayWidth s) ' ')

/-- A border line: `+`, then each column's dashes and a `+`. -/
def border (widths : List Nat) : String :=
  "+" ++ String.join (widths.map fun w => String.ofList (List.replicate (w + 2) '-') ++ "+")

/-- One drawn line of a row, from the line of text of each column. -/
def line (widths : List Nat) (cells : List String) : String :=
  "|" ++ String.join ((widths.zip cells).map fun (w, c) => " " ++ padRight w c ++ " |")

/-- The drawn lines of a row: as many as its tallest cell has. -/
def rowLines (widths : List Nat) (row : List String) : List String :=
  let cells := (List.range widths.length).map fun k => cellLines (row.getD k "")
  let height := cells.foldl (fun h c => max h c.length) 1
  (List.range height).map fun i => line widths (cells.map (·.getD i ""))

/-- Breaks a title into lines of at most `limit` characters, colour sequences not counted,
and at every line break. -/
def wrapTitle (limit : Nat) (s : String) : List String :=
  let step := fun (acc : List String × String × Nat × Bool) (c : Char) =>
    let (done, cur, count, inEscape) := acc
    let inEscape := inEscape || c == escapeChar
    if c == '\n' then (done ++ [cur], "", 0, inEscape)
    else
      let (done, cur, count) :=
        if count == limit && !inEscape then (done ++ [cur], "", 0) else (done, cur, count)
      let count := if inEscape then count else count + 1
      (done, cur.push c, count, inEscape && c != 'm')
  let (done, cur, _, _) := s.toList.foldl step ([], "", 0, false)
  done ++ [cur]

/-- The title box: a full-width border and the title's lines, or nothing for an empty title. -/
def titleLines (t : Table) (widths : List Nat) : List String :=
  if t.title.isEmpty then [] else
  let total := totalWidth widths
  let inner := total - 4
  ("+" ++ String.ofList (List.replicate (total - 2) '-') ++ "+") ::
    (wrapTitle inner t.title).map fun l => "| " ++ padRight inner (trimSpace l) ++ " |"

/-- The drawn table, its lines joined by line breaks. -/
def render (t : Table) : String :=
  let widths := t.columnWidths
  let sep := border widths
  let header := rowLines widths (t.header.map (upper ∘ cleanCell))
  let body := t.rows.flatMap fun r => rowLines widths (r.map cleanCell)
  let footer := rowLines widths (t.footer.map (upper ∘ cleanCell))
  "\n".intercalate (titleLines t widths ++ [sep] ++ header ++ [sep] ++ body ++ [sep] ++ footer ++ [sep])

end Table

end Text

end ArmReach
