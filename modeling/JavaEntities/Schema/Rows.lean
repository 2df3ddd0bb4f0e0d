import JavaEntities.Schema
import JavaEntities.Text.Blank
import JavaEntities.Text.Split

/-!
# Rows as text

A table is written with one row on a line and commas between cells. There is no
quoting: a cell is whatever stands between two commas, without the blank
characters at its ends. Lines that are blank throughout are no rows.

`parseRows` reads a table and `encodeRows` writes one.

Mirrors `from_line` and `parse_rows`. The program only reads tables; `encodeRows`
is there to say which texts are read as which rows.
-/

namespace JavaEntities

open Text

/-- The field that a line describes. -/
def Field.ofLine (line : List Char) : Field :=
  ⟨(split ',' line).map fun cell => String.ofList (trim cell)⟩

/-- The fields of a table's text, one for each line that is not blank. -/
def parseRows (content : String) : List Field :=
  ((lines content.toList).filter fun line => !allBlank line).map Field.ofLine

/-- The number of blank lines in a table's text: those that are left when each row
is taken away from the lines. -/
def blankLines (content : String) : Nat :=
  (lines content.toList).length - (parseRows content).length

/-- The text of one row. -/
def Field.toLine (f : Field) : List Char :=
  join ',' (f.cells.map String.toList)

/-- The text of a table with these rows, without a line feed after the last. -/
def encodeRows (rows : List Field) : String :=
  String.ofList (join '\n' (rows.map Field.toLine))

end JavaEntities
