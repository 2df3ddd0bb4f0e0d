import JavaEntities.DeclaredType

/-!
# Fields and schemas

A field is one row of a table, kept as its cells: the first is the name, the
second is set aside, the third is the declared type. A row may be short, and a
cell that it lacks reads as the empty text. A schema is the list of the fields
of one table under the identifier of the table.

Mirrors `Field` and `Schema`; `from_line` is with the rows.
-/

namespace JavaEntities

/-- One row of a table, as its cells. -/
structure Field where
  cells : List String
  deriving DecidableEq, Repr, Inhabited

namespace Field

/-- The cell at a position, empty when the row is shorter. -/
def cell (f : Field) (i : Nat) : String :=
  f.cells.getD i ""

/-- The name of the field. -/
def name (f : Field) : String := f.cell 0

/-- The second cell, which no output depends on. -/
def flag (f : Field) : String := f.cell 1

/-- The type as the table declares it. -/
def declaredType (f : Field) : String := f.cell 2

/-- The Java class of the field. -/
def javaType (f : Field) : String := javaClassOf f.declaredType

end Field

/-- The fields of one table, in the order of its rows. -/
structure Schema where
  identifier : String
  fields : List Field
  deriving DecidableEq, Repr, Inhabited

end JavaEntities
