import JavaEntities.Layout

/-!
# The text of a class

A class is written as a header, a public field for each row, a constructor
without arguments and one that takes every field. Types and names stand as the
table has them; nothing is checked or escaped. The blanks after `{` in the second
constructor and after its closing brace belong to the format.

Sections that list the fields are joined without an end, so a class without
fields keeps an empty line where each list would be.

Mirrors `render` with `render_header`, `render_fields` and `render_constructor`.
The line ends between these parts stand in `Entity.render` here, not in the parts.
-/

namespace JavaEntities

/-- A field as the parameter of a constructor. -/
def Field.parameter (f : Field) : String :=
  f.javaType ++ " " ++ f.name

/-- A field as a member of a class. -/
def Field.declaration (f : Field) : String :=
  "\tpublic " ++ f.parameter ++ ";"

/-- The line of a constructor that sets a field. -/
def Field.assignment (f : Field) : String :=
  "\t\tthis." ++ f.name ++ " = " ++ f.name ++ ";"

namespace Entity

/-- The line that opens the class. -/
def header (e : Entity) : String :=
  match e.superclass with
  | some base => "public class " ++ e.className ++ " extends " ++ base ++ " \x7b"
  | none => "public class " ++ e.className ++ " \x7b"

/-- The constructor without arguments. -/
def emptyConstructor (e : Entity) : String :=
  "\tpublic " ++ e.className ++ "()\x7b\x7d"

/-- The line that opens the constructor with an argument for each field. -/
def constructorHead (e : Entity) : String :=
  "\tpublic " ++ e.className ++ "(" ++ ", ".intercalate (e.fields.map Field.parameter) ++ ")\x7b "

/-- The text of the class. -/
def render (e : Entity) : String :=
  e.header ++ "\n"
    ++ "\n".intercalate (e.fields.map Field.declaration) ++ "\n\n"
    ++ e.emptyConstructor ++ "\n\n"
    ++ e.constructorHead ++ "\n"
    ++ "\n".intercalate (e.fields.map Field.assignment) ++ "\n\t\x7d \n\x7d"

end Entity

end JavaEntities
