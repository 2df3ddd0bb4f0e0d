/-!
# Declared types

A table declares the type of each of its columns. Three declared types have a
Java class of their own; any other text already names one.

Mirrors `translate_type`.
-/

namespace JavaEntities

/-- The Java class for a declared type. The comparison is exact, so `numeric`
stays as it is. -/
def javaClassOf (declared : String) : String :=
  if declared = "Numeric" then "Integer"
  else if declared = "Varchar" then "String"
  else if declared = "Datetime" then "Date"
  else declared

end JavaEntities
