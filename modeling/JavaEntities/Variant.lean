/-!
# Variants

Every schema is written as three classes: one for the application, one for a
relational store and one for a document store. Only the application class has
a name of its own; the other two bear the identifier of the schema and differ in
the names of their files.

Mirrors `Variant` with `class_name`, `superclass` and `file_stem`. Every variant
has a superclass; that a class may be without one is a matter of `Entity`.
-/

namespace JavaEntities

/-- The three kinds of class. -/
inductive Variant
  | app
  | relational
  | document
  deriving DecidableEq, Repr, Inhabited

namespace Variant

/-- Every variant, in the order in which classes are written. -/
def all : List Variant := [.app, .relational, .document]

/-- The name of the variant in listings. -/
def name : Variant → String
  | .app => "app"
  | .relational => "relational"
  | .document => "document"

/-- The name of the class for a schema. -/
def className : Variant → String → String
  | .app, identifier => "App" ++ identifier ++ "Entity"
  | .relational, identifier => identifier
  | .document, identifier => identifier

/-- The class that the class for a schema extends. -/
def superclass : Variant → String
  | .app => "AppEntityBase"
  | .relational => "AnnotatedEntity"
  | .document => "MongoEntityBase"

/-- The name of the file for a schema, without its extension. -/
def fileStem : Variant → String → String
  | .app, identifier => "App" ++ identifier ++ "Entity"
  | .relational, identifier => identifier ++ "PostgreData"
  | .document, identifier => identifier ++ "MongoData"

end Variant

end JavaEntities
