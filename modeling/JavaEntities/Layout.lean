import JavaEntities.Path
import JavaEntities.Schema
import JavaEntities.Variant

/-!
# Layout and entities

A layout says where class files go. An entity is one class to write: a schema in
one variant, with the name of the class, what it extends and the path of its file.

Mirrors `OutputLayout` with `path_for`, and `EntityDescriptor` with
`build_descriptors`.
-/

namespace JavaEntities

/-- The directory and the extension of class files. -/
structure Layout where
  dir : Path := ⟨"out"⟩
  extension : String := "java"
  deriving DecidableEq, Repr, Inhabited

namespace Layout

/-- The name of the class file for a schema. -/
def fileName (l : Layout) (identifier : String) (v : Variant) : String :=
  v.fileStem identifier ++ "." ++ l.extension

/-- The path of the class file for a schema. -/
def pathFor (l : Layout) (identifier : String) (v : Variant) : Path :=
  l.dir.join (l.fileName identifier v)

end Layout

/-- A class to write. -/
structure Entity where
  variant : Variant
  identifier : String
  className : String
  superclass : Option String
  fields : List Field
  path : Path
  deriving DecidableEq, Repr, Inhabited

/-- The class for a schema in a variant. -/
def Schema.entity (s : Schema) (l : Layout) (v : Variant) : Entity where
  variant := v
  identifier := s.identifier
  className := v.className s.identifier
  superclass := some v.superclass
  fields := s.fields
  path := l.pathFor s.identifier v

/-- The three classes for a schema. -/
def Schema.entities (s : Schema) (l : Layout) : List Entity :=
  Variant.all.map (s.entity l)

end JavaEntities
