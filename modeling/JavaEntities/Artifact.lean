import JavaEntities.ClassText
import JavaEntities.SchemaSet

/-!
# Artifacts

An artifact is one class file before it is written. A schema set gives three for
each schema, schemas in the order of their identifiers and variants in theirs.

Mirrors `build_artifacts`, whose descriptors are the entities here.
-/

namespace JavaEntities

/-- A class file to write. -/
structure Artifact where
  identifier : String
  variant : Variant
  className : String
  path : Path
  contents : String
  deriving DecidableEq, Repr, Inhabited

/-- The file for an entity. -/
def Entity.artifact (e : Entity) : Artifact where
  identifier := e.identifier
  variant := e.variant
  className := e.className
  path := e.path
  contents := e.render

/-- The files for a schema. -/
def Schema.artifacts (s : Schema) (l : Layout) : List Artifact :=
  (s.entities l).map Entity.artifact

/-- The files for every schema of a set. -/
def SchemaSet.artifacts (set : SchemaSet) (l : Layout) : List Artifact :=
  set.schemas.flatMap fun s => s.artifacts l

end JavaEntities
