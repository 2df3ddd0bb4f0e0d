import JavaEntities.Layout
import JavaEntities.Log.Level

/-!
# Configurations

What a run is told: where its inputs are, where its output goes, what to do about
an input that cannot be read, and how much of the log to show. Every setting has
a default.

Mirrors `GeneratorConfig` and `ReadErrorPolicy` with their defaults, and `layout`.
-/

namespace JavaEntities

/-- What to do about an input that cannot be read. -/
inductive ReadErrorPolicy
  /-- Fail at the first. -/
  | abort
  /-- Pass it over. -/
  | skip
  deriving DecidableEq, Repr, Inhabited

namespace ReadErrorPolicy

/-- Every policy. -/
def all : List ReadErrorPolicy := [.abort, .skip]

/-- The name of a policy in settings. -/
def name : ReadErrorPolicy → String
  | abort => "abort"
  | skip => "skip"

end ReadErrorPolicy

/-- The settings of a run. -/
structure Configuration where
  inputDir : Path := ⟨"."⟩
  inputExtension : String := "csv"
  outputDir : Path := ⟨"out"⟩
  outputExtension : String := "java"
  onReadError : ReadErrorPolicy := .abort
  logLevel : LogLevel := .info
  deriving DecidableEq, Repr, Inhabited

/-- Where the class files of a run go. -/
def Configuration.layout (c : Configuration) : Layout where
  dir := c.outputDir
  extension := c.outputExtension

end JavaEntities
