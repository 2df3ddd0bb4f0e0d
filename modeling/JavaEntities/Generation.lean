import JavaEntities.Configuration.Check
import JavaEntities.Discovery
import JavaEntities.Loading
import JavaEntities.Sink

/-!
# Generation

A run discovers and loads its inputs, renders every schema in every variant and
writes the artifacts to a sink. Nothing is written before everything is loaded.
`plan` stops before the sink.

Mirrors `load`, `plan` and `run` of `Generator`. `Generator` is made by a check of
its configuration; here the check is a step of its own, which the commands make
first. The event that ends a run is `completion`, to be reported by the caller
after those of the sink.
-/

namespace JavaEntities

/-- The inputs of a run, counted, and their schemas. -/
structure Loaded where
  inputs : Nat
  schemas : SchemaSet

/-- What a run has done. -/
structure Summary where
  inputs : Nat
  schemas : Nat
  artifacts : Nat
  skipped : List Path
  deriving DecidableEq, Repr, Inhabited

/-- How a run ends: what it reported before it turned to the sink, its result, and
the state in which it leaves the sink. -/
structure Outcome (σ : Type) where
  events : List Event
  result : Except Error Summary
  state : σ

namespace Configuration

/-- Discovers and loads the inputs of a configuration. -/
def loadInputs (c : Configuration) (fs : FileSystem) : Logged Loaded :=
  match discover fs c.inputDir c.inputExtension with
  | .error e => .fail e
  | .ok inputs =>
    ((loadSchemas fs c.onReadError inputs).bind fun set => .pure ⟨inputs.length, set⟩).after
      [.discovered c.inputDir inputs.length]

/-- The artifacts of a configuration, without writing them. -/
def plan (c : Configuration) (fs : FileSystem) : Logged (List Artifact) :=
  (c.loadInputs fs).bind fun l => .pure (l.schemas.artifacts c.layout)

/-- Loads, renders and writes to a sink. -/
def run {σ : Type} (c : Configuration) (fs : FileSystem) (sink : Sink σ) (s : σ) : Outcome σ :=
  let l := c.loadInputs fs
  match l.result with
  | .error e => ⟨l.events, .error e, s⟩
  | .ok loaded =>
    match sink.writeAll (loaded.schemas.artifacts c.layout) s with
    | (.error e, s') => ⟨l.events, .error e, s'⟩
    | (.ok written, s') =>
      ⟨l.events, .ok ⟨loaded.inputs, loaded.schemas.size, written, loaded.schemas.skipped⟩, s'⟩

/-- The event that ends a run that has succeeded. -/
def completion (c : Configuration) (s : Summary) : Event :=
  .complete s.schemas s.artifacts c.outputDir

end Configuration

end JavaEntities
