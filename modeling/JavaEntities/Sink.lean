import JavaEntities.Artifact
import JavaEntities.Error

/-!
# Sinks

A sink is where artifacts go: it can be emptied and written to, each call may
fail, and each leaves a new state whether it fails or not. `writeAll` is the only
order in which a sink is used: emptied once, then written to for each artifact,
up to the first failure.

`MemorySink` keeps what it receives. Its files are under their paths in the order
of paths, and its events are every call with the path as it was spelled.

Mirrors `OutputSink`, `write_artifacts` and `MemorySink`. The program's sinks
change in place; here a call gives the next state beside its result, also when it
fails.
-/

namespace JavaEntities

/-- How a call on a sink ends, and the state it leaves. -/
abbrev SinkCall (σ α : Type) := σ → Except Error α × σ

/-- A destination with states in `σ`. -/
structure Sink (σ : Type) where
  /-- Removes what was written before. -/
  reset : SinkCall σ Unit
  /-- Writes one file, in place of one with its path. -/
  write : Path → String → SinkCall σ Unit

namespace Sink

variable {σ : Type}

/-- Writes artifacts up to the first failure. -/
def writeEach (sink : Sink σ) : List Artifact → SinkCall σ Unit
  | [], s => (.ok (), s)
  | a :: rest, s =>
    match sink.write a.path a.contents s with
    | (.error e, s') => (.error e, s')
    | (.ok _, s') => sink.writeEach rest s'

/-- Empties the sink and writes artifacts up to the first failure. The result is
the number of artifacts. -/
def writeAll (sink : Sink σ) (artifacts : List Artifact) : SinkCall σ Nat := fun s =>
  match sink.reset s with
  | (.error e, s') => (.error e, s')
  | (.ok _, s') =>
    match sink.writeEach artifacts s' with
    | (.error e, s'') => (.error e, s'')
    | (.ok _, s'') => (.ok artifacts.length, s'')

end Sink

/-- One call on a sink. -/
inductive SinkEvent
  | reset
  | write (path : Path)
  deriving DecidableEq, Repr, Inhabited

/-- A sink that keeps everything. -/
structure MemorySink where
  files : SortedMap Path String := .empty
  events : List SinkEvent := []

namespace MemorySink

/-- The contents under a path, however it is spelled. -/
def get? (m : MemorySink) (p : Path) : Option String :=
  m.files.get? p

/-- The sink without files. -/
def reset (m : MemorySink) : MemorySink :=
  { files := .empty, events := m.events ++ [.reset] }

/-- The sink with one more file. -/
def write (m : MemorySink) (p : Path) (contents : String) : MemorySink :=
  { files := m.files.insert p contents, events := m.events ++ [.write p] }

/-- The calls of a memory sink, none of which fails. -/
def sink : Sink MemorySink where
  reset m := (.ok (), m.reset)
  write p contents m := (.ok (), m.write p contents)

end MemorySink

end JavaEntities
