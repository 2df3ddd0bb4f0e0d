import JavaEntities.Error
import JavaEntities.Log.Level
import JavaEntities.Text.Quoted

/-!
# Log events

What a run reports while it works. An event has a level, a message and fields in a
fixed order; `line` is how it is written. A field shows its value as it is, except
an identifier, which is quoted.

Mirrors the messages that the program logs. The time in front of a line is left
out.
-/

namespace JavaEntities

/-- Something that a run reports. -/
inductive Event
  | discovered (dir : Path) (count : Nat)
  | blankLines (path : Path) (count : Nat)
  | loaded (path : Path) (identifier : String) (fields : Nat)
  | inputSkipped (path : Path) (error : Error)
  | schemaReplaced (identifier : String) (path : Path)
  | outputRemoved (dir : Path)
  | artifactWritten (path : Path) (bytes : Nat)
  | complete (schemas artifacts : Nat) (output : Path)
  deriving DecidableEq, Repr, Inhabited

namespace Event

/-- The level of an event. -/
def level : Event → LogLevel
  | discovered .. => .debug
  | blankLines .. => .debug
  | loaded .. => .debug
  | inputSkipped .. => .warn
  | schemaReplaced .. => .warn
  | outputRemoved .. => .debug
  | artifactWritten .. => .debug
  | complete .. => .info

/-- The message of an event. -/
def message : Event → String
  | discovered .. => "Discovered inputs"
  | blankLines .. => "Skipped blank lines"
  | loaded .. => "Loaded schema"
  | inputSkipped .. => "Skipping unreadable input"
  | schemaReplaced .. => "Schema identifier already loaded; later input replaces it"
  | outputRemoved .. => "Removed previous output"
  | artifactWritten .. => "Wrote artifact"
  | complete .. => "Generation complete"

/-- The fields of an event, as they are written. -/
def fields : Event → List (String × String)
  | discovered dir count => [("dir", dir.display), ("count", toString count)]
  | blankLines path count => [("path", path.display), ("blank", toString count)]
  | loaded path identifier fields =>
    [("path", path.display), ("identifier", Text.quoted identifier), ("fields", toString fields)]
  | inputSkipped path error => [("path", path.display), ("error", error.message)]
  | schemaReplaced identifier path =>
    [("identifier", Text.quoted identifier), ("path", path.display)]
  | outputRemoved dir => [("dir", dir.display)]
  | artifactWritten path bytes => [("path", path.display), ("bytes", toString bytes)]
  | complete schemas artifacts output =>
    [("schemas", toString schemas), ("artifacts", toString artifacts), ("output", output.display)]

/-- Whether an event is shown at a chosen level. -/
def shownAt (e : Event) (chosen : LogLevel) : Bool :=
  (compare chosen e.level).isLE

/-- The line of an event: the level right-aligned in five columns, the message and
the fields. -/
def line (e : Event) : String :=
  let level := e.level.label
  String.ofList (List.replicate (5 - level.length) ' ') ++ level ++ " " ++ e.message
    ++ String.join (e.fields.map fun f => " " ++ f.1 ++ "=" ++ f.2) ++ "\n"

end Event

/-- The lines of the events that are shown at a level. -/
def logText (chosen : LogLevel) (events : List Event) : String :=
  String.join ((events.filter fun e => e.shownAt chosen).map Event.line)

end JavaEntities
