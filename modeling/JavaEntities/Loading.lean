import JavaEntities.Configuration.Basic
import JavaEntities.FileSystem.Basic
import JavaEntities.Log.Event
import JavaEntities.Schema.Rows
import JavaEntities.SchemaSet

/-!
# Loading schemas

Inputs are read one after the other into a schema set. What happens at an input
that cannot be read is the policy: `abort` ends with its error, `skip` passes it
over and goes on. `load` leaves open how an input is read, so what it does with
the outcomes can be told apart from where they come from.

Mirrors `load_schema` and `load_schemas`. The program logs while it loads; here
the events are part of the result (`Logged`). `SchemaSet` is grown by a recursion
over the inputs, which has the reading of an input as an argument.
-/

namespace JavaEntities

/-- What an input gives: its schema, and how many of its lines are blank. -/
structure Reading where
  schema : Schema
  blank : Nat
  deriving DecidableEq, Repr, Inhabited

/-- The events that lead up to a result, and the result. -/
structure Logged (α : Type) where
  events : List Event
  result : Except Error α

namespace Logged

variable {α β : Type}

/-- A result without events. -/
def pure (a : α) : Logged α := ⟨[], .ok a⟩

/-- An error without events. -/
def fail (e : Error) : Logged α := ⟨[], .error e⟩

/-- The same with events in front. -/
def after (events : List Event) (l : Logged α) : Logged α :=
  { l with events := events ++ l.events }

/-- Goes on from a result; an error ends it. -/
def bind (l : Logged α) (f : α → Logged β) : Logged β :=
  match l.result with
  | .error e => ⟨l.events, .error e⟩
  | .ok a => (f a).after l.events

end Logged

/-- Reads an input. Its name is looked at before its text. -/
def readSchema (fs : FileSystem) (input : Path) : Except Error Reading :=
  match identifierOf input with
  | none => .error (.invalidIdentifier input)
  | some identifier =>
    match fs.readText input with
    | .error cause => .error (.inputRead input cause)
    | .ok content => .ok ⟨⟨identifier, parseRows content⟩, blankLines content⟩

/-- The events of an input that was read into a set. -/
def readingEvents (set : SchemaSet) (input : Path) (r : Reading) : List Event :=
  (if r.blank = 0 then [] else [.blankLines input r.blank])
    ++ [.loaded input r.schema.identifier r.schema.fields.length]
    ++ (match set.get? r.schema.identifier with
      | some previous => [.schemaReplaced previous.identifier input]
      | none => [])

/-- Loads inputs into a set that already has some. -/
def loadInto (read : Path → Except Error Reading) (policy : ReadErrorPolicy) :
    List Path → SchemaSet → Logged SchemaSet
  | [], set => .pure set
  | input :: rest, set =>
    match read input with
    | .ok r => (loadInto read policy rest (set.insert r.schema)).after (readingEvents set input r)
    | .error e =>
      match policy with
      | .abort => .fail e
      | .skip => (loadInto read policy rest (set.skip input)).after [.inputSkipped input e]

/-- Loads inputs in order. -/
def load (read : Path → Except Error Reading) (policy : ReadErrorPolicy) (inputs : List Path) :
    Logged SchemaSet :=
  loadInto read policy inputs .empty

/-- Loads inputs of a file system. -/
def loadSchemas (fs : FileSystem) (policy : ReadErrorPolicy) (inputs : List Path) :
    Logged SchemaSet :=
  load (readSchema fs) policy inputs

end JavaEntities
