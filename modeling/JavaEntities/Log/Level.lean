import JavaEntities.Error

/-!
# Log levels

The levels that a user may choose, from the one that shows everything to the
one that shows nothing. A message is shown when its level is not below the
chosen one.

Mirrors `LogLevel` with `from_str`, and `build_filter` as far as a single level
goes.
-/

namespace JavaEntities

/-- How much of the log is shown. -/
inductive LogLevel
  | trace
  | debug
  | info
  | warn
  | error
  | off
  deriving DecidableEq, Repr, Inhabited

namespace LogLevel

/-- Every level, from the most to the least shown. -/
def all : List LogLevel := [.trace, .debug, .info, .warn, .error, .off]

/-- The place of a level in their order. -/
def rank : LogLevel → Nat
  | trace => 0
  | debug => 1
  | info => 2
  | warn => 3
  | error => 4
  | off => 5

instance : Ord LogLevel where
  compare := compareOn rank

/-- The name of a level in settings. -/
def name : LogLevel → String
  | trace => "trace"
  | debug => "debug"
  | info => "info"
  | warn => "warn"
  | error => "error"
  | off => "off"

/-- The name of a level on display. -/
def label : LogLevel → String
  | trace => "TRACE"
  | debug => "DEBUG"
  | info => "INFO"
  | warn => "WARN"
  | error => "ERROR"
  | off => "OFF"

/-- The level with exactly this name. -/
def ofName? (text : String) : Option LogLevel :=
  all.find? fun l => l.name = text

/-- The level that a user names; the case of letters does not count, and
`warning` is another name for `warn`. -/
def parse (text : String) : Except Error LogLevel :=
  let lower := text.toLower
  match if lower = "warning" then some warn else ofName? lower with
  | some l => .ok l
  | none => .error (.config (.unknownLogLevel lower))

/-- The level that the environment asks for: a name in any case, or its number
counted from the level that shows nothing. -/
def ofEnvironment? (text : String) : Option LogLevel :=
  match ["0", "1", "2", "3", "4", "5"].idxOf? text with
  | some i => all.reverse[i]?
  | none => ofName? text.toLower

end LogLevel

end JavaEntities
