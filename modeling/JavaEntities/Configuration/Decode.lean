import JavaEntities.Configuration.Basic
import JavaEntities.Error
import JavaEntities.Text.Blank
import JavaEntities.Toml.Document

/-!
# Configurations from TOML

A configuration is read from a table whose keys are the names of the settings. A
key that is missing leaves the default. Keys are looked at in increasing order,
whatever their order in the document, and the first that is unknown or has a value
of the wrong kind is the error.

A setting with a fixed set of names is a string, or a table whose only key is the
name and whose value is an empty array or table.

Mirrors `from_toml`. The decoders of the settings, which the program leaves to be
derived, are written out. The reader of documents is an argument of `ofText`, so
what is proved of the decoding holds of any reader; `ofToml` has the one of this
library.
-/

namespace JavaEntities

open Toml (Value)

namespace Configuration

/-- The keys of a configuration. -/
def keys : List String :=
  ["input_dir", "input_extension", "output_dir", "output_extension", "on_read_error", "log_level"]

/-- A name as it is quoted in messages. -/
def quote (name : String) : String :=
  "`" ++ name ++ "`"

/-- The names that are allowed, as a message lists them. -/
def oneOf (names : List String) : String :=
  match names with
  | [a, b] => quote a ++ " or " ++ quote b
  | names => "one of " ++ ", ".intercalate (names.map quote)

/-- The first natural number that has more than so many bits. -/
def integerLimit (bits : Nat) : Int :=
  Int.ofNat (Nat.pow 2 bits)

/-- An integer as messages show it. One that needs more than 64 bits has the name of
the kind of 128 bits that holds it; one that needs more has no text. -/
def integerText (n : Int) : Option String :=
  if -integerLimit 63 ≤ n && n < integerLimit 64 then some (quote (toString n))
  else if -integerLimit 127 ≤ n && n < integerLimit 127 then some (quote (toString n) ++ " as i128")
  else if 0 ≤ n && n < integerLimit 128 then some (quote (toString n) ++ " as u128")
  else none

/-- Why a value that is no string does not fit where `expected` is wanted. A number
that is too large for its kind is refused for that alone. -/
def misfit (expected : String) (v : Value) : String :=
  let wrong (found : String) : String := "invalid type: " ++ found ++ ", expected " ++ expected
  match v with
  | .string s => wrong ("string " ++ s)
  | .integer n =>
    match integerText n with
    | some t => wrong ("integer " ++ t)
    | none => "integer number overflowed"
  | .real x =>
    match x.text with
    | some t => wrong ("floating point " ++ quote t)
    | none => "floating-point number overflowed"
  | .boolean b => wrong ("boolean " ++ quote (if b then "true" else "false"))
  | .moment _ => wrong "map"
  | .array _ => wrong "sequence"
  | .table _ => wrong "map"

/-- The string that a value is. -/
def decodeString (expected : String) : Value → Except String String
  | .string s => .ok s
  | v => .error (misfit expected v)

/-- Whether a value is the empty body of a name in a table. -/
def decodeEmpty : Value → Except String Unit
  | .array [] => .ok ()
  | .array _ => .error "expected empty array"
  | .table [] => .ok ()
  | .table _ => .error "expected empty table"
  | v => .error ("expected table, found " ++ v.kind)

/-- The setting with a name, out of a fixed set. -/
def decodeName {α : Type} (all : List α) (nameOf : α → String) (name : String) :
    Except String α :=
  match all.find? fun a => nameOf a = name with
  | some a => .ok a
  | none => .error ("unknown variant " ++ quote name ++ ", expected " ++ oneOf (all.map nameOf))

/-- The setting that a value names, out of a fixed set. -/
def decodeChoice {α : Type} (all : List α) (nameOf : α → String) : Value → Except String α
  | .string name => decodeName all nameOf name
  | .table [] => .error "wanted exactly 1 element, found 0 elements"
  | .table [(name, body)] =>
    match decodeName all nameOf name with
    | .error e => .error e
    | .ok a =>
      match decodeEmpty body with
      | .error e => .error e
      | .ok _ => .ok a
  | .table _ => .error "wanted exactly 1 element, more than 1 element"
  | _ => .error "wanted string or table"

/-- The configuration with the setting of one entry. -/
def set (c : Configuration) (key : String) (v : Value) : Except String Configuration :=
  if key = "input_dir" then
    (decodeString "path string" v).map fun (s : String) => { c with inputDir := ⟨s⟩ }
  else if key = "input_extension" then
    (decodeString "a string" v).map fun s => { c with inputExtension := s }
  else if key = "output_dir" then
    (decodeString "path string" v).map fun (s : String) => { c with outputDir := ⟨s⟩ }
  else if key = "output_extension" then
    (decodeString "a string" v).map fun s => { c with outputExtension := s }
  else if key = "on_read_error" then
    (decodeChoice ReadErrorPolicy.all ReadErrorPolicy.name v).map fun p =>
      { c with onReadError := p }
  else if key = "log_level" then
    (decodeChoice LogLevel.all LogLevel.name v).map fun l => { c with logLevel := l }
  else .error ("unknown field " ++ quote key ++ ", expected " ++ oneOf keys)

/-- The configuration with the settings of entries, up to the first that does not fit. -/
def setAll (c : Configuration) : List (String × Value) → Except String Configuration
  | [] => .ok c
  | (k, v) :: rest =>
    match c.set k v with
    | .error e => .error e
    | .ok c => setAll c rest

/-- Whether the key of an entry comes before that of another or is the same. -/
def keyLe (a b : String × Value) : Bool :=
  (compare a.1 b.1).isLE

/-- The configuration that a table describes. -/
def ofTable (entries : List (String × Value)) : Except String Configuration :=
  setAll {} (entries.mergeSort keyLe)

/-- The configuration that a text describes, for a reader of documents. A blank text
leaves every default. -/
def ofText (read : Toml.TableReader) (text : String) : Except Error Configuration :=
  if Text.allBlank text.toList then .ok {}
  else
    match read text with
    | none => .error (.configParse .malformed)
    | some entries =>
      match ofTable entries with
      | .error reason => .error (.configParse (.mismatch reason))
      | .ok c => .ok c

/-- The configuration that a text describes as a TOML document. -/
def ofToml (text : String) : Except Error Configuration :=
  ofText Toml.parse? text

end Configuration

end JavaEntities
