import JavaEntities.Text.Quoted

/-!
# JSON text

Texts as JSON strings, and a list of objects with one member a line, each level
two blanks further in.

Mirrors the pretty form in which `render_json` writes a list of flat objects; no
other JSON is written.
-/

namespace JavaEntities.Text.Json

/-- A character as it stands in a JSON string. Only quotes, backslashes and the
controls below the blank are escaped. -/
def escape (c : Char) : String :=
  if c = '"' then "\\\""
  else if c = '\\' then "\\\\"
  else if c = '\x08' then "\\b"
  else if c = '\x0c' then "\\f"
  else if c = '\n' then "\\n"
  else if c = '\r' then "\\r"
  else if c = '\t' then "\\t"
  else if c.toNat < 16 then "\\u000" ++ hex c.toNat
  else if c.toNat < 32 then "\\u00" ++ hex c.toNat
  else c.toString

/-- A text as a JSON string. -/
def string (s : String) : String :=
  "\"" ++ String.join (s.toList.map escape) ++ "\""

/-- A member of an object of the list. -/
def member (m : String × String) : String :=
  "    " ++ string m.1 ++ ": " ++ string m.2

/-- An object of the list, whose values are all texts. -/
def object (members : List (String × String)) : String :=
  "  \x7b\n" ++ ",\n".intercalate (members.map member) ++ "\n  \x7d"

/-- A list of objects. -/
def objects : List (List (String × String)) → String
  | [] => "[]"
  | os => "[\n" ++ ",\n".intercalate (os.map object) ++ "\n]"

end JavaEntities.Text.Json
