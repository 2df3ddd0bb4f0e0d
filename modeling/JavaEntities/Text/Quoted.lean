import JavaEntities.Text.Visible

/-!
# Quoted text

A text is quoted so that it stands on one line and shows every character: quotes
and backslashes have a backslash in front, common controls have names, and other
characters that do not show on their own are written by their number.

Mirrors the quoted form in which the log shows an identifier and messages show a
text.
-/

namespace JavaEntities.Text

/-- A number in lower-case hexadecimal digits. -/
def hex (n : Nat) : String :=
  String.ofList (Nat.toDigits 16 n)

/-- A character as it stands in a quoted text. -/
def escape (c : Char) : String :=
  if c = '"' then "\\\""
  else if c = '\\' then "\\\\"
  else if c = '\n' then "\\n"
  else if c = '\r' then "\\r"
  else if c = '\t' then "\\t"
  else if c = '\x00' then "\\0"
  else if isVisible c then c.toString
  else "\\u\x7b" ++ hex c.toNat ++ "\x7d"

/-- A text between quotes. -/
def quoted (s : String) : String :=
  "\"" ++ String.join (s.toList.map escape) ++ "\""

end JavaEntities.Text
