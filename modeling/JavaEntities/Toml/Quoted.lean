import JavaEntities.Toml.Character

/-!
# Strings of TOML

A string in double quotes knows escapes, one in single quotes does not. Three
quotes open a string over several lines: a line end right after them does not
count, and up to two quotes may stand right before the closing ones.
-/

namespace JavaEntities.Toml

/-- Puts characters in front of what a reader found. -/
def prepend (front : List Char) : List Char × List Char → List Char × List Char
  | (s, rest) => (front ++ s, rest)

/-- The character with a number, unless no character has it. -/
def characterOf (n : Nat) : Option Char :=
  if h : n.isValidChar then some (Char.ofNatAux n h) else none

/-- The number that hexadecimal digits stand for. -/
def hexNumber (digits : List Char) : Option Nat :=
  digits.foldlM (fun n c => (digitValue c).map (16 * n + ·)) 0

/-- The character given by a number of hexadecimal digits. -/
def codePoint (count : Nat) : Reader Char := fun s =>
  if s.length < count then none
  else ((hexNumber (s.take count)).bind characterOf).map fun c => (c, s.drop count)

/-- The character that an escape stands for; the text begins after the backslash. -/
def escape : Reader Char
  | 'b' :: s => some ('\x08', s)
  | 't' :: s => some ('\t', s)
  | 'n' :: s => some ('\n', s)
  | 'f' :: s => some ('\x0c', s)
  | 'r' :: s => some ('\r', s)
  | 'e' :: s => some ('\x1b', s)
  | '"' :: s => some ('"', s)
  | '\\' :: s => some ('\\', s)
  | 'x' :: s => codePoint 2 s
  | 'u' :: s => codePoint 4 s
  | 'U' :: s => codePoint 8 s
  | _ => none

/-- The rest of a string in double quotes, at most `n` characters. -/
def basicRest : Nat → Reader (List Char)
  | 0, _ => none
  | n + 1, s =>
    match s with
    | '"' :: s => some ([], s)
    | '\\' :: s => (escape s).bind fun (c, s) => (basicRest n s).map (prepend [c])
    | c :: s => if isPlain c then (basicRest n s).map (prepend [c]) else none
    | [] => none

/-- The rest of a string in single quotes. -/
def literalRest : Reader (List Char)
  | '\'' :: s => some ([], s)
  | c :: s => if isPlain c then (literalRest s).map (prepend [c]) else none
  | [] => none

/-- The text after line ends, spaces and tabs, at most `n` characters. -/
def skipIndent : Nat → List Char → List Char
  | 0, s => s
  | n + 1, s =>
    match lineEnd? s with
    | some s => skipIndent n s
    | none =>
      match s with
      | c :: s' => if isSpace c then skipIndent n s' else s
      | [] => []

/-- The text after the end of a line that a backslash joins to the next; the text
begins after the backslash. -/
def continuation? (s : List Char) : Option (List Char) :=
  (lineEnd? (skipSpaces s)).map fun s => skipIndent s.length s

/-- The quotes in front of a text, at most five. -/
def quoteRun (quote : Char) (s : List Char) : Nat :=
  ((s.take 5).takeWhile (· = quote)).length

/-- The rest of a string over several lines, at most `n` characters. The escapes
are those of `escapes`, if there are any. -/
def multilineRest (quote : Char) (escapes : Bool) : Nat → Reader (List Char)
  | 0, _ => none
  | n + 1, s =>
    let run := quoteRun quote s
    if 3 ≤ run then some (List.replicate (run - 3) quote, s.drop run)
    else
      match lineEnd? s with
      | some rest =>
        (multilineRest quote escapes n rest).map (prepend (s.take (s.length - rest.length)))
      | none =>
        match s with
        | [] => none
        | c :: rest =>
          if escapes && c = '\\' then
            match continuation? rest with
            | some rest => multilineRest quote escapes n rest
            | none =>
              (escape rest).bind fun (c, rest) =>
                (multilineRest quote escapes n rest).map (prepend [c])
          else if isPlain c then (multilineRest quote escapes n rest).map (prepend [c])
          else none

/-- A string over several lines; the text begins after the opening quotes. -/
def multiline (quote : Char) (escapes : Bool) : Reader (List Char) := fun s =>
  let s := (lineEnd? s).getD s
  multilineRest quote escapes (s.length + 1) s

/-- A string on one line. -/
def singleLine : Reader String
  | '"' :: s => (basicRest (s.length + 1) s).map fun (cs, rest) => (String.ofList cs, rest)
  | '\'' :: s => (literalRest s).map fun (cs, rest) => (String.ofList cs, rest)
  | _ => none

/-- A string of any kind. -/
def quoted : Reader String
  | '"' :: '"' :: '"' :: s => (multiline '"' true s).map fun (cs, rest) => (String.ofList cs, rest)
  | '\'' :: '\'' :: '\'' :: s =>
    (multiline '\'' false s).map fun (cs, rest) => (String.ofList cs, rest)
  | s => singleLine s

end JavaEntities.Toml
